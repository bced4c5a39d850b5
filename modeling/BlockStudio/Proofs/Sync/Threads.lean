import BlockStudio.Sync.Controller
import Mathlib.Data.Nat.Notation

/-!
The threads of a session: the caller, the worker that delivers requests, and the readers. What one of them does under
one lock is one move, and the moves of different threads mix in any order.
-/

namespace BlockStudio

inductive CallerPhase where
  | idle
  | sending (request : String)
  | selecting
  /-- The link was dropped, and the session is still to be marked unhappy. -/
  | marking
  | unplugging
deriving DecidableEq

inductive WorkerPhase where
  | idle
  | received (request : String)
  | writing (request : String)
  /-- The request could not be written on the connection there was. -/
  | seeking (request : String)
  | starting (request : String)
  | trying (request : String) (delays : List ℕ)
  | connecting (device request : String) (delays : List ℕ)
  | givingUp
deriving DecidableEq

/-- A reader that closed its connection. It has still to report that, and first to mark the session unhappy. -/
structure Leaver where
  reader : Reader
  marked : Bool := false

structure Threads (σ : Type) where
  shared : Controller σ
  queued : List String := []
  caller : CallerPhase := .idle
  worker : WorkerPhase := .idle
  leaving : List Leaver := []

namespace Threads

inductive Move (σ : Type) where
  | device (d : σ)
  | select (serial : Option String)
  | plug
  | unplug (serial : String)
  | send (code : String) (purpose : Purpose) (origin : Option BlockId) (isLoad : Bool)
  | caller
  | worker
  | receive (r : Reader) (bytes : List UInt8)
  | leave (r : Reader)
  | reader (i : ℕ)

variable {σ : Type} (t : Transport σ)

def begin (s : Threads σ) : Move σ → Threads σ
  | .select serial => { s with shared := s.shared.onSession (·.select serial), caller := .selecting }
  | .plug => { s with shared := s.shared.devicePlugged }
  | .unplug serial =>
    let (session, wasSelected) := s.shared.session.unplug serial
    { s with shared := { s.shared with session }, caller := if wasSelected then .unplugging else .idle }
  | .send code purpose origin isLoad =>
    { s with
      shared := if isLoad then s.shared.onSession (·.setWaiting true) else s.shared
      caller := .sending (wrapRequest code purpose origin) }
  | _ => s

def callerStep (s : Threads σ) : Threads σ :=
  match s.caller with
  | .idle => s
  | .sending request => { s with queued := s.queued ++ [request], caller := .idle }
  | .selecting => { s with shared := { s.shared with link := s.shared.link.drop t }, caller := .marking }
  | .marking => { s with shared := s.shared.onSession .markUnhappy, caller := .idle }
  | .unplugging => { s with shared := { s.shared with link := s.shared.link.drop t }, caller := .idle }

def afterFailure (request : String) : List ℕ → WorkerPhase
  | [] => .givingUp
  | _ :: delays => .trying request delays

def workerStep (s : Threads σ) : Threads σ :=
  match s.worker with
  | .idle =>
    match s.queued with
    | [] => s
    | request :: queued => { s with queued, worker := .received request }
  | .received request => { s with worker := if s.shared.session.happy then .writing request else .seeking request }
  | .writing request =>
    let (ok, link) := s.shared.link.write t request
    { s with shared := { s.shared with link }, worker := if ok then .idle else .seeking request }
  | .seeking request => { s with worker := if s.shared.session.selected.isSome then .starting request else .givingUp }
  | .starting request =>
    { s with
      shared := s.shared.onSession .beginReconnect
      worker := .trying request s.shared.config.backoff.delaysMs }
  | .trying request delays =>
    match s.shared.session.selected with
    | none => { s with worker := afterFailure request delays }
    | some device => { s with worker := .connecting device request delays }
  | .connecting device request delays =>
    match s.shared.link.reconnect t (Controller.restartCalls s.shared.config device) s.shared.config.port request with
    | (.error _, link) => { s with shared := { s.shared with link }, worker := afterFailure request delays }
    | (.ok connection, link) =>
      { s with
        shared := { s.shared with
          link
          readers := s.shared.readers ++ [{ connection, generation := link.generation }]
          session := s.shared.session.markConnected }
        worker := .idle }
  | .givingUp => { s with shared := s.shared.onSession .markDisconnected, worker := .idle }

def leaveStep (r : Reader) (s : Threads σ) : Threads σ :=
  let c := s.shared.readerFlush r
  { s with
    shared := c.readerClose t r
    leaving := if c.isCurrent r then s.leaving ++ [{ reader := r }] else s.leaving }

def readerStep (i : ℕ) (s : Threads σ) : Threads σ :=
  match s.leaving[i]? with
  | none => s
  | some l =>
    if l.marked then { s with shared := s.shared.readerClosed, leaving := s.leaving.eraseIdx i }
    else { s with shared := s.shared.readerUnhappy, leaving := s.leaving.set i { l with marked := true } }

def step (s : Threads σ) : Move σ → Threads σ
  | .device device => { s with shared := { s.shared with link := { s.shared.link with device } } }
  | .caller => s.callerStep t
  | .worker => s.workerStep t
  | .receive r bytes => if r ∈ s.shared.readers then { s with shared := s.shared.receive r bytes } else s
  | .leave r => if r ∈ s.shared.readers then s.leaveStep t r else s
  | .reader i => s.readerStep i
  | m => if s.caller = .idle then s.begin m else s

def after (moves : List (Move σ)) (s : Threads σ) : Threads σ := moves.foldl (step t) s

def start (config : SyncConfig) (device : σ) : Threads σ where
  shared := .new config device

def Along (P : Threads σ → Move σ → Prop) : List (Move σ) → Threads σ → Prop
  | [], _ => True
  | m :: rest, s => P s m ∧ Along P rest (s.step t m)

def Quiet (s : Threads σ) : Prop := s.caller = .idle ∧ s.worker = .idle ∧ s.leaving = []

def Agrees (s : Threads σ) : Prop := s.shared.session.happy = true ↔ s.shared.link.writer.isSome = true

structure Sound (s : Threads σ) : Prop where
  agrees : s.Quiet → s.Agrees
  current : ∀ l ∈ s.leaving, l.reader.generation < s.shared.link.generation → s.shared.link.writer = none

def Opens (s : Threads σ) : Prop :=
  ∃ device request delays connection link, s.worker = .connecting device request delays ∧
    s.shared.link.reconnect t (Controller.restartCalls s.shared.config device) s.shared.config.port request =
      (.ok connection, link)

def Orderly (s : Threads σ) : Prop :=
  s.leaving = [] ∧ (s.caller = .selecting ∨
    s.caller ≠ .marking ∧ s.caller ≠ .unplugging ∧ s.shared.session.selected.isSome = true)

def OpensNothing (s : Threads σ) (m : Move σ) : Prop := m = .worker → ¬ s.Opens t

def OpensOrderly (s : Threads σ) (m : Move σ) : Prop := m = .worker → s.Opens t → s.Orderly

end Threads

end BlockStudio
