import BlockStudio.Proofs.Sync.Threads
import BlockStudio.Sync.Queue

/-!
The workers of a session. A restart puts a new worker in the place of the one there is, which may be busy still: it then
goes on beside the new one, on the same link.
-/

namespace BlockStudio

/-- What a worker is given to do. Deliveries are numbered in the order in which their requests were sent. -/
inductive Job where
  | delivery (number : ℕ) (request : String)
  | call (c : DeviceCall)
deriving DecidableEq

namespace Job

def number? : Job → Option ℕ
  | delivery number _ => some number
  | call _ => none

def isDelivery (j : Job) : Bool := j.number?.isSome

end Job

def WorkerPhase.writes : WorkerPhase → Bool
  | .writing _ | .connecting _ _ _ => true
  | _ => false

structure Worker where
  queue : TaskQueue Job := {}
  phase : WorkerPhase := .idle

namespace Worker

structure Turn (σ : Type) where
  shared : Controller σ
  worker : Worker
  wrote : Option ℕ := none

variable {σ : Type} (t : Transport σ)

def delivering (w : Worker) : Bool := w.queue.running.any Job.isDelivery

def jobs (w : Worker) : List Job := w.queue.running.toList ++ w.queue.received.toList ++ w.queue.waiting

def numbers (w : Worker) : List ℕ := w.jobs.filterMap Job.number?

def firstPhase : Job → WorkerPhase
  | .delivery _ request => .received request
  | .call _ => .idle

def deliverStep (shared : Controller σ) (number : ℕ) (w : Worker) : Turn σ :=
  let s := ({ shared, worker := w.phase } : Threads σ).workerStep t
  if s.worker = .idle then
    { shared := s.shared, worker := { queue := w.queue.finish }, wrote := if w.phase.writes then some number else none }
  else { shared := s.shared, worker := { w with phase := s.worker } }

def step (shared : Controller σ) (w : Worker) : Turn σ :=
  match w.queue.running, w.queue.received with
  | some (.delivery number _), _ => w.deliverStep t shared number
  | some (.call c), _ =>
    { shared := { shared with link := (shared.link.call t c).2 }, worker := { queue := w.queue.finish } }
  | none, some job =>
    { shared, worker := { queue := w.queue.check, phase := if w.queue.cancelled then .idle else firstPhase job } }
  | none, none => { shared, worker := { w with queue := w.queue.receive.getD w.queue } }

end Worker

structure Workers (σ : Type) where
  shared : Controller σ
  current : Worker := {}
  retired : List Worker := []
  /-- A restart has the queue to itself, and waits for the worker to stop. -/
  restarting : Bool := false
  sent : ℕ := 0
  written : List ℕ := []

namespace Workers

inductive Move (σ : Type) where
  | others (shared : Controller σ)
  | send (request : String)
  | call (c : DeviceCall)
  | cancel
  | replace
  | current
  | retired (i : ℕ)

variable {σ : Type} (t : Transport σ)

def submit (job : Job) (s : Workers σ) : Except SyncError (Workers σ) := do
  let queue ← s.current.queue.submit job
  return { s with current := { s.current with queue } }

def step (s : Workers σ) : Move σ → Workers σ
  | .others shared => { s with shared }
  | .send request =>
    if s.restarting then s
    else
      match s.submit (.delivery s.sent request) with
      | .ok s' => { s' with sent := s.sent + 1 }
      | .error _ => s
  | .call c => if s.restarting then s else (s.submit (.call c)).toOption.getD s
  | .cancel =>
    if s.restarting then s
    else { s with current := { s.current with queue := s.current.queue.shutdown }, restarting := true }
  | .replace =>
    if s.restarting then { s with current := {}, retired := s.retired ++ [s.current], restarting := false } else s
  | .current =>
    let turn := s.current.step t s.shared
    { s with shared := turn.shared, current := turn.worker, written := s.written ++ turn.wrote.toList }
  | .retired i =>
    match s.retired[i]? with
    | none => s
    | some w =>
      let turn := w.step t s.shared
      { s with
        shared := turn.shared
        retired := s.retired.set i turn.worker
        written := s.written ++ turn.wrote.toList }

def after (moves : List (Move σ)) (s : Workers σ) : Workers σ := moves.foldl (step t) s

def deliveries (s : Workers σ) : List Worker := (s.current :: s.retired).filter (·.delivering)

structure Sound (s : Workers σ) : Prop where
  single : s.deliveries.length ≤ 1
  ordered : s.written.Pairwise (· < ·)

def Patient (s : Workers σ) (moves : List (Move σ)) : Prop :=
  ∀ before rest, moves = before ++ .replace :: rest → (s.after t before).restarting = true →
    (s.after t before).current.delivering = false

end Workers

end BlockStudio
