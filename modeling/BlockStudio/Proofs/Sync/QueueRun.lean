import BlockStudio.Sync.Queue
import Mathlib.Data.Nat.Notation
import Mathlib.Logic.Function.Basic

/-!
A queue with the caller that owns it, its worker and the channels by which results come back. The caller and the worker
take their steps in any order. Jobs are numbered as they are submitted, and each returns.
-/

namespace BlockStudio

namespace TaskQueue

variable {J : Type}

def cancel (q : TaskQueue J) : TaskQueue J := { q with cancelled := true }

def close (q : TaskQueue J) : TaskQueue J := { q with closed := true }

/-- A shutdown is two steps, and the worker may go on between them. -/
theorem close_cancel (q : TaskQueue J) : q.cancel.close = q.shutdown := rfl

end TaskQueue

inductive Reply (T : Type) where
  | awaited
  | sent (value : T)
  -- the job is gone, and nothing was sent
  | dropped
deriving Repr, DecidableEq

namespace Reply

def wait {T : Type} : Reply T → Option (Except SyncError T)
  | awaited => none
  | sent value => some (.ok value)
  | dropped => some (.error .queueCancelled)

end Reply

namespace QueueRun

inductive Caller where
  | free
  -- the flag is set, and the queue is open still
  | closing
  | waiting
deriving Repr, DecidableEq

inductive Event (T : Type) where
  | accepted (number : ℕ) (awaited : Bool)
  | refused (number : ℕ) (error : SyncError)
  | started (number : ℕ)
  | finished (number : ℕ) (value : T)
  | skipped (number : ℕ)
  | shutdown
  -- a shutdown is over, and answers whether the worker stopped
  | returned (stopped : Bool)
deriving Repr, DecidableEq

namespace Event

variable {T : Type}

def accepted? : Event T → Option ℕ
  | accepted n _ => some n
  | _ => none

def started? : Event T → Option ℕ
  | started n => some n
  | _ => none

def finished? : Event T → Option ℕ
  | finished n _ => some n
  | _ => none

def skipped? : Event T → Option ℕ
  | skipped n => some n
  | _ => none

end Event

inductive Move (T : Type) where
  | submit (awaited : Bool)
  | receive
  | check
  | finish (value : T)
  -- the worker finds that no more jobs can come
  | leave
  | cancel
  | close
  | stopped
  | timedOut

end QueueRun

structure QueueRun (T : Type) where
  queue : TaskQueue ℕ := {}
  -- refused jobs included
  submitted : ℕ := 0
  replies : ℕ → Option (Reply T) := fun _ => none
  caller : QueueRun.Caller := .free
  -- nobody has waited for the worker yet
  joinable : Bool := true
  -- the worker has come to an end
  left : Bool := false
  log : List (QueueRun.Event T) := []

namespace QueueRun

variable {T : Type}

def start (spawned : Bool) : QueueRun T := { queue := { closed := !spawned }, joinable := spawned }

def resolve (n : ℕ) (reply : Reply T) (s : QueueRun T) : QueueRun T :=
  { s with replies := Function.update s.replies n ((s.replies n).map fun _ => reply) }

def step (s : QueueRun T) : Move T → QueueRun T
  | .submit awaited =>
    if s.caller = .free then
      match s.queue.submit s.submitted with
      | .ok queue =>
        { s with
          queue
          submitted := s.submitted + 1
          replies := if awaited then Function.update s.replies s.submitted (some .awaited) else s.replies
          log := s.log ++ [.accepted s.submitted awaited] }
      | .error e => { s with submitted := s.submitted + 1, log := s.log ++ [.refused s.submitted e] }
    else s
  | .receive => { s with queue := s.queue.receive.getD s.queue }
  | .check =>
    match s.queue.received with
    | none => s
    | some n =>
      if s.queue.cancelled then { s.resolve n .dropped with queue := s.queue.check, log := s.log ++ [.skipped n] }
      else { s with queue := s.queue.check, log := s.log ++ [.started n] }
  | .finish value =>
    match s.queue.running with
    | none => s
    | some n => { s.resolve n (.sent value) with queue := s.queue.finish, log := s.log ++ [.finished n value] }
  | .leave => if s.queue.isStopped then { s with left := true } else s
  | .cancel =>
    if s.caller = .free then { s with queue := s.queue.cancel, caller := .closing, log := s.log ++ [.shutdown] } else s
  | .close =>
    if s.caller = .closing then
      let s' := { s with queue := s.queue.close, joinable := false }
      if s.joinable then { s' with caller := .waiting } else { s' with caller := .free, log := s.log ++ [.returned true] }
    else s
  | .stopped =>
    if s.caller = .waiting ∧ s.left = true then { s with caller := .free, log := s.log ++ [.returned true] } else s
  | .timedOut => if s.caller = .waiting then { s with caller := .free, log := s.log ++ [.returned false] } else s

def after (moves : List (Move T)) (s : QueueRun T) : QueueRun T := moves.foldl step s

def next (s : QueueRun T) (value : T) : Move T :=
  if s.queue.running.isSome then .finish value else if s.queue.received.isSome then .check else .receive

def work (values : List T) (s : QueueRun T) : QueueRun T := values.foldl (fun s value => s.step (s.next value)) s

def accepted (log : List (Event T)) : List ℕ := log.filterMap Event.accepted?

def started (log : List (Event T)) : List ℕ := log.filterMap Event.started?

def finished (log : List (Event T)) : List ℕ := log.filterMap Event.finished?

def skipped (log : List (Event T)) : List ℕ := log.filterMap Event.skipped?

def Fits (spawned : Bool) (before : List (Event T)) : Event T → Prop
  | .accepted _ _ => spawned = true ∧ .shutdown ∉ before
  | .refused _ e => e = .queueCancelled ∧ (spawned = true → .shutdown ∈ before)
  -- no two jobs overlap
  | .started _ => .shutdown ∉ before ∧ ∀ m ∈ started before, m ∈ finished before
  | .finished n _ => n ∈ started before ∧ n ∉ finished before
  | .skipped _ => .shutdown ∈ before
  | .shutdown => True
  -- the first shutdown waits for the worker
  | .returned stopped => stopped = true → spawned = true → (∀ stopped', .returned stopped' ∉ before) →
      ∀ n ∈ accepted before, n ∈ finished before ∨ n ∈ skipped before

structure Resolves (log : List (Event T)) (n : ℕ) (reply : Reply T) : Prop where
  value : ∀ v, reply.wait = some (.ok v) ↔ .finished n v ∈ log
  error : ∀ e, reply.wait = some (.error e) ↔ e = .queueCancelled ∧ n ∈ skipped log
  ran : n ∈ finished log ∨ n ∈ skipped log → ((∃ v, reply.wait = some (.ok v)) ↔ n ∈ started log)
  cancelled : n ∈ finished log ∨ n ∈ skipped log → (reply.wait = some (.error .queueCancelled) ↔ n ∉ started log)

structure Orderly (spawned : Bool) (s : QueueRun T) : Prop where
  inOrder : started s.log <+: accepted s.log
  once : (started s.log).Nodup
  fits : ∀ before e rest, s.log = before ++ e :: rest → Fits spawned before e
  refused : ∀ n e, .refused n e ∈ s.log → n ∉ started s.log
  skipped : ∀ n ∈ skipped s.log, n ∉ started s.log
  -- whatever the caller does meanwhile
  finishes : ∀ n ∈ started s.log, n ∈ finished s.log ∨ ∀ others, (∀ v, .finish v ∉ others) →
    ∀ v, .finished n v ∈ (s.after (others ++ [.finish v])).log
  accepts : s.caller = .free → spawned = true → .shutdown ∉ s.log →
    ∀ awaited, (s.step (.submit awaited)).log = s.log ++ [.accepted s.submitted awaited]
  refuses : s.caller = .free → (spawned = true → .shutdown ∈ s.log) →
    ∀ awaited, (s.step (.submit awaited)).log = s.log ++ [.refused s.submitted .queueCancelled]
  replies : ∀ n, .accepted n true ∈ s.log → ∃ reply, s.replies n = some reply ∧ Resolves s.log n reply
  -- the worker gets through with all jobs that it has
  served : ∀ values : List T, 3 * s.queue.waiting.length + 2 ≤ values.length →
    ∀ n ∈ accepted s.log, n ∈ finished (s.work values).log ∨ n ∈ QueueRun.skipped (s.work values).log

end QueueRun

end BlockStudio
