import BlockStudio.Sync.Queue

/-!
A task queue whose worker can be held up. A gate is a job that lasts until the gates are released; the
other jobs answer their values and leave them in a log.
-/

namespace BlockStudio

inductive GateJob where
  | gate (index : Nat)
  | task (ticket : Nat) (value : Int)
deriving Repr, DecidableEq

structure GatedQueue where
  current : TaskQueue GateJob := {}
  retired : List (TaskQueue GateJob) := []
  gates : Nat := 0
  opened : Nat := 0
  tickets : Nat := 0
  log : List Int := []
  results : List (Nat × Int) := []
  pending : List (Option Nat) := []
deriving Repr, DecidableEq, Inhabited

namespace GatedQueue

structure Trace where
  log : List Int
  results : List (Nat × Int)

def serve (opened : Nat) : Nat → TaskQueue GateJob → Trace → TaskQueue GateJob × Trace
  | 0, q, t => (q, t)
  | n + 1, q, t =>
    match q.running with
    | some (.gate k) => if k < opened then serve opened n q.finish t else (q, t)
    | some (.task ticket v) =>
      serve opened n q.finish { log := t.log ++ [v], results := (ticket, v) :: t.results }
    | none =>
      if q.received.isSome then serve opened n q.check t
      else
        match q.receive with
        | some q => serve opened n q t
        | none => (q, t)

/-- Each job takes three steps. -/
def serveAll (opened : Nat) (q : TaskQueue GateJob) (t : Trace) : TaskQueue GateJob × Trace :=
  serve opened (3 * q.waiting.length + 3) q t

def settle (s : GatedQueue) : GatedQueue :=
  let step (acc : List (TaskQueue GateJob) × Trace) (q : TaskQueue GateJob) :=
    let (q, t) := serveAll s.opened q acc.2
    (acc.1 ++ [q], t)
  let (retired, t) := s.retired.foldl step ([], ⟨s.log, s.results⟩)
  let (current, t) := serveAll s.opened s.current t
  { s with retired, current, log := t.log, results := t.results }

def isShut (s : GatedQueue) : Bool := s.opened < s.gates

def submit (job : GateJob) (s : GatedQueue) : Except SyncError GatedQueue := do
  let q ← s.current.submit job
  return settle { s with current := q }

def gate (s : GatedQueue) : Except SyncError GatedQueue := do
  let s' ← s.submit (.gate s.gates)
  return { s' with gates := s.gates + 1 }

def resultOf (s : GatedQueue) (ticket : Nat) : Except SyncError Int :=
  match s.results.lookup ticket with
  | some v => .ok v
  | none => .error .queueCancelled

def submitTask (value : Int) (s : GatedQueue) : Except SyncError (Nat × GatedQueue) := do
  let s' ← s.submit (.task s.tickets value)
  return (s.tickets, { s' with tickets := s.tickets + 1 })

def keep (ticket : Nat) (s : GatedQueue) : Nat × GatedQueue :=
  (s.pending.length, { s with pending := s.pending ++ [some ticket] })

inductive Promise where
  | done (result : Except SyncError Int)
  | pending (index : Nat)

def ask (value : Int) (s : GatedQueue) : Promise × GatedQueue :=
  match s.submitTask value with
  | .error e => (.done (.error e), s)
  | .ok (ticket, s') =>
    if s.isShut then
      let (index, s') := s'.keep ticket
      (.pending index, s')
    else (.done (s'.resultOf ticket), s')

def fetch (index : Nat) (s : GatedQueue) : Option (Except SyncError Int) × GatedQueue :=
  match s.pending[index]? with
  | some (some ticket) => (some (s.resultOf ticket), { s with pending := s.pending.set index none })
  | _ => (none, s)

def double (value : Int) (s : GatedQueue) : Except SyncError (Int × GatedQueue) := do
  let (ticket, s') ← s.submitTask value
  let v ← s'.resultOf ticket
  return (2 * v, { s' with log := s.log })

def release (s : GatedQueue) : GatedQueue := settle { s with opened := s.gates }

def shutdown (s : GatedQueue) : Bool × GatedQueue :=
  let again := s.current.closed
  let s := settle { s with current := s.current.shutdown }
  (again || s.current.isStopped, s)

def restart (s : GatedQueue) : Bool × GatedQueue :=
  let (stopped, s) := s.shutdown
  (stopped, { s with current := {}, retired := if s.current.isStopped then s.retired else s.retired ++ [s.current] })

end GatedQueue

end BlockStudio
