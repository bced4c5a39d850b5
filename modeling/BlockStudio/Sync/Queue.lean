import BlockStudio.Sync.Error

/-! A queue of jobs for one worker. A running job always finishes; cancelling skips those behind it. -/

namespace BlockStudio

structure TaskQueue (J : Type) where
  waiting : List J := []
  /-- Taken by the worker, which has not looked at the cancel flag since. -/
  received : Option J := none
  running : Option J := none
  cancelled : Bool := false
  closed : Bool := false
deriving Repr, DecidableEq, Inhabited

namespace TaskQueue

variable {J : Type}

def submit (j : J) (q : TaskQueue J) : Except SyncError (TaskQueue J) :=
  if q.closed || q.cancelled then .error .queueCancelled else .ok { q with waiting := q.waiting ++ [j] }

def receive (q : TaskQueue J) : Option (TaskQueue J) :=
  match q.running, q.received, q.waiting with
  | none, none, j :: rest => some { q with waiting := rest, received := some j }
  | _, _, _ => none

def check (q : TaskQueue J) : TaskQueue J :=
  if q.cancelled then { q with received := none } else { q with received := none, running := q.received }

def finish (q : TaskQueue J) : TaskQueue J := { q with running := none }

def shutdown (q : TaskQueue J) : TaskQueue J := { q with cancelled := true, closed := true }

def isStopped (q : TaskQueue J) : Bool :=
  q.closed && q.waiting.isEmpty && q.received.isNone && q.running.isNone

end TaskQueue

end BlockStudio
