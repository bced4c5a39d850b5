import BlockStudio.History.Config
import BlockStudio.History.Store

/-!
A bounded linear undo history. The cursor marks the entry that is on the screen; a new entry drops those
after it. Times are milliseconds on a clock of the caller's.
-/

namespace BlockStudio

structure AutoSaver where
  config : AutoSaveConfig := {}
  entries : List String := []
  cursor : Option Nat := none
  /-- Edited since the last checkpoint or restore. -/
  changed : Bool := false
  saveRequired : Bool := false
  failures : Nat := 0
  lastChangeMs : Option Nat := none
  propertyContext : Option String := none
deriving Repr, DecidableEq, Inhabited

namespace AutoSaver

def capacity (s : AutoSaver) : Nat := max s.config.capacity 1

def currentEntry (s : AutoSaver) : Option String := s.cursor.bind fun i => s.entries[i]?

def canUndo (s : AutoSaver) : Bool := s.cursor.any (0 < ·)

def canRedo (s : AutoSaver) : Bool := s.cursor.any (· + 1 < s.entries.length)

def markChanged (now : Nat) (s : AutoSaver) : AutoSaver :=
  { s with changed := true, saveRequired := true, lastChangeMs := some now }

def setPropertyContext (properties : String) (s : AutoSaver) : AutoSaver :=
  { s with propertyContext := some properties }

def kept (s : AutoSaver) : List String :=
  match s.cursor with
  | some i => s.entries.take (i + 1)
  | none => s.entries

def append (text : String) (s : AutoSaver) : AutoSaver :=
  let all := s.kept ++ [text]
  let entries := all.drop (all.length - s.capacity)
  { s with entries, cursor := some (entries.length - 1) }

def onSnapshot (text : String) (s : AutoSaver) : AutoSaver × Bool :=
  let s := { s with changed := false }
  if s.currentEntry = some text then (s, false) else (s.append text, true)

variable {σ τ : Type} (store : Store σ)

def checkpoint (state : σ) (s : AutoSaver) : AutoSaver × Except HistoryError Bool :=
  if !s.changed && !s.entries.isEmpty then (s, .ok false)
  else
    match store.snapshot state with
    | .error e => (s, .error e)
    | .ok text => ((s.onSnapshot text).1, .ok (s.onSnapshot text).2)

inductive Direction where
  | back
  | forward
deriving Repr, DecidableEq

def Direction.exhausted : Direction → HistoryError
  | back => .nothingToUndo
  | forward => .nothingToRedo

def target (s : AutoSaver) : Direction → Option Nat
  | .back => s.cursor.bind fun i => if i = 0 then none else some (i - 1)
  | .forward => (s.cursor.map (· + 1)).filter (· < s.entries.length)

structure Stepped (σ : Type) where
  state : σ
  reissued : Option String

def moveTo (now i : Nat) (s : AutoSaver) : AutoSaver :=
  { s with cursor := some i, changed := false, saveRequired := true, lastChangeMs := some now }

def goTo (now : Nat) (dir : Direction) (state : σ) (s : AutoSaver) :
    AutoSaver × Except HistoryError (Stepped σ) :=
  match s.target dir with
  | none => (s, .error dir.exhausted)
  | some i =>
    match s.entries[i]? with
    | none => (s, .error dir.exhausted)
    | some entry =>
      match store.restore entry state with
      | .error e => (s, .error e)
      | .ok state => (s.moveTo now i, .ok { state, reissued := s.propertyContext })

def travel (now : Nat) (dir : Direction) (state : σ) (s : AutoSaver) :
    AutoSaver × Except HistoryError (Stepped σ) :=
  match s.checkpoint store state with
  | (s, .error e) => (s, .error e)
  | (s, .ok _) => s.goTo store now dir state

def undo (now : Nat) (state : σ) (s : AutoSaver) : AutoSaver × Except HistoryError (Stepped σ) :=
  s.travel store now .back state

def redo (now : Nat) (state : σ) (s : AutoSaver) : AutoSaver × Except HistoryError (Stepped σ) :=
  s.travel store now .forward state

def saveSucceeded (s : AutoSaver) : AutoSaver := { s with saveRequired := false, failures := 0 }

def saveFailed (path message : String) (s : AutoSaver) : AutoSaver × HistoryError :=
  let failures := s.failures + 1
  ({ s with failures },
    if s.config.saveFailureLimit ≤ failures then .saveEscalation failures message else .saveFailed path message)

def finishSave (path : String) (written : Except String Unit) (s : AutoSaver) :
    AutoSaver × Except HistoryError Unit :=
  match written with
  | .ok _ => (s.saveSucceeded, .ok ())
  | .error message => ((s.saveFailed path message).1, .error (s.saveFailed path message).2)

def save (sink : SaveSink τ) (path : String) (state : σ) (t : τ) (s : AutoSaver) :
    AutoSaver × τ × Except HistoryError Unit :=
  match store.snapshot state with
  | .error e => (s, t, .error e)
  | .ok contents =>
    let (written, t) := sink.write path contents t
    let (s, result) := s.finishSave path written
    (s, t, result)

def idleSaveDue (now : Nat) (s : AutoSaver) : Bool :=
  s.saveRequired && s.lastChangeMs.any fun t => s.config.idleMs ≤ now - t

def idleFor (now : Nat) (s : AutoSaver) : Option Nat := s.lastChangeMs.map (now - ·)

end AutoSaver

end BlockStudio
