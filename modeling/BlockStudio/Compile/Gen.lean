import BlockStudio.Compile.Diagnostic

namespace BlockStudio

structure Fault where
  block : BlockId
  problem : Problem
deriving Repr, DecidableEq

def Fault.diagnostic (live : Bool) (f : Fault) : Diagnostic where
  block := f.block
  severity := f.problem.severity live
  problem := f.problem

structure Gen (α : Type) where
  outcome : Except Fault α
  notes : List Diagnostic := []

namespace Gen

variable {α β : Type}

def fault (block : BlockId) (problem : Problem) : Gen α where
  outcome := .error { block, problem }

def note (d : Diagnostic) : Gen Unit where
  outcome := .ok ()
  notes := [d]

protected def bind (x : Gen α) (f : α → Gen β) : Gen β :=
  match x.outcome with
  | .ok a =>
    let y := f a
    { outcome := y.outcome, notes := x.notes ++ y.notes }
  | .error e => { outcome := .error e, notes := x.notes }

instance : Monad Gen where
  pure a := { outcome := .ok a }
  bind := Gen.bind

def catchInternal (live : Bool) (a : α) (x : Gen α) : Gen α :=
  match x.outcome with
  | .ok _ => x
  | .error f =>
    if f.problem.isInternal then { outcome := .ok a, notes := x.notes ++ [f.diagnostic live] } else x

theorem pure_def (a : α) : (pure a : Gen α) = { outcome := .ok a } := rfl

end Gen

end BlockStudio
