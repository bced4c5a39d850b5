import BlockStudio.Collection.SortedSet

namespace BlockStudio

structure CoercionTable where
  pairs : List (String × String) := []
deriving Repr, DecidableEq, Inhabited

namespace CoercionTable

def register (t : CoercionTable) (source target : String) (reversible : Bool) : CoercionTable where
  pairs := t.pairs ++ ((source, target) :: if reversible then [(target, source)] else [])

def standard : CoercionTable :=
  ((CoercionTable.mk []).register "text" "number" true |>.register "list" "text" false).register
    "boolean" "text" false

def allows (t : CoercionTable) (source target : String) : Bool := (source, target) ∈ t.pairs

def targets (t : CoercionTable) (source : String) : SortedSet String :=
  SortedSet.ofList ((t.pairs.filter (·.1 = source)).map Prod.snd)

end CoercionTable

inductive LinkVerdict where
  | allowed (via : Option (String × String))
  | refused (reason : String)
deriving Repr, DecidableEq

namespace LinkVerdict

def isAllowed : LinkVerdict → Bool
  | allowed _ => true
  | refused _ => false

def reason? : LinkVerdict → Option String
  | allowed _ => none
  | refused r => some r

def via? : LinkVerdict → Option (String × String)
  | allowed via => via
  | refused _ => none

end LinkVerdict

end BlockStudio
