import BlockStudio.Json.Parse
import BlockStudio.Json.Print
import BlockStudio.Collection.NameMap
import BlockStudio.Collection.SortedSet

/-!
Records in JSON. A record is an object or the list of its fields in their order. Members with other
names are passed over, a field named twice is refused, and fields may be missing at the end of a list.
-/

namespace BlockStudio.Json

def fieldOf? (members : List (String × Json)) (name : String) : Option (Option Json) :=
  match members.filter (·.1 = name) with
  | [] => some none
  | [m] => some (some m.2)
  | _ => none

def fields? (names : List String) : Json → Option (List (Option Json))
  | object members => names.mapM (fieldOf? members)
  | list items =>
    if items.length ≤ names.length then
      some (items.map some ++ List.replicate (names.length - items.length) none)
    else none
  | _ => none

def required (f : Json → Option α) : Option Json → Option α
  | some j => f j
  | none => none

def withDefault (default : α) (f : Json → Option α) : Option Json → Option α
  | some j => f j
  | none => some default

def nullable (f : Json → Option α) : Option Json → Option (Option α) := withDefault none (optionOf? f)

/-- A name written again keeps its place and takes the later value. -/
def nameMapOf? (f : Json → Option α) (j : Json) : Option (NameMap α) := do
  let members ← j.object?
  let entries ← members.mapM fun m => (f m.2).map fun a => (m.1, a)
  return NameMap.ofList entries

def nameMap (f : α → Json) (m : NameMap α) : Json := object (m.entries.map fun e => (e.1, f e.2))

def countSetOf? (j : Json) : Option (SortedSet Nat) := (j.listOf? count64?).map SortedSet.ofList

def countSet (s : SortedSet Nat) : Json := list (s.toList.map count)

end BlockStudio.Json
