/-! JSON values as documents of this program use them: the only numbers read are counts. -/

namespace BlockStudio

inductive Json where
  | null
  | bool (b : Bool)
  | count (n : Nat)
  | otherNumber
  | text (s : String)
  | list (items : List Json)
  | object (members : List (String × Json))
  /-- Well written, but some escape in it names half a character: it can be skipped and not read. -/
  | unreadable
deriving Repr, Inhabited

namespace Json

def option (f : α → Json) : Option α → Json
  | some a => f a
  | none => null

def textOption (s : Option String) : Json := option text s

def text? : Json → Option String
  | text s => some s
  | _ => none

/-- One of several names: text, or an object that has the name over null. -/
def choice? : Json → Option String
  | text s => some s
  | object [(s, null)] => some s
  | _ => none

def bool? : Json → Option Bool
  | bool b => some b
  | _ => none

def countBelow? (bound : Nat) : Json → Option Nat
  | count n => if n < bound then some n else none
  | _ => none

def count64? (j : Json) : Option Nat := j.countBelow? UInt64.size

def count32? (j : Json) : Option Nat := j.countBelow? UInt32.size

def count16? (j : Json) : Option Nat := j.countBelow? UInt16.size

def list? : Json → Option (List Json)
  | list items => some items
  | _ => none

def listOf? (f : Json → Option α) (j : Json) : Option (List α) := j.list?.bind fun items => items.mapM f

def object? : Json → Option (List (String × Json))
  | object members => some members
  | _ => none

def optionOf? (f : Json → Option α) : Json → Option (Option α)
  | null => some none
  | j => (f j).map some

end Json

end BlockStudio
