import BlockStudio.EditError

namespace BlockStudio

inductive Connector where
  | typed (type : String)
  | listOf (element : String)
  | poly
deriving Repr, DecidableEq, Inhabited

namespace Connector

def carried? : Connector → Option String
  | typed t => some t
  | listOf _ => some "list"
  | poly => none

def isPoly : Connector → Bool
  | poly => true
  | _ => false

def display : Connector → String
  | typed t => t
  | listOf t => "list:" ++ t
  | poly => "poly"

def parse (s : String) : Except EditError Connector :=
  let t := Text.trim s
  if t = "" then .error (.invalidConnector t)
  else if t = "poly" then .ok poly
  else
    match Text.stripLead? "list:" t with
    | some "" => .error (.invalidConnector t)
    | some element => .ok (listOf element)
    | none => .ok (typed t)

end Connector

def valueType : String := "value"

end BlockStudio
