import BlockStudio.Graph.Basic

namespace BlockStudio

inductive Severity where
  | warning
  | error
  /-- The fault lies in the language or the graph, and not in what the user built. -/
  | internal
deriving Repr, DecidableEq

inductive Problem where
  | emptySocket (socket : String)
  | staleCall
  | invalidNumber (label : String)
  | invalidColor (label : String)
  | unbound (label : String)
  | badBlock
  | loose
  | duplicateHandler
  | duplicateDefinition (name : String)
  | missingBlock
  | unknownGenus (genus : String)
  | missingSocket (socket : String)
  | noPrimitive (genus : String)
  | malformedLabel (label : String)
  | unknownMember (label : String)
  | unknownEvent (label : String)
deriving Repr, DecidableEq

namespace Problem

def isInternal : Problem → Bool
  | missingBlock | unknownGenus _ | missingSocket _ | noPrimitive _ | malformedLabel _ | unknownMember _
  | unknownEvent _ => true
  | _ => false

def severity (live : Bool) (p : Problem) : Severity :=
  match p with
  | emptySocket _ => if live then .error else .warning
  | loose => .warning
  | p => if p.isInternal then .internal else .error

def message (id : BlockId) : Problem → String
  | emptySocket socket => "This block has an empty socket: '" ++ socket ++ "'"
  | staleCall => "This block refers to something that no longer exists"
  | invalidNumber label => "'" ++ label ++ "' is not a valid number"
  | invalidColor label => "'" ++ label ++ "' is not a valid color"
  | unbound label => "'" ++ label ++ "' is not bound here"
  | badBlock => "This block is invalid and must be fixed before it can run"
  | loose => "This block should be connected to an event block or a procedure definition"
  | duplicateHandler => "Duplicate event handler for this component"
  | duplicateDefinition name => "Duplicate definition of '" ++ name ++ "'"
  | missingBlock => "Block " ++ Text.natText id ++ " is missing from the graph"
  | unknownGenus genus => "Unknown block genus '" ++ genus ++ "'"
  | missingSocket socket => "Block has no socket named '" ++ socket ++ "'"
  | noPrimitive genus => "Genus '" ++ genus ++ "' names no runtime primitive"
  | malformedLabel label => "Malformed component label '" ++ label ++ "'"
  | unknownMember label => "Unknown component member '" ++ label ++ "'"
  | unknownEvent label => "Unknown event '" ++ label ++ "'"

end Problem

structure Diagnostic where
  block : BlockId
  severity : Severity
  problem : Problem
deriving Repr, DecidableEq

namespace Diagnostic

def message (d : Diagnostic) : String := d.problem.message d.block

def isError (d : Diagnostic) : Bool := d.severity ≠ .warning

def remark (d : Diagnostic) : Remark :=
  match d.severity with
  | .warning => .warning d.message
  | _ => .error d.message

def attach (ds : List Diagnostic) (g : BlockGraph) : BlockGraph :=
  ds.foldl (fun g d => g.annotate d.block (some d.remark)) g

def attachable (ds : List Diagnostic) (g : BlockGraph) : Nat := (ds.filter fun d => g.contains d.block).length

end Diagnostic

end BlockStudio
