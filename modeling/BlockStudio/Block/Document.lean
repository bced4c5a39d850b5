import BlockStudio.Block.Basic
import BlockStudio.Language.Document

namespace BlockStudio

open Json

def countOption (n : Option Nat) : Json := option count n

def Socket.toJson (s : Socket) : Json :=
  object [("label", text s.label), ("kind", s.kind.toJson), ("optional", bool s.optional),
    ("command", bool s.command), ("resolved", textOption s.resolved), ("block", countOption s.block)]

def Socket.ofJson? (j : Json) : Option Socket := do
  let [label, kind, isOptional, command, resolved, block] ←
    j.fields? ["label", "kind", "optional", "command", "resolved", "block"] | none
  return {
    label := ← required text? label
    kind := ← required Connector.ofJson? kind
    optional := ← withDefault false bool? isOptional
    command := ← withDefault false bool? command
    resolved := ← nullable text? resolved
    block := ← nullable count64? block }

def Plug.toJson (p : Plug) : Json := object [("kind", p.kind.toJson), ("resolved", textOption p.resolved)]

def Plug.ofJson? (j : Json) : Option Plug := do
  let [kind, resolved] ← j.fields? ["kind", "resolved"] | none
  return { kind := ← required Connector.ofJson? kind, resolved := ← nullable text? resolved }

namespace Remark

def severityName : Remark → String
  | warning _ => "warning"
  | error _ => "error"
  | result _ => "result"

def toJson (a : Remark) : Json := object [("severity", text a.severityName), ("message", text a.message)]

def ofSeverity? (severity message : String) : Option Remark :=
  if severity = "warning" then some (warning message)
  else if severity = "error" then some (error message)
  else if severity = "result" then some (result message)
  else none

/-- In a list the severity has to be text. -/
def severityOf? (j : Json) : Json → Option String := if j.list?.isSome then text? else choice?

def ofJson? (j : Json) : Option Remark := do
  let [severity, message] ← j.fields? ["severity", "message"] | none
  ofSeverity? (← required (severityOf? j) severity) (← required text? message)

end Remark

def Block.toJson (b : Block) : Json :=
  object [("id", count b.id), ("genus", text b.genus), ("label", text b.label),
    ("sockets", list (b.sockets.map Socket.toJson)), ("plug", option Plug.toJson b.plug),
    ("parent", countOption b.parent), ("before", countOption b.before), ("after", countOption b.after),
    ("declaring_parent", countOption b.declaringParent), ("active", bool b.active), ("bad", bool b.bad),
    ("should_report", bool b.shouldReport), ("annotation", option Remark.toJson b.remark)]

def Block.fieldNames : List String :=
  ["id", "genus", "label", "sockets", "plug", "parent", "before", "after", "declaring_parent", "active",
   "bad", "should_report", "annotation"]

def Block.ofJson? (j : Json) : Option Block := do
  let [id, genus, label, sockets, plug, parent, before, after, declaringParent, active, bad, shouldReport,
    remark] ← j.fields? fieldNames | none
  return {
    id := ← required count64? id
    genus := ← required text? genus
    label := ← required text? label
    sockets := ← withDefault [] (listOf? Socket.ofJson?) sockets
    plug := ← nullable Plug.ofJson? plug
    parent := ← nullable count64? parent
    before := ← nullable count64? before
    after := ← nullable count64? after
    declaringParent := ← nullable count64? declaringParent
    active := ← withDefault true bool? active
    bad := ← withDefault false bool? bad
    shouldReport := ← withDefault false bool? shouldReport
    remark := ← nullable Remark.ofJson? remark }

end BlockStudio
