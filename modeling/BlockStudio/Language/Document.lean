import BlockStudio.Language.Basic
import BlockStudio.Json.Record

namespace BlockStudio

open Json

def Connector.toJson (c : Connector) : Json := text c.display

def Connector.ofJson? (j : Json) : Option Connector :=
  j.text?.bind fun s => (Connector.parse s).toOption

def BlockKind.toJson (k : BlockKind) : Json := .text k.name

def BlockKind.ofJson? (j : Json) : Option BlockKind := j.choice?.bind ofName?

def SocketDef.toJson (s : SocketDef) : Json :=
  object [("label", text s.label), ("kind", s.kind.toJson), ("optional", bool s.optional),
    ("command", bool s.command)]

def SocketDef.ofJson? (j : Json) : Option SocketDef := do
  let [label, kind, isOptional, command] ← j.fields? ["label", "kind", "optional", "command"] | none
  return {
    label := ← required text? label
    kind := ← required Connector.ofJson? kind
    optional := ← withDefault false bool? isOptional
    command := ← withDefault false bool? command }

def PrimitiveDef.toJson (p : PrimitiveDef) : Json :=
  object [("op", text p.op), ("description", text p.description)]

def PrimitiveDef.ofJson? (j : Json) : Option PrimitiveDef := do
  let [op, description] ← j.fields? ["op", "description"] | none
  return { op := ← required text? op, description := ← required text? description }

def Genus.toJson (g : Genus) : Json :=
  object [("name", text g.name), ("kind", g.kind.toJson), ("sockets", list (g.sockets.map SocketDef.toJson)),
    ("plug", option Connector.toJson g.plug), ("command", bool g.command),
    ("directives", nameMap text g.directives), ("primitive", option PrimitiveDef.toJson g.primitive),
    ("initial_label", text g.initialLabel)]

def Genus.ofJson? (j : Json) : Option Genus := do
  let [name, kind, sockets, plug, command, directives, primitive, initialLabel] ←
    j.fields? ["name", "kind", "sockets", "plug", "command", "directives", "primitive", "initial_label"] | none
  return {
    name := ← required text? name
    kind := ← required BlockKind.ofJson? kind
    sockets := ← withDefault [] (listOf? SocketDef.ofJson?) sockets
    plug := ← nullable Connector.ofJson? plug
    command := ← withDefault false bool? command
    directives := ← withDefault .empty (nameMapOf? text?) directives
    primitive := ← nullable PrimitiveDef.ofJson? primitive
    initialLabel := ← withDefault "" text? initialLabel }

def PropertyDef.toJson (p : PropertyDef) : Json :=
  object [("name", text p.name), ("type", text p.type), ("default", text p.default),
    ("description", textOption p.description)]

def PropertyDef.ofJson? (j : Json) : Option PropertyDef := do
  let [name, type, default, description] ← j.fields? ["name", "type", "default", "description"] | none
  return {
    name := ← required text? name
    type := ← required text? type
    default := ← withDefault "" text? default
    description := ← nullable text? description }

def ParamDef.toJson (p : ParamDef) : Json := object [("name", text p.name), ("type", text p.type)]

def ParamDef.ofJson? (j : Json) : Option ParamDef := do
  let [name, type] ← j.fields? ["name", "type"] | none
  return { name := ← required text? name, type := ← required text? type }

def EventDef.toJson (e : EventDef) : Json :=
  object [("name", text e.name), ("params", list (e.params.map ParamDef.toJson))]

def EventDef.ofJson? (j : Json) : Option EventDef := do
  let [name, params] ← j.fields? ["name", "params"] | none
  return {
    name := ← required text? name
    params := ← withDefault [] (listOf? ParamDef.ofJson?) params }

def MethodDef.toJson (m : MethodDef) : Json :=
  object [("name", text m.name), ("params", list (m.params.map ParamDef.toJson)),
    ("returns", textOption m.returns)]

def MethodDef.ofJson? (j : Json) : Option MethodDef := do
  let [name, params, returns] ← j.fields? ["name", "params", "returns"] | none
  return {
    name := ← required text? name
    params := ← withDefault [] (listOf? ParamDef.ofJson?) params
    returns := ← nullable text? returns }

def ComponentType.toJson (t : ComponentType) : Json :=
  object [("name", text t.name), ("properties", list (t.properties.map PropertyDef.toJson)),
    ("events", list (t.events.map EventDef.toJson)), ("methods", list (t.methods.map MethodDef.toJson))]

def ComponentType.ofJson? (j : Json) : Option ComponentType := do
  let [name, properties, events, methods] ← j.fields? ["name", "properties", "events", "methods"] | none
  return {
    name := ← required text? name
    properties := ← withDefault [] (listOf? PropertyDef.ofJson?) properties
    events := ← withDefault [] (listOf? EventDef.ofJson?) events
    methods := ← withDefault [] (listOf? MethodDef.ofJson?) methods }

namespace Language

def toJson (lang : Language) : Json :=
  object [("types", list (lang.types.map text)), ("genera", nameMap Genus.toJson lang.genera),
    ("components", nameMap ComponentType.toJson lang.components)]

def ofJson? (j : Json) : Option Language := do
  let [types, genera, components] ← j.fields? ["types", "genera", "components"] | none
  return {
    types := ← withDefault [] (listOf? text?) types
    genera := ← withDefault .empty (nameMapOf? Genus.ofJson?) genera
    components := ← withDefault .empty (nameMapOf? ComponentType.ofJson?) components }

def ofText? (s : String) : Option Language := (parse? s).bind ofJson?

end Language

end BlockStudio
