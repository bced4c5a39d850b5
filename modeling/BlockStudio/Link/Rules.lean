import BlockStudio.Link.Coercion
import BlockStudio.Link.Directive
import BlockStudio.Component.Tree
import BlockStudio.Block.Basic

namespace BlockStudio

/-- Tables of a language. An entry nearer the front of a list hides later ones under its key. -/
structure LinkRules where
  knownTypes : SortedSet String
  kinds : List (String × BlockKind)
  genera : List (String × GenusRules)
  propertyTypes : List ((String × String) × String)
  methodParams : List ((String × String) × List String)
  methodReturns : List ((String × String) × String)
  coercions : CoercionTable := .standard
deriving Repr, Inhabited

namespace LinkRules

def genusRules (genera : List Genus) : Except DirectiveError (List (String × GenusRules)) := do
  let rules ← genera.mapM fun g => do
    let ds ← Directive.readAll g
    return (g.name, GenusRules.ofDirectives ds)
  return rules.reverse

def propertyTable (t : ComponentType) : List ((String × String) × String) :=
  t.properties.map fun p => ((t.name, p.name), p.type)

def paramTable (t : ComponentType) : List ((String × String) × List String) :=
  t.methods.map fun m => ((t.name, m.name), m.params.map (·.type))

def returnTable (t : ComponentType) : List ((String × String) × String) :=
  t.methods.filterMap fun m => m.returns.map fun r => ((t.name, m.name), r)

def ofLanguage (lang : Language) : Except DirectiveError LinkRules := do
  let genera ← genusRules lang.genera.values
  let types := lang.components.values
  return {
    knownTypes := SortedSet.ofList lang.types
    kinds := (lang.genera.values.map fun g => (g.name, g.kind)).reverse
    genera
    propertyTypes := (types.flatMap propertyTable).reverse
    methodParams := (types.flatMap paramTable).reverse
    methodReturns := (types.flatMap returnTable).reverse }

def withCoercions (r : LinkRules) (t : CoercionTable) : LinkRules := { r with coercions := t }

def kindOf? (r : LinkRules) (genus : String) : Option BlockKind := r.kinds.lookup genus

def registerPropertyType (r : LinkRules) (genus property type : String) : LinkRules :=
  { r with propertyTypes := ((genus, property), type) :: r.propertyTypes }

def propertyType (r : LinkRules) (genus property : String) : String :=
  (r.propertyTypes.lookup (genus, property)).getD "text"

def memberOf? (r : LinkRules) (t : ComponentTree) (b : Block) : Option (String × String) := do
  let kind ← r.kindOf? b.genus
  let (owner, member) ← b.member?
  if kind.isMember then
    let c ← t.get? owner
    return (c.genus, member)
  else if kind.isTypeMember then
    return (owner, member)
  else none

def componentSocket : String := "component"

def setterSocket : String := "to"

def propertySet (r : LinkRules) (t : ComponentTree) (b : Block) : Option (SortedSet String) :=
  (r.memberOf? t b).map fun m => SortedSet.ofList [r.propertyType m.1 m.2, valueType]

def paramSet (r : LinkRules) (t : ComponentTree) (b : Block) (socket : String) : Option (SortedSet String) := do
  let m ← r.memberOf? t b
  let params ← r.methodParams.lookup m
  let position ← (b.sockets.filter (·.label ≠ componentSocket)).findIdx? (·.label = socket)
  let type ← params[position]?
  return SortedSet.ofList [type]

def declaredSet (r : LinkRules) (genus socket : String) : Option (SortedSet String) := do
  let rules ← r.genera.lookup genus
  let rule ← rules.sockets.get? socket
  return rule.types r.knownTypes

def socketTypes (r : LinkRules) (t : ComponentTree) (b : Block) (socket : String) : Option (SortedSet String) :=
  match r.kindOf? b.genus with
  | none => none
  | some kind =>
    if (kind = .componentSetter || kind = .componentTypeSetter) && socket = setterSocket then
      r.propertySet t b
    else if kind.isTypeMember && socket = componentSocket then
      some (SortedSet.ofList [componentSocket, valueType])
    else if kind = .componentMethod || kind = .componentTypeMethod then
      r.paramSet t b socket
    else r.declaredSet b.genus socket

def takenType (b : Block) : Option String := (b.plug.filter (·.kind.isPoly)).bind (·.resolved)

def plugTypes (r : LinkRules) (t : ComponentTree) (b : Block) : Option (SortedSet String) :=
  match r.kindOf? b.genus with
  | none => none
  | some kind =>
    if kind = .componentGetter || kind = .componentTypeGetter then r.propertySet t b
    else if kind = .componentMethod || kind = .componentTypeMethod then
      ((r.memberOf? t b).bind fun m => r.methodReturns.lookup m).map fun type => SortedSet.ofList [type]
    else
      let declared := ((r.genera.lookup b.genus).bind (·.plug)).map (·.types r.knownTypes)
      match declared, takenType b with
      | some set, some type => some (set.insert type)
      | some set, none => some set
      | none, some type => some (SortedSet.ofList [type])
      | none, none => none

end LinkRules

end BlockStudio
