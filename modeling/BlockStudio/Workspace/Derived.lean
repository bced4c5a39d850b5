import BlockStudio.Workspace.Basic

namespace BlockStudio.Workspace

def genusOf (component : String) : Edit Workspace String := do
  let c ← Edit.lift ((← Edit.get).components.require component)
  return c.genus

def member (lang : Language) (find : ComponentType → String → Option α) (genus name : String) :
    Except EditError α :=
  match (lang.componentType? genus).bind fun t => find t name with
  | some a => .ok a
  | none => .error (.unknownMember genus name)

def typedPlug (type : String) (b : Block) : Block := { b with plug := some { kind := .typed type } }

def setPlug (id : BlockId) (type : Option String) : Edit Workspace Unit :=
  match type with
  | some type => onBlocks (Edit.modify fun g => g.modify id (typedPlug type))
  | none => pure ()

def paramSockets (m : MethodDef) : List SocketDef := m.params.map fun p => { label := p.name, kind := .typed p.type }

def dotted (owner member : String) : String := owner ++ "." ++ member

def valueSocket (type : String) : SocketDef := { label := "to", kind := .typed type }

def handlerSocket : SocketDef := { label := "do", kind := .typed "cmd", command := true, optional := true }

def componentEvent (lang : Language) (component event : String) : Edit Workspace BlockId := do
  let type ← genusOf component
  let _ ← Edit.lift (member lang ComponentType.event? type event)
  let genus ← Edit.lift (lang.requireGenus GenusName.componentEvent)
  let id ← place genus (dotted component event) [handlerSocket]
  register component id
  return id

def componentGetter (lang : Language) (component property : String) : Edit Workspace BlockId := do
  let type ← genusOf component
  let p ← Edit.lift (member lang ComponentType.property? type property)
  let genus ← Edit.lift (lang.requireGenus GenusName.componentGetter)
  let id ← place genus (dotted component property) []
  setPlug id (some p.type)
  register component id
  return id

def componentSetter (lang : Language) (component property : String) : Edit Workspace BlockId := do
  let type ← genusOf component
  let p ← Edit.lift (member lang ComponentType.property? type property)
  let genus ← Edit.lift (lang.requireGenus GenusName.componentSetter)
  let id ← place genus (dotted component property) [valueSocket p.type]
  register component id
  return id

def componentMethod (lang : Language) (component method : String) : Edit Workspace BlockId := do
  let type ← genusOf component
  let m ← Edit.lift (member lang ComponentType.method? type method)
  let genus ← Edit.lift (lang.requireGenus
    (if m.returns.isSome then GenusName.componentMethodValue else GenusName.componentMethod))
  let id ← place genus (dotted component method) (paramSockets m)
  setPlug id m.returns
  register component id
  return id

def componentObject (lang : Language) (component : String) : Edit Workspace BlockId := do
  let _ ← genusOf component
  let genus ← Edit.lift (lang.requireGenus GenusName.component)
  let id ← place genus component []
  register component id
  return id

def componentTypeGetter (lang : Language) (type property : String) : Edit Workspace BlockId := do
  let p ← Edit.lift (member lang ComponentType.property? type property)
  let genus ← Edit.lift (lang.requireGenus GenusName.componentTypeGetter)
  let id ← place genus (dotted type property) []
  setPlug id (some p.type)
  return id

def componentTypeSetter (lang : Language) (type property : String) : Edit Workspace BlockId := do
  let p ← Edit.lift (member lang ComponentType.property? type property)
  let genus ← Edit.lift (lang.requireGenus GenusName.componentTypeSetter)
  place genus (dotted type property) [valueSocket p.type]

def componentTypeMethod (lang : Language) (type method : String) : Edit Workspace BlockId := do
  let m ← Edit.lift (member lang ComponentType.method? type method)
  let genus ← Edit.lift (lang.requireGenus GenusName.componentTypeMethod)
  let id ← place genus (dotted type method) (paramSockets m)
  setPlug id m.returns
  return id

def propertyBlocks (lang : Language) (component : String) (p : PropertyDef) : Edit Workspace (List BlockId) := do
  let getter ← componentGetter lang component p.name
  let setter ← componentSetter lang component p.name
  return [getter, setter]

def generateBlocks (lang : Language) (component : String) : Edit Workspace (List BlockId) := do
  let genus ← genusOf component
  match lang.componentType? genus with
  | none => Edit.fail (.unknownGenus genus)
  | some type =>
    let events ← type.events.mapM fun e => componentEvent lang component e.name
    let properties ← type.properties.mapM (propertyBlocks lang component)
    let methods ← type.methods.mapM fun m => componentMethod lang component m.name
    let object ← componentObject lang component
    return events ++ properties.flatten ++ methods ++ [object]

end BlockStudio.Workspace
