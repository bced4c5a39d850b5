import BlockStudio.Edit
import BlockStudio.Collection.NameMap
import BlockStudio.Collection.SortedSet

namespace BlockStudio

structure Component where
  name : String
  genus : String
  parent : Option String := none
  children : List String := []
  properties : NameMap String := .empty
  blocks : SortedSet BlockId := .empty
deriving Repr, DecidableEq, Inhabited

structure ComponentTree where
  root : Option String := none
  components : NameMap Component := .empty
deriving Repr, DecidableEq, Inhabited

namespace ComponentTree

def withRoot (name genus : String) : ComponentTree where
  root := some name
  components := NameMap.empty.put name { name, genus }

def size (t : ComponentTree) : Nat := t.components.size

def get? (t : ComponentTree) (name : String) : Option Component := t.components.get? name

def contains (t : ComponentTree) (name : String) : Bool := t.components.contains name

def list (t : ComponentTree) : List Component := t.components.values

def root? (t : ComponentTree) : Option Component := t.root.bind t.get?

def require (t : ComponentTree) (name : String) : Except EditError Component :=
  match t.get? name with
  | some c => .ok c
  | none => .error (.unknownComponent name)

def modify (t : ComponentTree) (name : String) (f : Component → Component) : ComponentTree :=
  { t with components := t.components.modify name f }

def put (t : ComponentTree) (c : Component) : ComponentTree :=
  { t with components := t.components.put c.name c }

def add (name genus parent : String) : Edit ComponentTree Unit := do
  let t ← Edit.get
  if t.contains name then Edit.fail (.duplicateComponent name)
  let _ ← Edit.lift (t.require parent)
  Edit.modify fun t => t.modify parent fun p => { p with children := p.children ++ [name] }
  Edit.modify fun t => t.put { name, genus, parent := some parent }

def setProperty (name property value : String) : Edit ComponentTree Unit := do
  let _ ← Edit.lift ((← Edit.get).require name)
  Edit.modify fun t => t.modify name fun c => { c with properties := c.properties.put property value }

def childrenOf (t : ComponentTree) (name : String) : List Component :=
  match t.get? name with
  | some c => c.children.filterMap t.get?
  | none => []

def walkFrom (t : ComponentTree) : Nat → Component → List Component
  | 0, _ => []
  | n + 1, c => c :: (t.childrenOf c.name).flatMap (walkFrom t n)

def walk (t : ComponentTree) : List Component :=
  match t.root? with
  | some c => t.walkFrom t.size c
  | none => []

def subtreeFrom (t : ComponentTree) : Nat → String → List String
  | 0, _ => []
  | n + 1, name =>
    match t.get? name with
    | some c => c.children.flatMap (subtreeFrom t n) ++ [name]
    | none => []

def subtree (t : ComponentTree) (name : String) : List String := t.subtreeFrom t.size name

def dropChild (t : ComponentTree) (name : String) (parent : Option String) : ComponentTree :=
  match parent with
  | some parent => t.modify parent fun p => { p with children := p.children.filter (· ≠ name) }
  | none => t

def takeAll (t : ComponentTree) : List String → ComponentTree × List Component
  | [] => (t, [])
  | name :: rest =>
    match t.get? name with
    | some c =>
      let (t, cs) := takeAll { t with components := t.components.erase name } rest
      (t, c :: cs)
    | none => takeAll t rest

def remove (name : String) : Edit ComponentTree (List Component) := do
  let c ← Edit.lift ((← Edit.get).require name)
  Edit.change fun t =>
    let order := t.subtree name
    let t := t.dropChild name c.parent
    let t := if t.root = some name then { t with root := none } else t
    t.takeAll order

def renameLinks (t : ComponentTree) (c : Component) (old new : String) : ComponentTree :=
  let t := (c.children.filter (· ≠ old)).foldl
    (fun t child => t.modify child fun d => { d with parent := some new }) t
  match c.parent with
  | some parent =>
    if parent = old then t
    else t.modify parent fun p => { p with children := p.children.map fun d => if d = old then new else d }
  | none => t

def rename (old new : String) : Edit ComponentTree Unit := do
  let t ← Edit.get
  if old = new then
    let _ ← Edit.lift (t.require old)
  else
    if t.contains new then Edit.fail (.duplicateComponent new)
    let c ← Edit.lift (t.require old)
    Edit.modify fun t => t.renameLinks c old new
    Edit.modify fun t => if t.root = some old then { t with root := some new } else t
    Edit.modify fun t => t.modify old fun c => { c with name := new }
    Edit.modify fun t => { t with components := t.components.rename old new }

def ownerOf? (t : ComponentTree) (block : BlockId) : Option Component := t.list.find? fun c => block ∈ c.blocks

end ComponentTree

end BlockStudio
