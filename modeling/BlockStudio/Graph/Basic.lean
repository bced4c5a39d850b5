import BlockStudio.Block.Basic
import BlockStudio.Collection.SortedMap
import BlockStudio.Edit

namespace BlockStudio

structure BlockGraph where
  blocks : SortedMap BlockId Block := .empty
  /-- The largest id given so far. -/
  nextId : Nat := 0
deriving Repr, DecidableEq, Inhabited

namespace BlockGraph

def empty : BlockGraph := {}

def size (g : BlockGraph) : Nat := g.blocks.size

def isEmpty (g : BlockGraph) : Bool := g.size == 0

def get? (g : BlockGraph) (id : BlockId) : Option Block := g.blocks.get? id

def contains (g : BlockGraph) (id : BlockId) : Bool := g.blocks.contains id

def list (g : BlockGraph) : List Block := g.blocks.values

def ids (g : BlockGraph) : List BlockId := g.list.map (·.id)

def require (g : BlockGraph) (id : BlockId) : Except EditError Block :=
  match g.get? id with
  | some b => .ok b
  | none => .error (.unknownBlock id)

def modify (g : BlockGraph) (id : BlockId) (f : Block → Block) : BlockGraph :=
  { g with blocks := g.blocks.modify id f }

def erase (g : BlockGraph) (id : BlockId) : BlockGraph := { g with blocks := g.blocks.erase id }

def insert (g : BlockGraph) (b : Block) : BlockGraph where
  blocks := g.blocks.insert b.id b
  nextId := max g.nextId b.id

def addBlock (g : BlockGraph) (genus : Genus) (label : String) (extra : List SocketDef) :
    BlockGraph × BlockId :=
  let id := g.nextId + 1
  let b : Block :=
    { id
      genus := genus.name
      label := if label = "" then genus.initialLabel else label
      sockets := (genus.sockets ++ extra).map Socket.ofDef
      plug := genus.plug.map fun kind => { kind } }
  ({ blocks := g.blocks.insert id b, nextId := id }, id)

def createStub (declaring : BlockId) (genus : Genus) (sockets : List SocketDef) : Edit BlockGraph BlockId := do
  let origin ← Edit.lift ((← Edit.get).require declaring)
  let id ← Edit.change fun g => g.addBlock genus origin.label sockets
  Edit.modify fun g => g.modify id fun b => { b with declaringParent := some declaring }
  return id

def stubsOf (g : BlockGraph) (declaring : BlockId) : List BlockId :=
  (g.list.filter (·.declaringParent = some declaring)).map (·.id)

def change (id : BlockId) (f : Block → Block) : Edit BlockGraph Unit := do
  let _ ← Edit.lift ((← Edit.get).require id)
  Edit.modify fun g => g.modify id f

def relabel (id : BlockId) (label : String) : Edit BlockGraph Unit := change id fun b => { b with label }

def setActive (id : BlockId) (on : Bool) : Edit BlockGraph Unit := change id fun b => { b with active := on }

def setBad (id : BlockId) (on : Bool) : Edit BlockGraph Unit := change id fun b => { b with bad := on }

def setShouldReport (id : BlockId) (on : Bool) : Edit BlockGraph Unit :=
  change id fun b => { b with shouldReport := on }

def annotate (g : BlockGraph) (id : BlockId) (remark : Option Remark) : BlockGraph :=
  g.modify id fun b => { b with remark }

theorem get?_modify (g : BlockGraph) (id id' : BlockId) (f : Block → Block) :
    (g.modify id f).get? id' = if id' = id then (g.get? id').map f else g.get? id' := by
  by_cases h : id' = id
  · subst h
    simpa [modify, get?] using SortedMap.get?_modify g.blocks id' id' f
  · simpa [modify, get?, h] using SortedMap.get?_modify g.blocks id id' f

theorem get?_erase (g : BlockGraph) (id id' : BlockId) :
    (g.erase id).get? id' = if id' = id then none else g.get? id' := SortedMap.get?_erase _ _ _

theorem get?_insert (g : BlockGraph) (b : Block) (id : BlockId) :
    (g.insert b).get? id = if id = b.id then some b else g.get? id := SortedMap.get?_insert _ _ _ _

end BlockGraph

end BlockStudio
