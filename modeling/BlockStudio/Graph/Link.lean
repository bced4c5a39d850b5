import BlockStudio.Graph.Adapt
import BlockStudio.Graph.Chain

namespace BlockStudio.BlockGraph

def requireFree (g : BlockGraph) (id : BlockId) : Except EditError Unit := do
  let b ← g.require id
  if b.parent.isSome || b.before.isSome then .error (.alreadyConnected id)

def requireOpenSocket (g : BlockGraph) (parent : BlockId) (socket : String) : Except EditError Unit := do
  let b ← g.require parent
  match b.socket? socket with
  | none => .error (.unknownSocket parent socket)
  | some s => if s.block.isSome then .error (.socketOccupied parent socket)

def connect (parent : BlockId) (socket : String) (child : BlockId) : Edit BlockGraph Unit := do
  let g ← Edit.get
  Edit.lift (g.requireFree child)
  if g.encloses child parent then Edit.fail (.cycle parent child)
  Edit.lift (g.requireOpenSocket parent socket)
  Edit.modify fun g => g.modify parent fun b => { b with sockets := Socket.fill socket child b.sockets }
  Edit.modify fun g => g.modify child fun b => { b with parent := some parent }
  Edit.modify fun g => g.adapt parent

def setNext (prev next : BlockId) : Edit BlockGraph Unit := do
  let g ← Edit.get
  Edit.lift (g.requireFree next)
  let above ← Edit.lift (g.require prev)
  if g.encloses next prev then Edit.fail (.cycle prev next)
  let tail := (g.stack next).getLast?.getD next
  change prev fun b => { b with after := some next }
  change next fun b => { b with before := some prev }
  match above.after with
  | none => pure ()
  | some old =>
    change tail fun b => { b with after := some old }
    change old fun b => { b with before := some tail }

def disconnect (child : BlockId) : Edit BlockGraph Unit := do
  let b ← Edit.lift ((← Edit.get).require child)
  match b.parent, b.before with
  | some parent, _ =>
    Edit.modify fun g => g.modify parent fun p => { p with sockets := Socket.replace child none p.sockets }
    Edit.modify fun g => g.modify child fun b => { b with parent := none }
    Edit.modify fun g => g.adapt parent
  | none, some above =>
    Edit.modify fun g => g.modify above fun a => { a with after := none }
    Edit.modify fun g => g.modify child fun b => { b with before := none }
  | none, none => pure ()

end BlockStudio.BlockGraph
