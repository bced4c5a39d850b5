import BlockStudio.Workspace.Basic

namespace BlockStudio.Workspace

def argPrefixChars : List Char := ['a', 'r', 'g']

def argLabel (i : Nat) : String := "arg" ++ Text.natText i

def isArgLabel (label : String) : Bool := (Text.dropLead? argPrefixChars label.toList).isSome

def addParams (argument : Genus) (definition : BlockId) : Nat → List String → Edit Workspace Unit
  | _, [] => pure ()
  | i, param :: rest => do
    let arg ← place argument param []
    onBlocks (BlockGraph.connect definition (argLabel i) arg)
    addParams argument definition (i + 1) rest

def argSockets (n : Nat) : List SocketDef :=
  (List.range n).map fun i => { label := argLabel i, kind := .typed "argument" }

def addProcedure (lang : Language) (name : String) (params : List String) (withResult : Bool) :
    Edit Workspace BlockId := do
  let genus ← Edit.lift (lang.requireGenus
    (if withResult then GenusName.procedureWithResult else GenusName.procedure))
  let definition ← place genus name (argSockets params.length)
  let argument ← Edit.lift (lang.requireGenus GenusName.argument)
  addParams argument definition 0 params
  return definition

def procedureParams (w : Workspace) (definition : BlockId) : List String :=
  match w.blocks.get? definition with
  | some b =>
    (((b.sockets.filter fun s => isArgLabel s.label).filterMap (·.block)).filterMap w.blocks.get?).map (·.label)
  | none => []

def addProcedureCall (lang : Language) (definition : BlockId) : Edit Workspace BlockId := do
  let w ← Edit.get
  let b ← Edit.lift (w.blocks.require definition)
  let genus ← Edit.lift (lang.requireGenus b.genus)
  let caller ← Edit.lift (lang.requireGenus
    (if genus.kind = .procedureWithResult then GenusName.caller else GenusName.callerCommand))
  let sockets := (w.procedureParams definition).map fun p => { label := p, kind := .typed valueType }
  onBlocks (BlockGraph.createStub definition caller sockets)

end BlockStudio.Workspace
