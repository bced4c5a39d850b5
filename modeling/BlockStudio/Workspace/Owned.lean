import BlockStudio.Workspace.Basic

namespace BlockStudio.Workspace

def renamedLabel? (old new label : String) : Option String :=
  if label = old then some new
  else (Text.stripLead? (old ++ ".") label).map fun member => new ++ "." ++ member

def relabelOwned (old new : String) : List BlockId → Edit Workspace (List BlockId)
  | [] => pure []
  | id :: rest => do
    match ((← Edit.get).blocks.get? id).bind fun b => renamedLabel? old new b.label with
    | some label =>
      onBlocks (BlockGraph.relabel id label)
      return id :: (← relabelOwned old new rest)
    | none => relabelOwned old new rest

def ownedBlocks (w : Workspace) (component : String) : List BlockId :=
  match w.components.get? component with
  | some c => c.blocks.toList
  | none => []

def renameComponent (old new : String) : Edit Workspace (List BlockId) := do
  onComponents (ComponentTree.rename old new)
  relabelOwned old new ((← Edit.get).ownedBlocks new)

def removeBlocks : List BlockId → Edit Workspace (List BlockId)
  | [] => pure []
  | id :: rest => do
    if (← Edit.get).blocks.contains id then
      let removed ← onBlocks (BlockGraph.removeBlock id)
      return removed ++ (← removeBlocks rest)
    else removeBlocks rest

def removeComponent (name : String) : Edit Workspace (List BlockId) := do
  let removed ← onComponents (ComponentTree.remove name)
  removeBlocks (removed.flatMap fun c => c.blocks.toList)

end BlockStudio.Workspace
