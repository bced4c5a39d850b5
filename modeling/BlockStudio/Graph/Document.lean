import BlockStudio.Graph.Basic
import BlockStudio.Block.Document

namespace BlockStudio.BlockGraph

open Json

def toJson (g : BlockGraph) : Json :=
  object [("next_id", count g.nextId), ("blocks", Json.list (g.list.map Block.toJson))]

def ofBlocks (nextId : Nat) (blocks : List Block) : BlockGraph :=
  blocks.foldl insert { nextId }

def ofJson? (j : Json) : Option BlockGraph := do
  let [nextId, blocks] ← j.fields? ["next_id", "blocks"] | none
  return ofBlocks (← withDefault 0 count64? nextId) (← withDefault [] (listOf? Block.ofJson?) blocks)

end BlockStudio.BlockGraph
