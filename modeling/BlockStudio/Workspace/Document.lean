import BlockStudio.Workspace.Basic
import BlockStudio.Graph.Document
import BlockStudio.Component.Document

namespace BlockStudio.Workspace

open Json

def toJson (w : Workspace) : Json :=
  object [("blocks", w.blocks.toJson), ("components", w.components.toJson)]

def ofJson? (j : Json) : Option Workspace := do
  let [blocks, components] ← j.fields? ["blocks", "components"] | none
  return {
    blocks := ← withDefault {} BlockGraph.ofJson? blocks
    components := ← withDefault {} ComponentTree.ofJson? components }

def snapshot (w : Workspace) : String := w.toJson.print

def ofText? (s : String) : Option Workspace := (parse? s).bind ofJson?

end BlockStudio.Workspace
