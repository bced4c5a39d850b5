import BlockStudio.Component.Tree
import BlockStudio.Json.Record

namespace BlockStudio

open Json

def Component.toJson (c : Component) : Json :=
  object [("name", text c.name), ("genus", text c.genus), ("parent", textOption c.parent),
    ("children", list (c.children.map text)), ("properties", nameMap text c.properties),
    ("blocks", countSet c.blocks)]

def Component.ofJson? (j : Json) : Option Component := do
  let [name, genus, parent, children, properties, blocks] ←
    j.fields? ["name", "genus", "parent", "children", "properties", "blocks"] | none
  return {
    name := ← required text? name
    genus := ← required text? genus
    parent := ← nullable text? parent
    children := ← withDefault [] (listOf? text?) children
    properties := ← withDefault .empty (nameMapOf? text?) properties
    blocks := ← withDefault .empty countSetOf? blocks }

def ComponentTree.toJson (t : ComponentTree) : Json :=
  object [("root", textOption t.root), ("components", nameMap Component.toJson t.components)]

def ComponentTree.ofJson? (j : Json) : Option ComponentTree := do
  let [root, components] ← j.fields? ["root", "components"] | none
  return {
    root := ← nullable text? root
    components := ← withDefault .empty (nameMapOf? Component.ofJson?) components }

end BlockStudio
