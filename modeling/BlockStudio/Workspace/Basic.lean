import BlockStudio.Graph.Link
import BlockStudio.Graph.Remove
import BlockStudio.Component.Tree
import BlockStudio.Language.Basic

namespace BlockStudio

structure Workspace where
  blocks : BlockGraph := {}
  components : ComponentTree := {}
deriving Repr, DecidableEq, Inhabited

namespace Workspace

def formType : String := "Form"

def new (form : String) : Workspace where
  components := .withRoot form formType

def onBlocks (x : Edit BlockGraph α) : Edit Workspace α :=
  x.within (·.blocks) fun w g => { w with blocks := g }

def onComponents (x : Edit ComponentTree α) : Edit Workspace α :=
  x.within (·.components) fun w t => { w with components := t }

def place (genus : Genus) (label : String) (extra : List SocketDef) : Edit Workspace BlockId :=
  onBlocks (Edit.change fun g => g.addBlock genus label extra)

def addBlock (lang : Language) (genus label : String) : Edit Workspace BlockId := do
  let g ← Edit.lift (lang.requireGenus genus)
  place g label []

def addComponent (name genus parent : String) : Edit Workspace Unit :=
  onComponents (ComponentTree.add name genus parent)

def register (component : String) (id : BlockId) : Edit Workspace Unit :=
  onComponents (Edit.modify fun t => t.modify component fun c => { c with blocks := c.blocks.insert id })

end Workspace

end BlockStudio
