import BlockStudio.Language.Connector
import BlockStudio.Language.Kind
import BlockStudio.Collection.NameMap

namespace BlockStudio

structure SocketDef where
  label : String
  kind : Connector
  optional : Bool := false
  command : Bool := false
deriving Repr, DecidableEq, Inhabited

structure PrimitiveDef where
  op : String
  description : String
deriving Repr, DecidableEq, Inhabited

structure Genus where
  name : String
  kind : BlockKind
  sockets : List SocketDef := []
  plug : Option Connector := none
  command : Bool := false
  /-- Link rules, under keys such as socket-allow-0. -/
  directives : NameMap String := .empty
  primitive : Option PrimitiveDef := none
  initialLabel : String := ""
deriving Repr, DecidableEq, Inhabited

def Genus.socket? (g : Genus) (label : String) : Option SocketDef := g.sockets.find? (·.label = label)

end BlockStudio
