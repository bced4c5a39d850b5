import BlockStudio.Language.Genus

namespace BlockStudio

structure GenusBuilder where
  genus : Genus
  socketRules : Nat := 0
  plugRules : Nat := 0

namespace GenusBuilder

def new (name : String) (kind : BlockKind) : GenusBuilder where
  genus := { name, kind }

def build (b : GenusBuilder) : Genus := b.genus

def label (b : GenusBuilder) (s : String) : GenusBuilder :=
  { b with genus := { b.genus with initialLabel := s } }

def command (b : GenusBuilder) : GenusBuilder := { b with genus := { b.genus with command := true } }

def primitive (b : GenusBuilder) (op description : String) : GenusBuilder :=
  { b with genus := { b.genus with primitive := some { op, description } } }

def direct (b : GenusBuilder) (rule : String) (index : Nat) (value : String) : GenusBuilder :=
  { b with genus := { b.genus with
      directives := b.genus.directives.put (rule ++ "-" ++ Text.natText index) value } }

def plugType (b : GenusBuilder) (type : String) : GenusBuilder :=
  { b.direct "plug-type" b.plugRules type with plugRules := b.plugRules + 1 }

def plugExclude (b : GenusBuilder) (type : String) : GenusBuilder :=
  { b.direct "type-exclude" b.plugRules type with plugRules := b.plugRules + 1 }

def socketAllow (b : GenusBuilder) (label type : String) : GenusBuilder :=
  { b.direct "socket-allow" b.socketRules (label ++ ":" ++ type) with socketRules := b.socketRules + 1 }

def socketExclude (b : GenusBuilder) (label type : String) : GenusBuilder :=
  { b.direct "socket-exclude" b.socketRules (label ++ ":" ++ type) with socketRules := b.socketRules + 1 }

def withPlug (b : GenusBuilder) (kind : Connector) : GenusBuilder :=
  { b with genus := { b.genus with plug := some kind } }

def plug (b : GenusBuilder) (type : String) : GenusBuilder := (b.withPlug (.typed type)).plugType type

def plugList (b : GenusBuilder) (element : String) : GenusBuilder :=
  (b.withPlug (.listOf element)).plugType "list"

def polyPlug (b : GenusBuilder) : GenusBuilder := b.withPlug .poly

def untypedPlug (b : GenusBuilder) : GenusBuilder := b.withPlug (.typed valueType)

def withSocket (b : GenusBuilder) (s : SocketDef) : GenusBuilder :=
  { b with genus := { b.genus with sockets := b.genus.sockets ++ [s] } }

def socket (b : GenusBuilder) (label type : String) : GenusBuilder :=
  (b.withSocket { label, kind := .typed type }).socketAllow label type

def polySocket (b : GenusBuilder) (label : String) : GenusBuilder := b.withSocket { label, kind := .poly }

def untypedSocket (b : GenusBuilder) (label : String) : GenusBuilder :=
  b.withSocket { label, kind := .typed valueType }

def commandSocket (b : GenusBuilder) (label : String) : GenusBuilder :=
  b.withSocket { label, kind := .typed "cmd", command := true }

def optionalCommandSocket (b : GenusBuilder) (label : String) : GenusBuilder :=
  b.withSocket { label, kind := .typed "cmd", command := true, optional := true }

end GenusBuilder

end BlockStudio
