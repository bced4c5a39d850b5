import BlockStudio.Language.Genus

namespace BlockStudio

structure Socket where
  label : String
  kind : Connector
  optional : Bool := false
  command : Bool := false
  /-- The type that a polymorphic socket took. -/
  resolved : Option String := none
  block : Option BlockId := none
deriving Repr, DecidableEq, Inhabited

namespace Socket

def ofDef (d : SocketDef) : Socket where
  label := d.label
  kind := d.kind
  optional := d.optional
  command := d.command

def effectiveType (s : Socket) : Option String :=
  match s.kind with
  | .poly => s.resolved
  | kind => kind.carried?

def replace (old : BlockId) (next : Option BlockId) (sockets : List Socket) : List Socket :=
  sockets.map fun s => if s.block = some old then { s with block := next } else s

def fill (label : String) (child : BlockId) : List Socket → List Socket
  | [] => []
  | s :: rest => if s.label = label then { s with block := some child } :: rest else s :: fill label child rest

end Socket

structure Plug where
  kind : Connector
  resolved : Option String := none
deriving Repr, DecidableEq, Inhabited

def Plug.effectiveType (p : Plug) : Option String :=
  match p.kind with
  | .poly => p.resolved
  | kind => kind.carried?

inductive Remark where
  | warning (message : String)
  | error (message : String)
  | result (value : String)
deriving Repr, DecidableEq, Inhabited

namespace Remark

def message : Remark → String
  | warning m => m
  | error m => m
  | result m => m

def isError : Remark → Bool
  | error _ => true
  | _ => false

end Remark

structure Block where
  id : BlockId
  genus : String
  label : String
  sockets : List Socket := []
  plug : Option Plug := none
  /-- The block whose socket holds this block at the head of its stack. -/
  parent : Option BlockId := none
  before : Option BlockId := none
  after : Option BlockId := none
  declaringParent : Option BlockId := none
  active : Bool := true
  bad : Bool := false
  shouldReport : Bool := false
  remark : Option Remark := none
deriving Repr, DecidableEq, Inhabited

namespace Block

def socket? (b : Block) (label : String) : Option Socket := b.sockets.find? (·.label = label)

def child? (b : Block) (label : String) : Option BlockId := (b.socket? label).bind (·.block)

def children (b : Block) : List BlockId := b.sockets.filterMap (·.block)

def up (b : Block) : Option BlockId := b.before.or b.parent

def member? (b : Block) : Option (String × String) := Text.cut "." b.label

def plugType (b : Block) : Option String := b.plug.bind Plug.effectiveType

end Block

end BlockStudio
