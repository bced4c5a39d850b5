import BlockStudio.Text.Split
import BlockStudio.Yail.Quoted

namespace BlockStudio

inductive Form where
  | word (s : String)
  | str (s : String)
  | quoted (f : Form)
  | list (items : List Form)
deriving Repr, Inhabited, BEq

namespace Form

mutual

def render : Form → String
  | word s => s
  | str s => Yail.quote s
  | quoted f => "'" ++ render f
  | list items => "(" ++ Text.spaced (renderAll items) ++ ")"

def renderAll : List Form → List String
  | [] => []
  | f :: rest => render f :: renderAll rest

end

/-- No code at all: what stands for a part that could not be generated. -/
def blank : Form := word ""

def isBlank : Form → Bool
  | word s => s = ""
  | _ => false

def symbol (name : String) : Form := quoted (word name)

def call (op : String) (args : List Form) : Form := list (word op :: args)

end Form

end BlockStudio
