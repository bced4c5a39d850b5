import BlockStudio.Yail.Literal

namespace BlockStudio.Yail

def words (names : List String) : List Form := names.map .word

def typeList (types : List String) : Form := .quoted (.list (words types))

def noCoercion : Form := .symbol "*no-coercion*"

def runtimeList (args : List Form) : Form := .call "*list-for-runtime*" args

def present (forms : List Form) : List Form := forms.filter fun f => !f.isBlank

def begin (forms : List Form) : Form := .call "begin" (present forms)

def defineGlobal (name : String) (value : Form) : Form := .call "def" [.word name, value]

def defineProcedure (name : String) (params : List String) (body : Form) : Form :=
  .call "def" [.list (words (name :: params)), body]

def setThisForm : Form := .call "set-this-form" []

def defineEvent (component event : String) (params : List String) (body : List Form) : Form :=
  .call "define-event" (.word component :: .word event :: .list (words params) :: setThisForm :: present body)

def setProperty (component property : String) (value : Form) (type : String) : Form :=
  .call "set-and-coerce-property!" [.symbol component, .symbol property, value, .symbol type]

def getProperty (component property : String) : Form :=
  .call "get-property" [.symbol component, .symbol property]

def report (id : Nat) (code : Form) : Form := .call "report-block-value" [.str (Text.natText id), code]

def renameComponent (old new : String) : Form := .call "rename-component" [.str old, .str new]

def removeComponent (name : String) : Form := .call "remove-component" [.str name]

end BlockStudio.Yail
