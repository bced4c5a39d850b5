import BlockStudio.Link.Directive

namespace BlockStudio

inductive BuildError where
  | io
  | json (file : String)
  | edit (e : EditError)
  | ruleTable (e : DirectiveError)
  | fileNotFound (path : String)
  | noRootForm
deriving Repr, DecidableEq

def DirectiveError.message (e : DirectiveError) : String :=
  "Malformed link rule '" ++ e.key ++ "' on genus '" ++ e.genus ++ "': expected '<socket>:<type>'"

/-- What the operating system or the JSON reader adds is left out. -/
def BuildError.message : BuildError → String
  | io => "I/O error"
  | json file => "Malformed JSON in " ++ file
  | edit e => "Block model error: " ++ e.message
  | ruleTable e => e.message
  | fileNotFound path => "File not found: " ++ path
  | noRootForm => "Project has no root form"

end BlockStudio
