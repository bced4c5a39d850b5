import BlockStudio.Compile.Assembly
import BlockStudio.Language.Standard
import BlockStudio.Language.Document
import BlockStudio.Workspace.Document
import BlockStudio.Project.Folder

namespace BlockStudio

structure BuildOptions where
  input : String
  output : Option String := none
  live : Bool := false
  package : Option String := none
  language : Option String := none
  verbose : Bool := false
deriving Repr, DecidableEq, Inhabited

structure BuildOutput where
  formName : String
  program : String
  diagnostics : List Diagnostic
deriving Repr

def BuildOutput.hasErrors (o : BuildOutput) : Bool := o.diagnostics.any (·.isError)

namespace BuildOptions

def load (read : String → Option α) (path : String) : Source → Except BuildError α
  | .missing => .error (.fileNotFound path)
  | .unreadable => .error .io
  | .text s =>
    match read s with
    | some a => .ok a
    | none => .error (.json path)

def stemPackage (path : String) : String :=
  String.ofList (((Path.fileStem? path).getD "").toList.map fun c => if Text.isAsciiAlphanumeric c then c else '_')

def defaultPackage (input : String) : String :=
  if stemPackage input = "" then Assembly.defaultPackage else Assembly.defaultPackage ++ "." ++ stemPackage input

def loadLanguage (o : BuildOptions) (source : String → Source) : Except BuildError Language :=
  match o.language with
  | some path => load Language.ofText? path (source path)
  | none => .ok .standard

def build (o : BuildOptions) (source : String → Source) : Except BuildError BuildOutput := do
  let lang ← o.loadLanguage source
  let workspace ← load Workspace.ofText? o.input (source o.input)
  let rules ← (LinkRules.ofLanguage lang).mapError .ruleTable
  let (code, diagnostics) := Compilation.program { lang, rules, workspace, live := o.live }
  let package := o.package.getD (defaultPackage o.input)
  let program ← Assembly.program rules package workspace.components code o.live
  return { formName := workspace.components.root.getD "", program, diagnostics }

def buildIn (o : BuildOptions) (f : Folder) : Except BuildError BuildOutput × Folder :=
  match o.build f.read with
  | .error e => (.error e, f)
  | .ok out =>
    match o.output with
    | none => (.ok out, f)
    | some path =>
      match f.write path out.program with
      | some f => (.ok out, f)
      | none => (.error .io, f)

end BuildOptions

end BlockStudio
