import BlockStudio.Project.Build

namespace BlockStudio

inductive Command where
  | build (o : BuildOptions)
  | help
  | version
  | usageError
deriving Repr, DecidableEq

structure CommandResult where
  exit : Nat
  stdout : String := ""
  stderr : String := ""
deriving Repr, DecidableEq

namespace Command

def helpText : String :=
  "Compile a blocks project into a YAIL program\n\nUsage: yailc [OPTIONS] <FILE>\n\nArguments:\n  <FILE>  Project file (workspace JSON)\n\nOptions:\n      --repl             Assemble for a live REPL session\n  -o, --output <FILE>    Write the program here instead of stdout\n      --package <NAME>   Package prefix for the form\n      --language <FILE>  Language definition JSON (defaults to the built-in language)\n  -v, --verbose          Enable verbose output\n  -h, --help             Print help\n  -V, --version          Print version\n"

def versionText : String := "yailc 0.1.0\n"

structure Partly where
  input : Option String := none
  output : Option String := none
  live : Bool := false
  package : Option String := none
  language : Option String := none
  verbose : Bool := false

namespace Partly

def once (old : Option String) (mayBeEmpty : Bool) (value : String) : Option String :=
  if old.isSome || (value = "" && !mayBeEmpty) then none else some value

def setInput (p : Partly) (value : String) : Option Partly :=
  (once p.input false value).map fun v => { p with input := some v }

def setOutput (p : Partly) (value : String) : Option Partly :=
  (once p.output false value).map fun v => { p with output := some v }

def setPackage (p : Partly) (value : String) : Option Partly :=
  (once p.package true value).map fun v => { p with package := some v }

def setLanguage (p : Partly) (value : String) : Option Partly :=
  (once p.language false value).map fun v => { p with language := some v }

def setLive (p : Partly) : Option Partly := if p.live then none else some { p with live := true }

def setVerbose (p : Partly) : Option Partly := if p.verbose then none else some { p with verbose := true }

def finish (p : Partly) : Command :=
  match p.input with
  | some input => .build { p with input }
  | none => .usageError

end Partly

inductive Outcome where
  | go (p : Partly)
  | want (set : String → Option Partly)
  | stop (c : Command)

def Outcome.ofOption : Option Partly → Outcome
  | some p => .go p
  | none => .stop .usageError

def long (p : Partly) (name : String) (value : Option String) : Outcome :=
  let withValue (set : String → Option Partly) : Outcome :=
    match value with
    | some v => .ofOption (set v)
    | none => .want set
  let flag (next : Outcome) : Outcome := if value.isSome then .stop .usageError else next
  if name = "repl" then flag (.ofOption p.setLive)
  else if name = "verbose" then flag (.ofOption p.setVerbose)
  else if name = "help" then flag (.stop .help)
  else if name = "version" then flag (.stop .version)
  else if name = "output" then withValue p.setOutput
  else if name = "package" then withValue p.setPackage
  else if name = "language" then withValue p.setLanguage
  else .stop .usageError

def short (p : Partly) : List Char → Outcome
  | [] => .go p
  | c :: rest =>
    if c = 'v' then
      match p.setVerbose with
      | some p => short p rest
      | none => .stop .usageError
    else if c = 'h' then .stop .help
    else if c = 'V' then .stop .version
    else if c = 'o' then
      match rest with
      | [] => .want p.setOutput
      | '=' :: value => .ofOption (p.setOutput (String.ofList value))
      | value => .ofOption (p.setOutput (String.ofList value))
    else .stop .usageError

def argument (p : Partly) (arg : String) : Outcome :=
  match arg.toList with
  | '-' :: '-' :: rest =>
    match Text.cutChars ['='] rest with
    | some (name, value) => long p (String.ofList name) (some (String.ofList value))
    | none => long p (String.ofList rest) none
  | ['-'] => .ofOption (p.setInput arg)
  | '-' :: rest => short p rest
  | _ => .ofOption (p.setInput arg)

def isValue (arg : String) : Bool :=
  match arg.toList with
  | '-' :: _ :: _ => false
  | _ => true

def plain (p : Partly) : List String → Command
  | [] => p.finish
  | arg :: rest =>
    match p.setInput arg with
    | some p => plain p rest
    | none => .usageError

def parseFrom (p : Partly) : List String → Command
  | [] => p.finish
  | arg :: rest =>
    if arg = "--" then plain p rest
    else
      match argument p arg with
      | .go p => parseFrom p rest
      | .stop c => c
      | .want set =>
        match rest with
        | [] => .usageError
        | value :: rest =>
          if isValue value then
            match set value with
            | some p => parseFrom p rest
            | none => .usageError
          else .usageError

def parse (args : List String) : Command := parseFrom {} args

def levelText : Severity → String
  | .warning => "warning"
  | .error => "error"
  | .internal => "internal error"

def diagnosticLine (d : Diagnostic) : String :=
  levelText d.severity ++ ": block " ++ Text.natText d.block ++ ": " ++ d.message ++ "\n"

def report (o : BuildOptions) : Except BuildError BuildOutput → CommandResult
  | .error _ => { exit := 1, stderr := "Error: failed to compile " ++ o.input ++ "\n" }
  | .ok out =>
    { exit := if out.hasErrors then 1 else 0
      stdout := if o.output.isNone then out.program else ""
      stderr := String.join (out.diagnostics.map diagnosticLine) }

def runIn (c : Command) (f : Folder) : CommandResult × Folder :=
  match c with
  | build o =>
    let (result, f) := o.buildIn f
    (report o result, f)
  | help => ({ exit := 0, stdout := helpText }, f)
  | version => ({ exit := 0, stdout := versionText }, f)
  | usageError => ({ exit := 2 }, f)

end Command

end BlockStudio
