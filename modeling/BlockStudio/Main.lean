import BlockStudio.Project.CommandLine

namespace BlockStudio

def readSource (path : String) : IO Source := do
  try
    return .text (← IO.FS.readFile path)
  catch
    | .noFileOrDirectory _ _ _ => return .missing
    | _ => return .unreadable

def sourcesOf (o : BuildOptions) : IO (String → Source) := do
  let paths := o.input :: o.language.toList
  let sources ← paths.mapM fun path => return (path, ← readSource path)
  return fun path => (sources.lookup path).getD .missing

def writeOutput (o : BuildOptions) (out : BuildOutput) : IO (Except BuildError BuildOutput) := do
  match o.output with
  | none => return .ok out
  | some path =>
    try
      IO.FS.writeFile path out.program
      return .ok out
    catch _ => return .error .io

def runBuild (o : BuildOptions) : IO (Except BuildError BuildOutput) := do
  match o.build (← sourcesOf o) with
  | .error e => return .error e
  | .ok out => writeOutput o out

def run (c : Command) : IO CommandResult := do
  match c with
  | .build o => return Command.report o (← runBuild o)
  | c => return (c.runIn {}).1

end BlockStudio

def main (args : List String) : IO UInt32 := do
  let result ← BlockStudio.run (BlockStudio.Command.parse args)
  IO.print result.stdout
  IO.eprint result.stderr
  return UInt32.ofNat result.exit
