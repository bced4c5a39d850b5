import BlockStudio.Compile.Generate

namespace BlockStudio

structure BlockCode where
  globals : List Form := []
  byComponent : NameMap (List Form) := .empty

namespace BlockCode

def isEmpty (code : BlockCode) : Bool := code.globals.isEmpty && code.byComponent.values.all (·.isEmpty)

def handlersOf (code : BlockCode) (component : String) : List Form := (code.byComponent.get? component).getD []

def add (code : BlockCode) (owner : Option String) (form : Form) : BlockCode :=
  match owner with
  | some name => { code with byComponent := code.byComponent.put name (code.handlersOf name ++ [form]) }
  | none => { code with globals := code.globals ++ [form] }

end BlockCode

structure RootResult where
  root : BlockId
  form : Option Form := none
  notes : List Diagnostic := []

namespace Compilation

variable (c : Compilation)

def isDeclaration (b : Block) : Bool := ((c.lang.genus? b.genus).map (·.kind.isDeclaration)).getD false

def duplicateProblem (d : Declaration) : Problem :=
  match d with
  | .event _ _ _ => .duplicateHandler
  | d => .duplicateDefinition d.key

def onlyNote (root : BlockId) (p : Problem) : RootResult where
  root := root
  notes := [Fault.diagnostic c.live ⟨root, p⟩]

def unitResult (root : BlockId) : RootResult :=
  let (form, notes) := c.unit root
  { root, form := form.filter fun f => !f.isBlank, notes }

def rootResults : List String → List BlockId → List RootResult
  | _, [] => []
  | seen, root :: rest =>
    match c.block? root with
    | none => rootResults seen rest
    | some b =>
      if c.isDeclaration b then
        match declarationOf? c.lang c.workspace root with
        | some d =>
          if d.key ∈ seen then c.onlyNote root (duplicateProblem d) :: rootResults seen rest
          else c.unitResult root :: rootResults (d.key :: seen) rest
        | none => c.unitResult root :: rootResults seen rest
      else c.onlyNote root .loose :: rootResults seen rest

def ownerName (root : BlockId) : Option String := (c.workspace.components.ownerOf? root).map (·.name)

def addResult (code : BlockCode) (r : RootResult) : BlockCode :=
  match r.form with
  | some form => code.add (c.ownerName r.root) form
  | none => code

def program : BlockCode × List Diagnostic :=
  let results := c.rootResults [] c.workspace.blocks.roots
  (results.foldl c.addResult {}, results.flatMap (·.notes))

end Compilation

end BlockStudio
