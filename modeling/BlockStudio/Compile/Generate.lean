import BlockStudio.Compile.Gen
import BlockStudio.Compile.Scope
import BlockStudio.Compile.Declaration
import BlockStudio.Link.Check

/-! The code of a block. Each function takes the generator for the blocks below as an argument. -/

namespace BlockStudio

structure Compilation where
  lang : Language
  rules : LinkRules
  workspace : Workspace
  live : Bool

namespace Compilation

variable (c : Compilation)

def block? (id : BlockId) : Option Block := c.workspace.blocks.get? id

def note (id : BlockId) (p : Problem) : Gen Unit := Gen.note (Fault.diagnostic c.live ⟨id, p⟩)

section Parts

variable (gen : Scope → BlockId → Gen Form)

def socketExpr (b : Block) (scope : Scope) (label : String) : Gen Form :=
  match b.socket? label with
  | none => Gen.fault b.id (.missingSocket label)
  | some s =>
    match s.block with
    | some child => gen scope child
    | none =>
      if c.live then
        if s.optional then pure Yail.null else Gen.fault b.id (.emptySocket label)
      else do
        c.note b.id (.emptySocket label)
        return Yail.null

def stackForms (scope : Scope) : List BlockId → Gen (List Form)
  | [] => pure []
  | id :: rest => do
    let form ← gen scope id
    let forms ← stackForms scope rest
    return if form.isBlank then forms else form :: forms

def stackOf (scope : Scope) (first : Option BlockId) : Gen (List Form) :=
  match first with
  | some first => stackForms gen scope (c.workspace.blocks.stack first)
  | none => pure []

def socketBody (b : Block) (scope : Scope) (label : String) : Gen Form := do
  return Yail.begin (← c.stackOf gen scope (b.child? label))

def exprs (b : Block) (scope : Scope) : List String → Gen (List Form)
  | [] => pure []
  | label :: rest => do
    let e ← c.socketExpr gen b scope label
    let es ← exprs b scope rest
    return e :: es

def socketArgs (b : Block) (scope : Scope) : Gen (List Form) := c.exprs gen b scope (b.sockets.map (·.label))

def socketArgsOfType (b : Block) (scope : Scope) : Gen (List Form) :=
  c.exprs gen b scope ((b.sockets.map (·.label)).filter (· ≠ LinkRules.componentSocket))

def nameIn (b : Block) (label : String) : Gen String :=
  match (b.child? label).bind c.block? with
  | some name => pure name.label
  | none => Gen.fault b.id (.emptySocket label)

def memberOf (b : Block) : Gen (String × String) :=
  match b.member? with
  | some m => pure m
  | none => Gen.fault b.id (.malformedLabel b.label)

def ownerType (b : Block) : Gen String :=
  match c.rules.memberOf? c.workspace.components b with
  | some m => pure m.1
  | none => Gen.fault b.id (.unknownMember b.label)

def coercionTypes (b : Block) : Form :=
  match c.rules.argumentTypes c.workspace.components b with
  | some types => Yail.typeList types
  | none => Yail.noCoercion

def handlerBody (b : Block) (params : List String) : Option Scope → Gen (List Form)
  | none => pure [Yail.null]
  | some scope => c.stackOf gen (scope.push params) (b.child? "do")

def handler (b : Block) (scope : Option Scope) : Gen Form := do
  let (component, event) ← memberOf b
  match eventParams? c.lang c.workspace b with
  | none => Gen.fault b.id (.unknownEvent b.label)
  | some params =>
    let body ← c.handlerBody gen b params scope
    return Yail.defineEvent component event params body

def branchForm (b : Block) (scope : Scope) : Gen Form := do
  let test ← c.socketExpr gen b scope "test"
  let yes ← c.socketBody gen b scope "then"
  if (b.child? "else").isSome then
    let no ← c.socketBody gen b scope "else"
    return .call "if" [test, yes, no]
  else return .call "if" [test, yes]

def chooseForm (b : Block) (scope : Scope) : Gen Form := do
  let test ← c.socketExpr gen b scope "test"
  let yes ← c.socketExpr gen b scope "then-return"
  let no ← c.socketExpr gen b scope "else-return"
  return .call "if" [test, yes, no]

def whileForm (b : Block) (scope : Scope) : Gen Form := do
  let test ← c.socketExpr gen b scope "test"
  let body ← c.socketBody gen b scope "do"
  return .call "while" [test, body]

def forEachForm (b : Block) (scope : Scope) : Gen Form := do
  let name ← c.nameIn b "variable"
  let items ← c.socketExpr gen b scope "in list"
  let body ← c.socketBody gen b (scope.push [name]) "do"
  return .call "foreach" [.word name, body, items]

def forRangeForm (b : Block) (scope : Scope) : Gen Form := do
  let name ← c.nameIn b "variable"
  let first ← c.socketExpr gen b scope "from"
  let last ← c.socketExpr gen b scope "to"
  let step ← c.socketExpr gen b scope "by"
  let body ← c.socketBody gen b (scope.push [name]) "do"
  return .call "forrange" [.word name, body, first, last, step]

def variableForm (b : Block) (scope : Scope) : Form :=
  .call (if scope.binds b.label then "lexical-value" else "get-var") [.word b.label]

def argumentForm (b : Block) (scope : Scope) : Gen Form :=
  if scope.binds b.label then pure (variableForm b scope) else Gen.fault b.id (.unbound b.label)

def setterForm (b : Block) (scope : Scope) : Gen Form := do
  let value ← c.socketExpr gen b scope "to"
  return .call (if scope.binds b.label then "set-lexical!" else "set-var!") [.word b.label, value]

def procedureForm (b : Block) (scope : Scope) : Gen Form := do
  let params := c.workspace.procedureParams b.id
  let body ← c.socketBody gen b (scope.push params) "do"
  return Yail.defineProcedure b.label params body

def functionForm (b : Block) (scope : Scope) : Gen Form := do
  let params := c.workspace.procedureParams b.id
  let result ← c.socketExpr gen b (scope.push params) "return"
  return Yail.defineProcedure b.label params result

def isStale (b : Block) : Bool := b.declaringParent.any fun d => (c.block? d).isNone

def callForm (b : Block) (scope : Scope) : Gen Form := do
  if c.isStale b then Gen.fault b.id .staleCall
  let args ← c.socketArgs gen b scope
  return .list (.call "get-var" [.word b.label] :: args)

def propertySetForm (b : Block) (scope : Scope) : Gen Form := do
  let (component, property) ← memberOf b
  let genus ← c.ownerType b
  let value ← c.socketExpr gen b scope LinkRules.setterSocket
  return Yail.setProperty component property value (c.rules.propertyType genus property)

def methodForm (b : Block) (scope : Scope) : Gen Form := do
  let (component, method) ← memberOf b
  let args ← c.socketArgs gen b scope
  return .call "call-component-method"
    [.symbol component, .symbol method, Yail.runtimeList args, c.coercionTypes b]

def typeGetForm (b : Block) (scope : Scope) : Gen Form := do
  let (type, property) ← memberOf b
  let component ← c.socketExpr gen b scope LinkRules.componentSocket
  return .call "get-property-and-check" [component, .symbol type, .symbol property]

def typeSetForm (b : Block) (scope : Scope) : Gen Form := do
  let (type, property) ← memberOf b
  let component ← c.socketExpr gen b scope LinkRules.componentSocket
  let value ← c.socketExpr gen b scope LinkRules.setterSocket
  return .call "set-and-coerce-property-and-check!"
    [component, .symbol type, .symbol property, value, .symbol (c.rules.propertyType type property)]

def typeMethodForm (b : Block) (scope : Scope) : Gen Form := do
  let (type, method) ← memberOf b
  let component ← c.socketExpr gen b scope LinkRules.componentSocket
  let args ← c.socketArgsOfType gen b scope
  return .call "call-component-type-method"
    [component, .symbol type, .symbol method, Yail.runtimeList args, c.coercionTypes b]

def primitiveForm (genus : Genus) (b : Block) (scope : Scope) : Gen Form :=
  match genus.primitive with
  | none => Gen.fault b.id (.noPrimitive genus.name)
  | some p => do
    let args ← c.socketArgs gen b scope
    return .call "call-yail-primitive"
      [.word p.op, Yail.runtimeList args, c.coercionTypes b, .str p.description]

def literal (b : Block) (token : Option String) (p : Problem) : Gen Form :=
  match token with
  | some t => pure (.word t)
  | none => Gen.fault b.id p

def kindForm (genus : Genus) (b : Block) (scope : Scope) : Gen Form :=
  match genus.kind with
  | .number => literal b (Yail.numberLiteral? b.label) (.invalidNumber b.label)
  | .text => pure (.str b.label)
  | .truth => pure Yail.truth
  | .falsity => pure Yail.falsity
  | .color => literal b (Yail.colorLiteral? b.label) (.invalidColor b.label)
  | .branch => c.branchForm gen b scope
  | .choose => c.chooseForm gen b scope
  | .whileLoop => c.whileForm gen b scope
  | .forEach => c.forEachForm gen b scope
  | .forRange => c.forRangeForm gen b scope
  | .globalDef => return Yail.defineGlobal b.label (← c.socketExpr gen b [] "initialize to")
  | .variableGet => pure (variableForm b scope)
  | .variableSet => c.setterForm gen b scope
  | .argument => argumentForm b scope
  | .procedureDef => c.procedureForm gen b scope
  | .procedureWithResult => c.functionForm gen b scope
  | .procedureCall => c.callForm gen b scope
  | .componentEvent => c.handler gen b (some scope)
  | .componentGetter => return (fun m => Yail.getProperty m.1 m.2) (← memberOf b)
  | .componentSetter => c.propertySetForm gen b scope
  | .componentMethod => c.methodForm gen b scope
  | .componentObject => pure (.call "get-component" [.word b.label])
  | .componentTypeGetter => c.typeGetForm gen b scope
  | .componentTypeSetter => c.typeSetForm gen b scope
  | .componentTypeMethod => c.typeMethodForm gen b scope
  | .primitive => c.primitiveForm gen genus b scope

def reported (b : Block) (code : Form) : Form :=
  if b.shouldReport && !code.isBlank then Yail.report b.id code else code

def genusForm (genus : Genus) (b : Block) (scope : Scope) : Gen Form :=
  if b.bad then do
    c.note b.id .badBlock
    return Yail.null
  else if !b.active then
    if genus.kind = .componentEvent then c.handler gen b none else pure Yail.null
  else do
    let code ← Gen.catchInternal c.live .blank (c.kindForm gen genus b scope)
    return reported b code

end Parts

def blockForm : Nat → Scope → BlockId → Gen Form
  | 0, _, _ => pure .blank
  | n + 1, scope, id =>
    match c.block? id with
    | none => do
      c.note id .missingBlock
      return .blank
    | some b =>
      match c.lang.genus? b.genus with
      | none => do
        c.note id (.unknownGenus b.genus)
        return .blank
      | some genus => c.genusForm (blockForm n) genus b scope

/-- Blocks nest no deeper than there are blocks, and one missing block may come last. -/
def depth : Nat := c.workspace.blocks.size + 1

def code (scope : Scope) (id : BlockId) : Gen Form := c.blockForm c.depth scope id

def clumpForm (root : BlockId) : Gen Form :=
  match c.workspace.blocks.stack root with
  | first :: second :: rest => return Yail.begin (← stackForms c.code [] (first :: second :: rest))
  | _ => c.code [] root

def unit (root : BlockId) : Option Form × List Diagnostic :=
  let g := c.clumpForm root
  match g.outcome with
  | .ok form => (some form, g.notes)
  | .error f => (none, g.notes ++ [f.diagnostic c.live])

def unitOrNull (root : BlockId) : Form × List Diagnostic :=
  let (form, notes) := c.unit root
  (form.getD Yail.null, notes)

end Compilation

end BlockStudio
