import BlockStudio.Compile.Assembly
import BlockStudio.Sync.Frame

namespace BlockStudio

inductive WorkspaceEvent where
  | blockChanged (id : BlockId)
  | blockDeleted (d : Declaration)
  | doIt (id : BlockId)
  | propertyChanged (component property : String)
  | componentAdded (name : String)
  | componentRemoved (name : String)
  | componentRenamed (old new : String)
  | projectLoad
deriving Repr, DecidableEq

structure SyncUnit where
  code : String
  purpose : Purpose
  origin : Option BlockId := none
deriving Repr, DecidableEq

/-- Requests to send, and diagnostics that are attached to their blocks already. -/
structure Plan where
  units : List SyncUnit := []
  diagnostics : List Diagnostic := []
deriving Repr, DecidableEq

def Plan.isEmpty (p : Plan) : Bool := p.units.isEmpty

def Plan.ofForm (f : Form) (purpose : Purpose) : Plan where
  units := [{ code := f.render, purpose }]

structure Planner where
  lang : Language
  rules : LinkRules
  live : SortedSet String := .empty

namespace Planner

structure Step where
  plan : Plan
  workspace : Workspace
  live : SortedSet String

variable (p : Planner)

def compilation (w : Workspace) : Compilation where
  lang := p.lang
  rules := p.rules
  workspace := w
  live := true

def attach (ds : List Diagnostic) (w : Workspace) : Workspace := { w with blocks := Diagnostic.attach ds w.blocks }

def unitsOf (id : BlockId) (purpose : Purpose) : Option Form → List SyncUnit
  | some form => if form.isBlank then [] else [{ code := form.render, purpose, origin := some id }]
  | none => []

def compileInto (purpose : Purpose) (acc : Plan × Workspace) (id : BlockId) : Plan × Workspace :=
  let (form, notes) := (p.compilation acc.2).unit id
  ({ units := acc.1.units ++ unitsOf id purpose form, diagnostics := acc.1.diagnostics ++ notes },
    attach notes acc.2)

def step (acc : Plan × Workspace) : Step where
  plan := acc.1
  workspace := acc.2
  live := p.live

def watch (w : Workspace) (id : BlockId) (on : Bool) : Workspace :=
  { w with blocks := w.blocks.modify id fun b => { b with shouldReport := on } }

def planDoIt (w : Workspace) (id : BlockId) : Except SyncError Step :=
  match w.blocks.require id with
  | .error e => .error (.edit e)
  | .ok b =>
    let (plan, w) := p.compileInto .doIt ({}, watch w id true) id
    .ok (p.step (plan, watch w id b.shouldReport))

def planProperty (w : Workspace) (component property : String) : Except SyncError Step :=
  match w.components.require component with
  | .error e => .error (.edit e)
  | .ok c =>
    match c.properties.get? property with
    | none => .error (.edit (.unknownMember c.genus property))
    | some value => .ok (p.step (.ofForm (Assembly.propertySetter p.rules c property value) .property, w))

def planAdded (w : Workspace) (name : String) : Except SyncError Step :=
  match w.components.require name with
  | .error e => .error (.edit e)
  | .ok c =>
    .ok { p.step (.ofForm (Assembly.addComponent p.rules c) .component, w) with live := p.live.insert name }

def handlersOf (w : Workspace) (component : String) : List BlockId :=
  match w.components.get? component with
  | none => []
  | some owner =>
    (SortedSet.ofList (owner.blocks.toList.map w.blocks.topOfClump)).toList.filter fun id =>
      match declarationOf? p.lang w id with
      | some (.event c _ _) => c = component
      | _ => false

def renamed (old new : String) : SortedSet String :=
  if old ∈ p.live then (p.live.erase old).insert new else p.live

def planRenamed (w : Workspace) (old new : String) : Except SyncError Step :=
  if old ≠ new ∧ new ∈ p.live then .error (.duplicateComponent new)
  else
    let first := Plan.ofForm (Yail.renameComponent old new) .component
    let acc := (p.handlersOf w new).foldl (p.compileInto .block) (first, w)
    .ok { p.step acc with live := p.renamed old new }

def planLoad (w : Workspace) : Except SyncError Step :=
  let (code, notes) := (p.compilation w).program
  match Assembly.program p.rules Assembly.defaultPackage w.components code true with
  | .error e => .error (.build e)
  | .ok program =>
    .ok {
      plan := { units := [{ code := program, purpose := .load }], diagnostics := notes }
      workspace := attach notes w
      live := SortedSet.ofList (w.components.list.map (·.name)) }

def planChanged (w : Workspace) (id : BlockId) : Step :=
  let top := w.blocks.topOfClump id
  match declarationOf? p.lang w top with
  | some _ => p.step (p.compileInto .block ({}, w) top)
  | none => p.step ({}, w)

def plan (w : Workspace) : WorkspaceEvent → Except SyncError Step
  | .blockChanged id => .ok (p.planChanged w id)
  | .blockDeleted d => .ok (p.step (.ofForm d.nullForm .block, w))
  | .doIt id => p.planDoIt w id
  | .propertyChanged component property => p.planProperty w component property
  | .componentAdded name => p.planAdded w name
  | .componentRemoved name =>
    .ok { p.step (.ofForm (Yail.removeComponent name) .component, w) with live := p.live.erase name }
  | .componentRenamed old new => p.planRenamed w old new
  | .projectLoad => p.planLoad w

end Planner

end BlockStudio
