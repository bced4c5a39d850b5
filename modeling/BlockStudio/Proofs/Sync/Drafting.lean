import BlockStudio.Proofs.Links.Connect
import BlockStudio.Proofs.Sync.Remarks
import Mathlib.Tactic.Lemma

/-!
A plan is made one step at a time, and a step that fails leaves standing what the steps before it changed. The outcome is
that of `Planner.plan`: a plan that fails has changed nothing, and one that succeeds has changed remarks only.
-/

namespace BlockStudio

structure Draft where
  workspace : Workspace
  live : SortedSet String
  plan : Plan := {}

abbrev Drafting := ExceptT SyncError (StateM Draft)

namespace Drafting

variable {α β : Type}

def after (x : Drafting α) (s : Draft) : Except SyncError α × Draft := x.run.run s

def require {ε : Type} (wrap : ε → SyncError) : Except ε α → Drafting α
  | .ok a => pure a
  | .error e => throw (wrap e)

def onBlocks (x : Edit BlockGraph α) : Drafting α := do
  let (r, blocks) := x (← get).workspace.blocks
  modify fun s => { s with workspace := { s.workspace with blocks } }
  require .edit r

def send (units : List SyncUnit) : Drafting Unit :=
  modify fun s => { s with plan := { s.plan with units := s.plan.units ++ units } }

def say (notes : List Diagnostic) : Drafting Unit := do
  modify fun s => { s with workspace := Planner.attach notes s.workspace }
  modify fun s => { s with plan := { s.plan with diagnostics := s.plan.diagnostics ++ notes } }

def setLive (f : SortedSet String → SortedSet String) : Drafting Unit := modify fun s => { s with live := f s.live }

lemma after_bind {x : Drafting α} {f : α → Drafting β} {s s' : Draft} {a : α} (h : x.after s = (.ok a, s')) :
    (x >>= f).after s = (f a).after s' := by
  have h' : x.run.run s = (.ok a, s') := h
  simp only [after, ExceptT.run_bind, StateT.run_bind, h']
  rfl

lemma after_get (f : Draft → Drafting β) (s : Draft) : (get >>= f).after s = (f s).after s := rfl

lemma after_require_ok {ε : Type} (wrap : ε → SyncError) (a : α) (f : α → Drafting β) (s : Draft) :
    (require wrap (.ok a) >>= f).after s = (f a).after s := rfl

lemma after_onBlocks {x : Edit BlockGraph α} {s : Draft} {a : α} {g : BlockGraph}
    (h : x s.workspace.blocks = (.ok a, g)) :
    (onBlocks x).after s = (.ok a, { s with workspace := { s.workspace with blocks := g } }) := by
  rw [onBlocks, after_get, h]
  rfl

end Drafting

namespace Planner

open Drafting

variable (p : Planner)

def compileStep (purpose : Purpose) (id : BlockId) : Drafting Unit := do
  let (form, notes) := (p.compilation (← get).workspace).unit id
  say notes
  send (unitsOf id purpose form)

def doItSteps (id : BlockId) : Drafting Unit := do
  let b ← require .edit ((← get).workspace.blocks.require id)
  onBlocks (BlockGraph.setShouldReport id true)
  p.compileStep .doIt id
  onBlocks (BlockGraph.setShouldReport id b.shouldReport)

def renameLive (old new : String) : Drafting Unit := do
  if old ∈ (← get).live then
    setLive (·.erase old)
    setLive (·.insert new)

def renameSteps (old new : String) : Drafting Unit := do
  if old ≠ new ∧ new ∈ (← get).live then throw (.duplicateComponent new)
  send [{ code := (Yail.renameComponent old new).render, purpose := .component }]
  renameLive old new
  (p.handlersOf (← get).workspace new).forM (p.compileStep .block)

def loadSteps : Drafting Unit := do
  let components := (← get).workspace.components
  let (code, notes) := (p.compilation (← get).workspace).program
  let program ← require .build (Assembly.program p.rules Assembly.defaultPackage components code true)
  say notes
  send [{ code := program, purpose := .load }]
  setLive fun _ => .ofList (components.list.map (·.name))

def steps : WorkspaceEvent → Drafting Unit
  | .blockChanged id => do
    let w := (← get).workspace
    let top := w.blocks.topOfClump id
    if (declarationOf? p.lang w top).isSome then p.compileStep .block top
  | .blockDeleted d => send [{ code := d.nullForm.render, purpose := .block }]
  | .doIt id => p.doItSteps id
  | .propertyChanged component property => do
    let c ← require .edit ((← get).workspace.components.require component)
    match c.properties.get? property with
    | none => throw (.edit (.unknownMember c.genus property))
    | some value => send [{ code := (Assembly.propertySetter p.rules c property value).render, purpose := .property }]
  | .componentAdded name => do
    let c ← require .edit ((← get).workspace.components.require name)
    send [{ code := (Assembly.addComponent p.rules c).render, purpose := .component }]
    setLive (·.insert name)
  | .componentRemoved name => do
    send [{ code := (Yail.removeComponent name).render, purpose := .component }]
    setLive (·.erase name)
  | .componentRenamed old new => p.renameSteps old new
  | .projectLoad => p.loadSteps

def draft (w : Workspace) (event : WorkspaceEvent) : Except SyncError Unit × Draft :=
  (p.steps event).after { workspace := w, live := p.live }

variable {p}

lemma run_compileStep (purpose : Purpose) (id : BlockId) (s : Draft) :
    (p.compileStep purpose id).after s =
      (.ok (), { s with
        plan := (p.compileInto purpose (s.plan, s.workspace) id).1
        workspace := (p.compileInto purpose (s.plan, s.workspace) id).2 }) := rfl

lemma run_compileSteps (purpose : Purpose) (ids : List BlockId) (s : Draft) :
    (ids.forM (p.compileStep purpose)).after s =
      (.ok (), { s with
        plan := (ids.foldl (p.compileInto purpose) (s.plan, s.workspace)).1
        workspace := (ids.foldl (p.compileInto purpose) (s.plan, s.workspace)).2 }) := by
  induction ids generalizing s with
  | nil => rfl
  | cons id ids ih => exact ih _

def drafted (w : Workspace) : Except SyncError Step → Except SyncError Unit × Draft
  | .error e => (.error e, { workspace := w, live := p.live })
  | .ok s => (.ok (), { workspace := s.workspace, live := s.live, plan := s.plan })

lemma after_watch {id : BlockId} {s : Draft} (hc : s.workspace.blocks.contains id = true) (on : Bool) :
    (onBlocks (BlockGraph.setShouldReport id on)).after s = (.ok (), { s with workspace := watch s.workspace id on }) :=
  after_onBlocks (BlockGraph.change_eq hc _)

lemma draft_changed (w : Workspace) (id : BlockId) :
    p.draft w (.blockChanged id) = p.drafted w (.ok (p.planChanged w id)) := by
  rw [draft, steps, after_get, planChanged]
  cases hd : declarationOf? p.lang w (w.blocks.topOfClump id) with
  | none =>
    simp only [hd]
    rfl
  | some d =>
    simp only [hd]
    rfl

lemma draft_doIt (w : Workspace) (id : BlockId) : p.draft w (.doIt id) = p.drafted w (p.planDoIt w id) := by
  rw [draft, steps, doItSteps, after_get, planDoIt]
  cases hb : w.blocks.require id with
  | error e => rfl
  | ok b =>
    have hc := BlockGraph.contains_of_get? (BlockGraph.require_eq_ok.mp hb)
    rw [after_require_ok, after_bind (after_watch hc true), after_bind (run_compileStep .doIt id _), after_watch _ _]
    · rfl
    · -- the block is there still, so its flag can be put back
      refine ((Annotated.attach _ _).contains id).trans ?_
      rwa [watch, BlockGraph.contains_modify]

lemma draft_property (w : Workspace) (component property : String) :
    p.draft w (.propertyChanged component property) = p.drafted w (p.planProperty w component property) := by
  rw [draft, steps, after_get, planProperty]
  cases w.components.require component with
  | error e => rfl
  | ok c =>
    rw [after_require_ok]
    dsimp only
    cases c.properties.get? property with
    | none => rfl
    | some value => rfl

lemma draft_added (w : Workspace) (name : String) :
    p.draft w (.componentAdded name) = p.drafted w (p.planAdded w name) := by
  rw [draft, steps, after_get, planAdded]
  cases w.components.require name with
  | error e => rfl
  | ok c => rfl

lemma after_renameLive (old new : String) (s : Draft) :
    (renameLive old new).after s =
      (.ok (), { s with live := if old ∈ s.live then (s.live.erase old).insert new else s.live }) := by
  rw [renameLive, after_get]
  by_cases h : old ∈ s.live
  · rw [if_pos h, if_pos h]
    rfl
  · rw [if_neg h, if_neg h]
    rfl

lemma draft_renamed (w : Workspace) (old new : String) :
    p.draft w (.componentRenamed old new) = p.drafted w (p.planRenamed w old new) := by
  rw [draft, steps, renameSteps, after_get, planRenamed]
  by_cases hdup : old ≠ new ∧ new ∈ p.live
  · rw [if_pos hdup, if_pos hdup]
    rfl
  · rw [if_neg hdup, if_neg hdup]
    exact (after_bind (after_renameLive old new _)).trans (run_compileSteps .block (p.handlersOf w new) _)

lemma draft_load (w : Workspace) : p.draft w .projectLoad = p.drafted w (p.planLoad w) := by
  rw [draft, steps, loadSteps, after_get, after_get, planLoad]
  dsimp only
  cases Assembly.program p.rules Assembly.defaultPackage w.components (p.compilation w).program.1 true with
  | error e => rfl
  | ok program => rfl

lemma draft_eq_drafted (w : Workspace) (event : WorkspaceEvent) : p.draft w event = p.drafted w (p.plan w event) := by
  cases event with
  | blockChanged id => exact draft_changed w id
  | blockDeleted d => rfl
  | doIt id => exact draft_doIt w id
  | propertyChanged component property => exact draft_property w component property
  | componentAdded name => exact draft_added w name
  | componentRemoved name => rfl
  | componentRenamed old new => exact draft_renamed w old new
  | projectLoad => exact draft_load w

theorem plan_changes_remarks_only (p : Planner) (w : Workspace) (event : WorkspaceEvent) :
    match p.plan w event with
    | .error e => p.draft w event = (.error e, { workspace := w, live := p.live })
    | .ok s =>
      p.draft w event = (.ok (), { workspace := s.workspace, live := s.live, plan := s.plan }) ∧
        s.workspace.components = w.components ∧ s.workspace.blocks.nextId = w.blocks.nextId ∧
        ∀ id, s.workspace.blocks.get? id = (w.blocks.get? id).map fun b =>
          { b with remark := ((Diagnostic.lastOn s.plan.diagnostics id).map Diagnostic.remark).or b.remark } := by
  have hd := draft_eq_drafted (p := p) w event
  cases hs : p.plan w event with
  | error e => rwa [hs] at hd
  | ok s =>
    have ha := annotated_plan hs
    rw [hs] at hd
    exact ⟨hd, ha.components, ha.nextId, ha.blocks⟩

end Planner

end BlockStudio
