import BlockStudio.Proofs.Links.View
import BlockStudio.Sync.Plan
import Mathlib.Tactic.Lemma

/-! A plan that is made leaves the project as it was, but for the remarks of the blocks that its diagnostics name. -/

namespace BlockStudio

namespace Diagnostic

def lastOn (ds : List Diagnostic) (id : BlockId) : Option Diagnostic := (ds.filter (·.block = id)).getLast?

def remarked (ds : List Diagnostic) (id : BlockId) (b : Block) : Block :=
  { b with remark := ((lastOn ds id).map remark).or b.remark }

lemma lastOn_append (ds ds' : List Diagnostic) (id : BlockId) :
    lastOn (ds ++ ds') id = (lastOn ds' id).or (lastOn ds id) := by
  rw [lastOn, List.filter_append, List.getLast?_append]
  rfl

lemma remarked_append (ds ds' : List Diagnostic) (id : BlockId) (b : Block) :
    remarked ds' id (remarked ds id b) = remarked (ds ++ ds') id b := by
  rw [remarked, remarked, remarked, lastOn_append]
  cases lastOn ds' id with
  | none => rfl
  | some d => rfl

lemma remarked_of_lastOn_eq_none {ds : List Diagnostic} {id : BlockId} (h : lastOn ds id = none) :
    remarked ds id = (·) := by
  funext b
  rw [remarked, h]
  rfl

lemma get?_annotate (d : Diagnostic) (g : BlockGraph) (id : BlockId) :
    (g.annotate d.block (some d.remark)).get? id = (g.get? id).map (remarked [d] id) := by
  rw [BlockGraph.annotate, BlockGraph.get?_modify]
  by_cases h : d.block = id
  · have hl : lastOn [d] id = some d := by simp [lastOn, h]
    rw [if_pos h.symm]
    exact congrArg (Option.map · _) (funext fun b => by rw [remarked, hl]; rfl)
  · have hl : lastOn [d] id = none := by simp [lastOn, h]
    rw [if_neg fun e => h e.symm, remarked_of_lastOn_eq_none hl, Option.map_id']

lemma get?_attach (ds : List Diagnostic) (g : BlockGraph) (id : BlockId) :
    (attach ds g).get? id = (g.get? id).map (remarked ds id) := by
  induction ds generalizing g with
  | nil => rw [remarked_of_lastOn_eq_none rfl, Option.map_id', attach, List.foldl_nil]
  | cons d ds ih =>
    rw [attach, List.foldl_cons, ← attach, ih, get?_annotate, Option.map_map]
    exact congrArg (Option.map · _) (funext (remarked_append [d] ds id))

lemma nextId_attach (ds : List Diagnostic) (g : BlockGraph) : (attach ds g).nextId = g.nextId := by
  induction ds generalizing g with
  | nil => rfl
  | cons d ds ih => exact ih _

end Diagnostic

structure Annotated (ds : List Diagnostic) (w w' : Workspace) : Prop where
  components : w'.components = w.components
  nextId : w'.blocks.nextId = w.blocks.nextId
  blocks (id : BlockId) : w'.blocks.get? id = (w.blocks.get? id).map (Diagnostic.remarked ds id)

namespace Annotated

variable {ds ds' : List Diagnostic} {w w' w'' : Workspace}

lemma refl (w : Workspace) : Annotated [] w w :=
  ⟨rfl, rfl, fun _ => by rw [Diagnostic.remarked_of_lastOn_eq_none rfl, Option.map_id']⟩

lemma trans (h : Annotated ds w w') (h' : Annotated ds' w' w'') : Annotated (ds ++ ds') w w'' where
  components := h'.components.trans h.components
  nextId := h'.nextId.trans h.nextId
  blocks id := by
    rw [h'.blocks, h.blocks, Option.map_map]
    exact congrArg (Option.map · _) (funext (Diagnostic.remarked_append ds ds' id))

lemma contains (h : Annotated ds w w') (id : BlockId) : w'.blocks.contains id = w.blocks.contains id := by
  have hg := congrArg Option.isSome (h.blocks id)
  rwa [Option.isSome_map] at hg

lemma attach (ds : List Diagnostic) (w : Workspace) : Annotated ds w (Planner.attach ds w) where
  components := rfl
  nextId := Diagnostic.nextId_attach ds w.blocks
  blocks := Diagnostic.get?_attach ds w.blocks

lemma of_watched {id : BlockId} {b : Block} (hb : w.blocks.get? id = some b)
    (h : Annotated ds (Planner.watch w id true) w') : Annotated ds w (Planner.watch w' id b.shouldReport) where
  components := h.components
  nextId := h.nextId
  blocks x := by
    rw [Planner.watch, BlockGraph.get?_modify, h.blocks, Planner.watch, BlockGraph.get?_modify]
    by_cases hx : x = id
    · subst hx
      rw [if_pos rfl, if_pos rfl, hb]
      rfl
    · rw [if_neg hx, if_neg hx]

end Annotated

namespace Planner

variable {p : Planner}

lemma annotated_compileInto (purpose : Purpose) (acc : Plan × Workspace) (id : BlockId) :
    ∃ notes, (p.compileInto purpose acc id).1.diagnostics = acc.1.diagnostics ++ notes ∧
      Annotated notes acc.2 (p.compileInto purpose acc id).2 :=
  ⟨_, rfl, .attach _ _⟩

lemma annotated_foldl_compileInto (purpose : Purpose) (acc : Plan × Workspace) (ids : List BlockId) :
    ∃ notes, (ids.foldl (p.compileInto purpose) acc).1.diagnostics = acc.1.diagnostics ++ notes ∧
      Annotated notes acc.2 (ids.foldl (p.compileInto purpose) acc).2 := by
  induction ids generalizing acc with
  | nil => exact ⟨[], (List.append_nil _).symm, .refl _⟩
  | cons id ids ih =>
    obtain ⟨ds, hds, h⟩ := annotated_compileInto (p := p) purpose acc id
    obtain ⟨ds', hds', h'⟩ := ih (p.compileInto purpose acc id)
    exact ⟨ds ++ ds', by rw [List.foldl_cons, hds', hds, List.append_assoc], h.trans h'⟩

lemma annotated_doIt {w : Workspace} {id : BlockId} {s : Step} (h : p.planDoIt w id = .ok s) :
    Annotated s.plan.diagnostics w s.workspace := by
  rw [planDoIt] at h
  cases hb : w.blocks.require id with
  | error e => simp [hb] at h
  | ok b =>
    rw [hb] at h
    obtain rfl := Except.ok.inj h
    exact .of_watched (BlockGraph.require_eq_ok.mp hb) (.attach _ _)

lemma annotated_plan {w : Workspace} {event : WorkspaceEvent} {s : Step} (h : p.plan w event = .ok s) :
    Annotated s.plan.diagnostics w s.workspace := by
  cases event with
  | blockChanged id =>
    obtain rfl := Except.ok.inj h
    rw [planChanged]
    cases declarationOf? p.lang w (w.blocks.topOfClump id) with
    | none => exact .refl w
    | some d => exact .attach _ _
  | blockDeleted d =>
    obtain rfl := Except.ok.inj h
    exact .refl w
  | doIt id => exact annotated_doIt h
  | propertyChanged component property =>
    rw [plan, planProperty] at h
    split at h
    · cases h
    · split at h
      · cases h
      · obtain rfl := Except.ok.inj h
        exact .refl w
  | componentAdded name =>
    rw [plan, planAdded] at h
    split at h
    · cases h
    · obtain rfl := Except.ok.inj h
      exact .refl w
  | componentRemoved name =>
    obtain rfl := Except.ok.inj h
    exact .refl w
  | componentRenamed old new =>
    rw [plan, planRenamed] at h
    split at h
    · cases h
    · obtain rfl := Except.ok.inj h
      -- several blocks are compiled, each in the project that the one before it left
      obtain ⟨notes, hn, ha⟩ := annotated_foldl_compileInto (p := p) .block
        (.ofForm (Yail.renameComponent old new) .component, w) (p.handlersOf w new)
      exact hn ▸ ha
  | projectLoad =>
    rw [plan, planLoad] at h
    dsimp only at h
    split at h
    · cases h
    · obtain rfl := Except.ok.inj h
      exact .attach _ _

end Planner

end BlockStudio
