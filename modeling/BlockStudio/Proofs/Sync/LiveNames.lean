import BlockStudio.Proofs.Component.Names
import BlockStudio.Sync.Plan

/-! The components that the planner takes to be on the device, while components come and go. -/

namespace BlockStudio

lemma SortedSet.mem_erase {a x : String} {s : SortedSet String} : x ∈ s.erase a ↔ x ∈ s ∧ x ≠ a := by
  rw [erase, mem_filter, decide_eq_true_iff]

namespace Workspace

open Edit

variable {α β : Type} {w w' : Workspace} {t : ComponentTree} {x : Edit ComponentTree α} {f : α → Edit Workspace β}
  {b : β}

lemma keeps_components_onBlocks (x : Edit BlockGraph α) : (onBlocks x).Keeps fun w => w.components = t :=
  fun _ h => h

lemma exists_tree_ok (hf : ∀ a t, (f a).Keeps fun w => w.components = t) (h : (onComponents x >>= f) w = (.ok b, w')) :
    ∃ a, x w.components = (.ok a, w'.components) := by
  obtain ⟨a, v, hv, hrest⟩ := exists_of_bind_ok h
  obtain ⟨ha, rfl⟩ := Prod.mk.inj hv
  refine ⟨a, Prod.ext ha ?_⟩
  have hkept := hf a (x w.components).2 { w with components := (x w.components).2 } rfl
  rw [hrest] at hkept
  exact hkept.symm

end Workspace

inductive ComponentEdit where
  | add (name genus parent : String)
  | remove (name : String)
  | rename (old new : String)

namespace ComponentEdit

open Workspace

def edit : ComponentEdit → Edit Workspace Unit
  | add name genus parent => addComponent name genus parent
  | remove name => do let _ ← removeComponent name
  | rename old new => do let _ ← renameComponent old new

def event : ComponentEdit → WorkspaceEvent
  | add name _ _ => .componentAdded name
  | remove name => .componentRemoved name
  | rename old new => .componentRenamed old new

variable {w w' : Workspace} {name genus parent old new : String} {u : Unit}

lemma tree_of_add (h : (add name genus parent).edit w = (.ok u, w')) :
    ComponentTree.add name genus parent w.components = (.ok u, w'.components) := by
  obtain ⟨ha, rfl⟩ := Prod.mk.inj h
  exact Prod.ext ha rfl

lemma tree_of_remove (h : (remove name).edit w = (.ok u, w')) :
    ∃ cs, ComponentTree.remove name w.components = (.ok cs, w'.components) := by
  obtain ⟨ids, v, hv, hrest⟩ := Edit.exists_of_bind_ok h
  obtain ⟨-, rfl⟩ := Prod.mk.inj hrest
  exact exists_tree_ok (fun _ _ => keeps_removeBlocks (fun _ => keeps_components_onBlocks _) _) hv

lemma tree_of_rename (h : (rename old new).edit w = (.ok u, w')) :
    ∃ v, ComponentTree.rename old new w.components = (.ok v, w'.components) := by
  obtain ⟨ids, v, hv, hrest⟩ := Edit.exists_of_bind_ok h
  obtain ⟨-, rfl⟩ := Prod.mk.inj hrest
  refine exists_tree_ok (fun _ _ => Edit.keeps_bind Edit.keeps_get fun w => ?_) hv
  exact keeps_relabelOwned (fun _ _ => keeps_components_onBlocks _) old new (w.ownedBlocks new)

end ComponentEdit

namespace Planner

variable {p : Planner} {w : Workspace} {s : Step} {old new name : String}

lemma components_compileInto (p : Planner) (purpose : Purpose) (acc : Plan × Workspace) (id : BlockId) :
    (p.compileInto purpose acc id).2.components = acc.2.components := rfl

lemma components_foldl_compileInto (p : Planner) (purpose : Purpose) (acc : Plan × Workspace) (ids : List BlockId) :
    (ids.foldl (p.compileInto purpose) acc).2.components = acc.2.components := by
  induction ids generalizing acc with
  | nil => rfl
  | cons id ids ih => exact (ih _).trans (components_compileInto p purpose acc id)

lemma plan_added {c : Component} (h : w.components.get? name = some c) :
    ∃ s, p.plan w (.componentAdded name) = .ok s ∧ s.live = p.live.insert name ∧ s.workspace = w := by
  rw [plan, planAdded, ComponentTree.require_eq_ok.mpr h]
  exact ⟨_, rfl, rfl, rfl⟩

lemma planRenamed_cases (p : Planner) (w : Workspace) (old new : String) :
    (old ≠ new ∧ new ∈ p.live ∧ p.planRenamed w old new = .error (.duplicateComponent new)) ∨
      (¬(old ≠ new ∧ new ∈ p.live) ∧ ∃ s, p.planRenamed w old new = .ok s ∧ s.live = p.renamed old new ∧
        s.workspace.components = w.components) := by
  by_cases h : old ≠ new ∧ new ∈ p.live
  · exact .inl ⟨h.1, h.2, if_pos h⟩
  · exact .inr ⟨h, _, if_neg h, rfl, components_foldl_compileInto p _ _ _⟩

lemma plan_loaded (h : p.plan w .projectLoad = .ok s) :
    s.live = .ofList (w.components.list.map (·.name)) ∧ s.workspace.components = w.components := by
  rw [plan, planLoad] at h
  dsimp only at h
  split at h
  · cases h
  · obtain rfl := Except.ok.inj h
    exact ⟨rfl, rfl⟩

lemma mem_renamed {x : String} (h : old ∈ p.live) : x ∈ p.renamed old new ↔ x = new ∨ (x ≠ old ∧ x ∈ p.live) := by
  rw [renamed, if_pos h, SortedSet.mem_insert, SortedSet.mem_erase]
  exact or_congr_right and_comm

end Planner

structure Followed where
  planner : Planner
  workspace : Workspace

namespace Followed

def follow (s : Followed) (e : ComponentEdit) : Except SyncError Plan × Followed :=
  let w := (e.edit s.workspace).2
  match s.planner.plan w e.event with
  | .ok step => (.ok step.plan, { planner := { s.planner with live := step.live }, workspace := step.workspace })
  | .error err => (.error err, { s with workspace := w })

def Each (P : Followed → ComponentEdit → Prop) : Followed → List ComponentEdit → Prop
  | _, [] => True
  | s, e :: edits => P s e ∧ (s.follow e).2.Each P edits

def Accepts (s : Followed) (e : ComponentEdit) : Prop := (e.edit s.workspace).1 = .ok ()

def Agrees (s : Followed) : Prop := ∀ x, x ∈ s.planner.live ↔ x ∈ s.workspace.components.names

def RemovesOne (s : Followed) : ComponentEdit → Prop
  | .remove name => ∀ x ∈ s.workspace.components.subtree name, x = name
  | _ => True

instance (s : Followed) : (e : ComponentEdit) → Decidable (s.RemovesOne e)
  | .add _ _ _ => isTrue trivial
  | .remove name => inferInstanceAs (Decidable (∀ x ∈ s.workspace.components.subtree name, x = name))
  | .rename _ _ => isTrue trivial

variable {s : Followed} {e : ComponentEdit} {w : Workspace} {step : Planner.Step} {err : SyncError}
  {name genus parent old new x : String}

lemma Accepts.exists_edit (h : s.Accepts e) : ∃ w, e.edit s.workspace = (.ok (), w) := ⟨_, Prod.ext h rfl⟩

lemma follow_of_plan (hw : e.edit s.workspace = (.ok (), w)) (hp : s.planner.plan w e.event = .ok step) :
    s.follow e =
      (.ok step.plan, { planner := { s.planner with live := step.live }, workspace := step.workspace }) := by
  simp only [follow, hw, hp]

lemma follow_of_error (hw : e.edit s.workspace = (.ok (), w)) (hp : s.planner.plan w e.event = .error err) :
    s.follow e = (.error err, { s with workspace := w }) := by
  simp only [follow, hw, hp]

lemma follow_add (h : s.Accepts (.add name genus parent)) :
    ∃ plan s', s.follow (.add name genus parent) = (.ok plan, s') ∧ s'.planner.live = s.planner.live.insert name ∧
      ComponentTree.add name genus parent s.workspace.components = (.ok (), s'.workspace.components) := by
  obtain ⟨w, hw⟩ := h.exists_edit
  have htree := ComponentEdit.tree_of_add hw
  obtain ⟨c, hc⟩ : ∃ c, w.components.get? name = some c :=
    Option.isSome_iff_exists.mp ((ComponentTree.contains_add htree).mpr (.inl rfl))
  obtain ⟨step, hplan, hlive, hsame⟩ := Planner.plan_added (p := s.planner) hc
  exact ⟨_, _, follow_of_plan hw hplan, hlive, hsame ▸ htree⟩

lemma follow_remove (h : s.Accepts (.remove name)) :
    ∃ plan s', s.follow (.remove name) = (.ok plan, s') ∧ s'.planner.live = s.planner.live.erase name ∧
      ∃ cs, ComponentTree.remove name s.workspace.components = (.ok cs, s'.workspace.components) := by
  obtain ⟨w, hw⟩ := h.exists_edit
  exact ⟨_, _, follow_of_plan hw rfl, rfl, ComponentEdit.tree_of_remove hw⟩

lemma follow_rename (h : s.Accepts (.rename old new)) :
    ∃ outcome s', s.follow (.rename old new) = (outcome, s') ∧
      (∃ u, ComponentTree.rename old new s.workspace.components = (.ok u, s'.workspace.components)) ∧
      ((old ≠ new ∧ new ∈ s.planner.live ∧ outcome = .error (.duplicateComponent new) ∧
          s'.planner.live = s.planner.live) ∨
        (¬(old ≠ new ∧ new ∈ s.planner.live) ∧ (∃ plan, outcome = .ok plan) ∧
          s'.planner.live = s.planner.renamed old new)) := by
  obtain ⟨w, hw⟩ := h.exists_edit
  obtain ⟨u, htree⟩ := ComponentEdit.tree_of_rename hw
  obtain ⟨hne, hnew, hplan⟩ | ⟨hfree, step, hplan, hlive, hcomponents⟩ := s.planner.planRenamed_cases w old new
  · exact ⟨_, _, follow_of_error hw hplan, ⟨u, htree⟩, .inl ⟨hne, hnew, rfl, rfl⟩⟩
  · exact ⟨_, _, follow_of_plan hw hplan, ⟨u, hcomponents ▸ htree⟩, .inr ⟨hfree, ⟨_, rfl⟩, hlive⟩⟩

structure Covers (s : Followed) : Prop where
  keyed : s.workspace.components.Keyed
  live_of_contains : ∀ x, s.workspace.components.contains x = true → x ∈ s.planner.live

lemma Covers.agrees_iff (h : s.Covers) :
    s.Agrees ↔ ∀ x, x ∈ s.planner.live → s.workspace.components.contains x = true := by
  refine ⟨fun ha x hx => h.keyed.mem_names.mp ((ha x).mp hx), fun ha x => ?_⟩
  exact ⟨fun hx => h.keyed.mem_names.mpr (ha x hx), fun hx => h.live_of_contains x (h.keyed.mem_names.mp hx)⟩

lemma Covers.follow (h : s.Covers) (ha : s.Accepts e) : (s.follow e).2.Covers := by
  cases e with
  | add name genus parent =>
    obtain ⟨plan, s', hs, hlive, htree⟩ := follow_add ha
    rw [hs]
    refine ⟨h.keyed.add htree, fun x hx => ?_⟩
    rw [hlive, SortedSet.mem_insert]
    exact ((ComponentTree.contains_add htree).mp hx).imp_right (h.live_of_contains x)
  | remove name =>
    obtain ⟨plan, s', hs, hlive, cs, htree⟩ := follow_remove ha
    obtain ⟨c, -, hc, -⟩ := ComponentTree.remove_eq_ok htree
    rw [hs]
    refine ⟨h.keyed.remove htree, fun x hx => ?_⟩
    obtain ⟨hin, hout⟩ := (ComponentTree.contains_remove htree).mp hx
    rw [hlive, SortedSet.mem_erase]
    refine ⟨h.live_of_contains x hin, ?_⟩
    rintro rfl
    exact hout (ComponentTree.mem_subtree_self hc)
  | rename old new =>
    obtain ⟨outcome, s', hs, ⟨u, htree⟩, hcases⟩ := follow_rename ha
    have hold := h.live_of_contains old (ComponentTree.contains_old_of_rename htree)
    rw [hs]
    refine ⟨h.keyed.rename htree, fun x hx => ?_⟩
    have hthere := (ComponentTree.contains_rename htree).mp hx
    obtain ⟨-, hnew, -, hlive⟩ | ⟨-, -, hlive⟩ := hcases
    · -- The plan was refused because the new name counts as live, which it is from now on.
      rw [hlive]
      exact hthere.elim (fun hxn => hxn ▸ hnew) fun hx => h.live_of_contains x hx.2
    · rw [hlive, Planner.mem_renamed hold]
      exact hthere.imp_right fun hx => ⟨hx.1, h.live_of_contains x hx.2⟩

lemma Covers.follow_agrees_iff (h : s.Covers) (ha : s.Accepts e) (hs : s.Agrees) :
    ((s.follow e).2.Agrees ∧ ∃ plan, (s.follow e).1 = .ok plan) ↔ s.RemovesOne e := by
  have hlater := (h.follow ha).agrees_iff
  have hlive := h.agrees_iff.mp hs
  cases e with
  | add name genus parent =>
    obtain ⟨plan, s', he, hl, htree⟩ := follow_add ha
    rw [he] at hlater ⊢
    refine iff_of_true ⟨hlater.mpr fun x hx => ?_, plan, rfl⟩ trivial
    rw [hl, SortedSet.mem_insert] at hx
    exact (ComponentTree.contains_add htree).mpr (hx.imp_right (hlive x))
  | remove name =>
    obtain ⟨plan, s', he, hl, cs, htree⟩ := follow_remove ha
    simp only [hl, SortedSet.mem_erase, he] at hlater ⊢
    refine ⟨fun hs' x hx => ?_, fun hone => ⟨hlater.mpr fun x hx => ?_, plan, rfl⟩⟩
    · -- A name below the removed one was live before, and nothing took it out.
      by_contra hne
      have hin := h.live_of_contains x (ComponentTree.contains_of_mem_subtreeFrom hx)
      exact ((ComponentTree.contains_remove htree).mp (hlater.mp hs'.1 x ⟨hin, hne⟩)).2 hx
    · exact (ComponentTree.contains_remove htree).mpr ⟨hlive x hx.1, fun hsub => hx.2 (hone x hsub)⟩
  | rename old new =>
    obtain ⟨outcome, s', he, ⟨u, htree⟩, hcases⟩ := follow_rename ha
    rw [he] at hlater ⊢
    refine iff_of_true ?_ trivial
    obtain ⟨hne, hnew, -, -⟩ | ⟨-, ⟨plan, rfl⟩, hl⟩ := hcases
    · have hfree := ComponentTree.not_contains_new_of_rename htree hne
      exact absurd (hlive new hnew) (Bool.eq_false_iff.mp hfree)
    · have hold := h.live_of_contains old (ComponentTree.contains_old_of_rename htree)
      refine ⟨hlater.mpr fun x hx => ?_, plan, rfl⟩
      rw [hl, Planner.mem_renamed hold] at hx
      exact (ComponentTree.contains_rename htree).mpr (hx.imp_right fun hx => ⟨hx.1, hlive x hx.2⟩)

lemma refused_of_error (h : s.Covers) (ha : s.Accepts e) (he : (s.follow e).1 = .error err) :
    ∃ old new, e = .rename old new ∧ err = .duplicateComponent new ∧ new ∈ s.planner.live ∧
      new ∉ s.workspace.components.names := by
  cases e with
  | add name genus parent =>
    obtain ⟨plan, s', hs, -⟩ := follow_add ha
    rw [hs] at he
    cases he
  | remove name =>
    obtain ⟨plan, s', hs, -⟩ := follow_remove ha
    rw [hs] at he
    cases he
  | rename old new =>
    obtain ⟨outcome, s', hs, ⟨u, htree⟩, hcases⟩ := follow_rename ha
    rw [hs] at he
    obtain ⟨hne, hnew, rfl, -⟩ | ⟨-, ⟨plan, rfl⟩, -⟩ := hcases
    · have hfree := ComponentTree.not_contains_new_of_rename htree hne
      refine ⟨old, new, rfl, (Except.error.inj he).symm, hnew, fun hin => ?_⟩
      exact Bool.eq_false_iff.mp hfree (h.keyed.mem_names.mp hin)
    · cases he

lemma each_agrees_iff {edits : List ComponentEdit} (h : s.Covers) (hs : s.Agrees) (ha : s.Each Accepts edits) :
    s.Each (fun s e => (s.follow e).2.Agrees ∧ ∃ plan, (s.follow e).1 = .ok plan) edits ↔ s.Each RemovesOne edits := by
  induction edits generalizing s with
  | nil => exact Iff.rfl
  | cons e edits ih =>
    have hstep := h.follow_agrees_iff ha.1 hs
    constructor
    · rintro ⟨he, hrest⟩
      exact ⟨hstep.mp he, (ih (h.follow ha.1) he.1 ha.2).mp hrest⟩
    · rintro ⟨hone, hrest⟩
      have he := hstep.mpr hone
      exact ⟨he, (ih (h.follow ha.1) he.1 ha.2).mpr hrest⟩

lemma each_covers {edits : List ComponentEdit} (h : s.Covers) (ha : s.Each Accepts edits) :
    s.Each (fun s e => (∀ x ∈ (s.follow e).2.workspace.components.names, x ∈ (s.follow e).2.planner.live) ∧
      ∀ err, (s.follow e).1 = .error err → ∃ old new, e = .rename old new ∧ err = .duplicateComponent new ∧
        new ∈ s.planner.live ∧ new ∉ s.workspace.components.names) edits := by
  induction edits generalizing s with
  | nil => trivial
  | cons e edits ih =>
    have hlater := h.follow ha.1
    exact ⟨⟨fun x hx => hlater.live_of_contains x (hlater.keyed.mem_names.mp hx),
      fun err he => refused_of_error h ha.1 he⟩, ih hlater ha.2⟩

def loaded (p : Planner) (step : Planner.Step) : Followed where
  planner := { p with live := step.live }
  workspace := step.workspace

theorem live_names_iff {p : Planner} (hk : w.components.Keyed) (hload : p.plan w .projectLoad = .ok step)
    {edits : List ComponentEdit} (ha : (loaded p step).Each Accepts edits) :
    (loaded p step).Agrees ∧
    ((loaded p step).Each (fun s e => (s.follow e).2.Agrees ∧ ∃ plan, (s.follow e).1 = .ok plan) edits ↔
      (loaded p step).Each RemovesOne edits) ∧
    (loaded p step).Each (fun s e =>
      (∀ x ∈ (s.follow e).2.workspace.components.names, x ∈ (s.follow e).2.planner.live) ∧
        ∀ err, (s.follow e).1 = .error err → ∃ old new, e = .rename old new ∧ err = .duplicateComponent new ∧
          new ∈ s.planner.live ∧ new ∉ s.workspace.components.names) edits := by
  obtain ⟨hlive, htree⟩ := Planner.plan_loaded hload
  have hagrees : (loaded p step).Agrees := by
    intro x
    rw [loaded, hlive, htree, SortedSet.mem_ofList, ComponentTree.names]
  have hcovers : (loaded p step).Covers := by
    have hkeyed : (loaded p step).workspace.components.Keyed := htree ▸ hk
    exact ⟨hkeyed, fun x hx => (hagrees x).mpr (hkeyed.mem_names.mpr hx)⟩
  exact ⟨hagrees, each_agrees_iff hcovers hagrees ha, each_covers hcovers ha⟩

def barePlanner : Planner where
  lang := {}
  rules :=
    { knownTypes := .empty, kinds := [], genera := [], propertyTypes := [], methodParams := [], methodReturns := [] }

def boxed : Workspace :=
  (Workspace.new "Screen1").edited
    [.addComponent "Box" "HorizontalArrangement" "Screen1", .addComponent "Ok" "Button" "Box",
      .addComponent "Go" "Button" "Screen1"]

theorem live_names_iff_boxed :
    ∃ step, barePlanner.plan boxed .projectLoad = .ok step ∧
      (loaded barePlanner step).Each (fun s e => (s.follow e).2.Agrees ∧ ∃ plan, (s.follow e).1 = .ok plan)
        [.remove "Ok", .rename "Go" "Ok", .remove "Box"] := by
  have hk : boxed.components.Keyed := by decide
  refine ⟨_, rfl, Iff.mpr (live_names_iff (p := barePlanner) hk rfl ?_).2.1 ?_⟩
  · exact ⟨rfl, rfl, rfl, trivial⟩
  · exact ⟨by decide +kernel, trivial, by decide +kernel, trivial⟩

theorem removed_with_box_stays_live :
    ∃ step, barePlanner.plan boxed .projectLoad = .ok step ∧
      (loaded barePlanner step).Each Accepts [.remove "Box", .rename "Go" "Ok"] ∧
      let s := ((loaded barePlanner step).follow (.remove "Box")).2
      s.workspace.components.names = ["Screen1", "Go"] ∧ s.planner.live.toList = ["Go", "Ok", "Screen1"] ∧
        (s.follow (.rename "Go" "Ok")).1 = .error (.duplicateComponent "Ok") := by
  refine ⟨_, rfl, ⟨rfl, rfl, trivial⟩, ?_, ?_, ?_⟩
  · decide +kernel
  · decide +kernel
  · rfl

end Followed

end BlockStudio
