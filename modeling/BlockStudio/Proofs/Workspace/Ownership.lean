import BlockStudio.Proofs.Component.Family
import BlockStudio.Proofs.Links.Labels
import BlockStudio.Proofs.Workspace.Parts

/-! Who owns the blocks that were made for components, and under which labels they go. -/

namespace BlockStudio

structure Derivation where
  block : BlockId
  component : String
  part : Part
deriving Repr, DecidableEq

namespace Derivation

def label (d : Derivation) : String := d.part.label d.component

def renamed (old new : String) (d : Derivation) : Derivation :=
  { d with component := if d.component = old then new else d.component }

end Derivation

namespace Workspace

open Edit

variable {lang : Language} {w w' : Workspace} {component name : String} {record : List Derivation}

def built (lang : Language) (component : String) : List Part → Workspace → List Derivation
  | [], _ => []
  | part :: rest, w =>
    match part.build lang component w with
    | (.ok id, w) => ⟨id, component, part⟩ :: built lang component rest w
    | (.error _, _) => []

def componentParts (lang : Language) (component : String) (w : Workspace) : List Part :=
  (((w.components.get? component).bind fun c => lang.componentType? c.genus).map (·.parts)).getD []

def recorded (w : Workspace) (record : List Derivation) : WorkspaceEdit → List Derivation
  | .componentEvent lang component event => record ++ built lang component [.event event] w
  | .componentGetter lang component property => record ++ built lang component [.getter property] w
  | .componentSetter lang component property => record ++ built lang component [.setter property] w
  | .componentMethod lang component method => record ++ built lang component [.method method] w
  | .componentObject lang component => record ++ built lang component [.object] w
  | .generateBlocks lang component => record ++ built lang component (componentParts lang component w) w
  | .renameComponent old new =>
    match (renameComponent old new w).1 with
    | .ok _ => record.map (·.renamed old new)
    | .error _ => record
  | _ => record

def track (s : Workspace × List Derivation) (e : WorkspaceEdit) : Workspace × List Derivation :=
  (e.run s.1, recorded s.1 s.2 e)

def tracked (form : String) (edits : List WorkspaceEdit) : Workspace × List Derivation :=
  edits.foldl track (new form, [])

lemma tracked_fst (form : String) (edits : List WorkspaceEdit) :
    (tracked form edits).1 = (Workspace.new form).edited edits := by
  have key : ∀ (edits : List WorkspaceEdit) (s : Workspace × List Derivation),
      (edits.foldl track s).1 = s.1.edited edits := by
    intro edits
    induction edits with
    | nil => exact fun _ => rfl
    | cons e edits ih => exact fun s => ih (track s e)
  exact key edits _

def ordinary : WorkspaceEdit → Bool
  | .addComponent name _ _ => name ≠ ""
  | .renameComponent _ new => new ≠ ""
  | .graph (.connect _ _ _) | .graph (.setNext _ _) | .graph (.disconnect _) | .graph (.removeBlock _) => true
  | .graph _ | .tree _ => false
  | _ => true

structure Owned (w : Workspace) (record : List Derivation) : Prop where
  linked : w.Linked
  family : w.components.Family
  named : w.components.get? "" = none
  registered_le : ∀ name c id, w.components.get? name = some c → id ∈ c.blocks → id ≤ w.blocks.nextId
  apart : ∀ name c name' c' id, w.components.get? name = some c → w.components.get? name' = some c' →
    id ∈ c.blocks → id ∈ c'.blocks → name = name'
  recorded : ∀ name c id, w.components.get? name = some c → id ∈ c.blocks → w.blocks.contains id = true →
    ∃ d ∈ record, d.block = id ∧ d.component = name
  distinct : record.Pairwise (·.block < ·.block)
  block_le : ∀ d ∈ record, d.block ≤ w.blocks.nextId
  label_eq : ∀ d ∈ record, ∀ b, w.blocks.get? d.block = some b → b.label = d.label
  owner : ∀ d ∈ record, w.blocks.contains d.block = true →
    ∃ c, w.components.get? d.component = some c ∧ d.block ∈ c.blocks

structure Undisturbed (w w' : Workspace) : Prop where
  steady : w.blocks.Steady w'.blocks
  components_eq : w'.components = w.components

section Undisturbed

variable {α : Type}

lemma Undisturbed.refl (w : Workspace) : w.Undisturbed w := ⟨.refl _, rfl⟩

lemma steady_onBlocks {x : Edit BlockGraph α} (h : ∀ g : BlockGraph, g.Steady (x g).2) :
    (onBlocks x).Keeps w.Undisturbed :=
  fun w' hw' => ⟨hw'.steady.trans (h w'.blocks), hw'.components_eq⟩

lemma additive_undisturbed (w : Workspace) : Additive w.Undisturbed where
  place genus label extra := steady_onBlocks fun g => .addBlock g genus label extra
  typed genus label extra type := keeps_bind (steady_onBlocks fun g => .addBlock g genus label extra) fun id =>
    steady_onBlocks fun g => (BlockGraph.Steady.refl g).modify (f := typedPlug type) (fun _ => rfl) id
  connect p label c := steady_onBlocks fun g => .connect g p label c
  stub d genus sockets := steady_onBlocks fun g => .createStub g d genus sockets

end Undisturbed

lemma onBlocks_of_eq {α : Type} {x : Edit BlockGraph α} {r : Except EditError α} {g : BlockGraph}
    (h : x w.blocks = (r, g)) : onBlocks x w = (r, { w with blocks := g }) := by
  simp only [onBlocks, within, h]

lemma onComponents_of_eq {α : Type} {x : Edit ComponentTree α} {r : Except EditError α} {t : ComponentTree}
    (h : x w.components = (r, t)) : onComponents x w = (r, { w with components := t }) := by
  simp only [onComponents, within, h]

lemma keeps_build (lang : Language) (component : String) (part : Part) : (part.build lang component).Keeps Linked := by
  cases part with
  | event name => exact kept_linked.componentEvent component name
  | getter property => exact kept_linked.componentGetter component property
  | setter property => exact kept_linked.componentSetter component property
  | method name => exact kept_linked.componentMethod component name
  | object => exact kept_linked.componentObject component

lemma bind_pure_snd {σ α β : Type} (x : Edit σ α) (f : α → β) (s : σ) :
    ((do return f (← x) : Edit σ β) s).2 = (x s).2 := by
  show (Edit.bind x (fun a => pure (f a)) s).2 = _
  rw [Edit.bind]
  rcases x s with ⟨_ | _, t⟩
  · rfl
  · rfl

lemma removeBlocks_takes (h : w.Linked) (ids : List BlockId) :
    ∃ out g, removeBlocks ids w = (.ok out, { w with blocks := g }) ∧ w.blocks.Pruned out g ∧
      ∀ x, x ∈ out ↔ ∃ i ∈ ids, w.blocks.contains i = true ∧ w.blocks.Cascade i x := by
  induction ids generalizing w with
  | nil => exact ⟨[], w.blocks, rfl, .of_links_eq h.toWired .refl rfl, by simp⟩
  | cons id ids ih =>
    rw [removeBlocks, Edit.get_bind]
    cases hid : w.blocks.contains id with
    | true =>
      obtain ⟨removed, g, hr, hp, hremoved⟩ := BlockGraph.removeBlock_pruned h hid
      have hg : g.WellLinked := by
        have hkept := BlockGraph.WellLinked.removeBlock h id
        rwa [hr] at hkept
      obtain ⟨out, g', hrun, hrest, hout⟩ := ih (w := { w with blocks := g }) hg
      rw [if_pos rfl, Edit.bind_ok (onBlocks_of_eq hr), Edit.bind_ok hrun]
      refine ⟨removed ++ out, g', rfl, hp.trans hrest, fun x => ?_⟩
      rw [List.mem_append, List.exists_mem_cons_iff, hremoved, hout, and_iff_right hid]
      constructor
      · rintro (hc | ⟨i, hi, hin, hc⟩)
        · exact .inl hc
        · exact .inr ⟨i, hi, hp.contains hin, hc.mono hp⟩
      · rintro (hc | ⟨i, hi, hin, hc⟩)
        · exact .inl hc
        · refine or_iff_not_imp_left.mpr fun hx => ?_
          have hclosed (p : BlockId) (hp : p ∈ removed) (y : BlockId) (ht : w.blocks.TakesAlong p y) : y ∈ removed :=
            (hremoved y).mpr (((hremoved p).mp hp).tail ht)
          obtain ⟨hi', hc'⟩ := hc.survives hp hclosed (mt (hremoved x).mp hx)
          exact ⟨i, hi, (hp.contains_iff i).mpr ⟨hin, hi'⟩, hc'⟩
    | false =>
      obtain ⟨out, g, hrun, hp, hout⟩ := ih h
      rw [if_neg Bool.false_ne_true]
      refine ⟨out, g, hrun, hp, fun x => ?_⟩
      rw [List.exists_mem_cons_iff, hout, hid]
      simp

namespace Built

variable {label : String} (hb : Built component label w w')

include hb

lemma get?_old {id : BlockId} (hid : id ≤ w.blocks.nextId) : w'.blocks.get? id = w.blocks.get? id :=
  hb.grown.old id (Nat.ne_of_lt (Nat.lt_succ_of_le hid))

lemma get?_components (x : String) : w'.components.get? x = if x = component then
    (w.components.get? x).map fun c => { c with blocks := c.blocks.insert (w.blocks.nextId + 1) }
    else w.components.get? x := by
  rw [hb.components_eq, ComponentTree.get?_modify]

lemma owned_before {c' : Component} {id : BlockId} (hc' : w'.components.get? name = some c') (hid : id ∈ c'.blocks) :
    (name = component ∧ id = w.blocks.nextId + 1) ∨ ∃ c, w.components.get? name = some c ∧ id ∈ c.blocks := by
  rw [hb.get?_components] at hc'
  split at hc'
  · obtain ⟨c, hc, rfl⟩ := Option.map_eq_some_iff.mp hc'
    exact (SortedSet.mem_insert.mp hid).imp (⟨‹_›, ·⟩) (⟨c, hc, ·⟩)
  · exact .inr ⟨c', hc', hid⟩

lemma owned_after {c : Component} {id : BlockId} (hc : w.components.get? name = some c) (hid : id ∈ c.blocks) :
    ∃ c', w'.components.get? name = some c' ∧ id ∈ c'.blocks := by
  rw [hb.get?_components, hc]
  split
  · exact ⟨_, rfl, SortedSet.mem_insert.mpr (.inr hid)⟩
  · exact ⟨c, rfl, hid⟩

end Built

namespace Owned

lemma carry (h : w.Owned record) (hl : w'.Linked) (hf : w'.components.Family) (hn : w'.components.get? "" = none)
    (hs : w.blocks.Steady w'.blocks)
    (hback : ∀ x c' id, w'.components.get? x = some c' → id ∈ c'.blocks →
      ∃ c, w.components.get? x = some c ∧ id ∈ c.blocks)
    (hkept : ∀ x c id, w.components.get? x = some c → id ∈ c.blocks → w'.blocks.contains id = true →
      ∃ c', w'.components.get? x = some c' ∧ id ∈ c'.blocks) : w'.Owned record where
  linked := hl
  family := hf
  named := hn
  registered_le name c' id hc' hid := by
    obtain ⟨c, hc, hin⟩ := hback name c' id hc' hid
    exact Nat.le_trans (h.registered_le name c id hc hin) hs.nextId_le
  apart name c' name' d' id hc' hd' hid hid' := by
    obtain ⟨c, hc, hin⟩ := hback name c' id hc' hid
    obtain ⟨d, hd, hin'⟩ := hback name' d' id hd' hid'
    exact h.apart name c name' d id hc hd hin hin'
  recorded name c' id hc' hid hin := by
    obtain ⟨c, hc, hown⟩ := hback name c' id hc' hid
    exact h.recorded name c id hc hown (hs.contains (h.registered_le name c id hc hown) hin)
  distinct := h.distinct
  block_le d hd := Nat.le_trans (h.block_le d hd) hs.nextId_le
  label_eq d hd b' hb' := by
    obtain ⟨b, hb, he⟩ := hs.label d.block b' hb' (h.block_le d hd)
    exact he.trans (h.label_eq d hd b hb)
  owner d hd hin := by
    obtain ⟨c, hc, hown⟩ := h.owner d hd (hs.contains (h.block_le d hd) hin)
    exact hkept d.component c d.block hc hown hin

lemma undisturbed (h : w.Owned record) (hu : w.Undisturbed w') (hl : w'.Linked) : w'.Owned record := by
  refine h.carry hl (hu.components_eq ▸ h.family) (hu.components_eq ▸ h.named) hu.steady ?_ ?_
  · exact fun x c' id hc' hid => ⟨c', hu.components_eq ▸ hc', hid⟩
  · exact fun x c id hc hid _ => ⟨c, hu.components_eq ▸ hc, hid⟩

lemma built (h : w.Owned record) {part : Part} {c : Component} (hc : w.components.get? component = some c)
    (hb : Built component (part.label component) w w') (hl : w'.Linked) :
    w'.Owned (record ++ [⟨w.blocks.nextId + 1, component, part⟩]) := by
  have hfresh (name : String) (c : Component) (hc : w.components.get? name = some c) :
      w.blocks.nextId + 1 ∉ c.blocks := fun hin => Nat.not_succ_le_self _ (h.registered_le name c _ hc hin)
  refine ⟨hl, ?family, ?named, ?registered_le, ?apart, ?recorded, ?distinct, ?block_le, ?label_eq, ?owner⟩
  case family =>
    rw [hb.components_eq]
    exact h.family.modify (f := fun c => { c with blocks := c.blocks.insert (w.blocks.nextId + 1) }) (fun _ => rfl)
      (fun _ => rfl) (fun _ => rfl) component
  case named =>
    rw [hb.get?_components, h.named]
    split <;> rfl
  case registered_le =>
    intro name c' id hc' hid
    rw [hb.grown.nextId_eq]
    obtain ⟨-, rfl⟩ | ⟨c, hc, hin⟩ := hb.owned_before hc' hid
    · exact Nat.le_refl _
    · exact Nat.le_succ_of_le (h.registered_le name c id hc hin)
  case apart =>
    intro name c' name' d' id hc' hd' hid hid'
    obtain ⟨rfl, rfl⟩ | ⟨c, hc, hin⟩ := hb.owned_before hc' hid
    · obtain ⟨rfl, -⟩ | ⟨d, hd, hin⟩ := hb.owned_before hd' hid'
      · rfl
      · exact absurd hin (hfresh name' d hd)
    · obtain ⟨-, rfl⟩ | ⟨d, hd, hin'⟩ := hb.owned_before hd' hid'
      · exact absurd hin (hfresh name c hc)
      · exact h.apart name c name' d id hc hd hin hin'
  case recorded =>
    intro name c' id hc' hid hin
    obtain ⟨rfl, rfl⟩ | ⟨c, hc, hown⟩ := hb.owned_before hc' hid
    · exact ⟨_, List.mem_append_right _ (List.mem_singleton_self _), rfl, rfl⟩
    · rw [BlockGraph.contains_eq_isSome, hb.get?_old (h.registered_le name c id hc hown)] at hin
      obtain ⟨d, hd, he⟩ := h.recorded name c id hc hown hin
      exact ⟨d, List.mem_append_left _ hd, he⟩
  case distinct =>
    refine List.pairwise_append.mpr ⟨h.distinct, List.pairwise_singleton _ _, fun d hd e he => ?_⟩
    obtain rfl := List.mem_singleton.mp he
    exact Nat.lt_succ_of_le (h.block_le d hd)
  case block_le =>
    intro d hd
    rw [hb.grown.nextId_eq]
    obtain hd | hd := List.mem_append.mp hd
    · exact Nat.le_succ_of_le (h.block_le d hd)
    · obtain rfl := List.mem_singleton.mp hd
      exact Nat.le_refl _
  case label_eq =>
    intro d hd b hb'
    obtain hd | hd := List.mem_append.mp hd
    · exact h.label_eq d hd b ((hb.get?_old (h.block_le d hd)).symm.trans hb')
    · obtain rfl := List.mem_singleton.mp hd
      obtain ⟨b', hnew, hlabel⟩ := hb.grown.new
      obtain rfl := Option.some.inj (hnew.symm.trans hb')
      exact hlabel
  case owner =>
    intro d hd hin
    obtain hd | hd := List.mem_append.mp hd
    · rw [BlockGraph.contains_eq_isSome, hb.get?_old (h.block_le d hd)] at hin
      obtain ⟨c, hc, hown⟩ := h.owner d hd hin
      exact hb.owned_after hc hown
    · obtain rfl := List.mem_singleton.mp hd
      exact ⟨_, by rw [hb.get?_components, if_pos rfl, hc, Option.map_some], SortedSet.mem_insert.mpr (.inl rfl)⟩

lemma builtAll (h : w.Owned record) (parts : List Part) :
    ((parts.mapM (Part.build lang component)) w).2.Owned (record ++ Workspace.built lang component parts w) := by
  induction parts generalizing w record with
  | nil =>
    rw [Workspace.built, List.append_nil]
    exact h
  | cons part parts ih =>
    rw [List.mapM_cons]
    obtain ⟨e, he⟩ | ⟨c, w', hc, hb, hrun⟩ := build_cases lang h.named part
    · rw [Edit.bind_error he, Workspace.built, he, List.append_nil]
      exact h
    · have hl : w'.Linked := by
        have hkept := keeps_build lang component part w h.linked
        rwa [hrun] at hkept
      have hrest := ih (h.built hc hb hl)
      have hsame := bind_pure_snd (parts.mapM (Part.build lang component))
        (fun rest => (w.blocks.nextId + 1) :: rest) w'
      rw [Edit.bind_ok hrun, hsame, Workspace.built, hrun]
      rwa [List.append_assoc] at hrest

lemma generateBlocks (h : w.Owned record) :
    (Workspace.generateBlocks lang component w).2.Owned
      (record ++ Workspace.built lang component (componentParts lang component w) w) := by
  rw [generateBlocks_eq, componentParts]
  obtain ⟨hnone, e, he⟩ | ⟨c, hc, hgenus⟩ := genusOf_cases component w
  · rw [Edit.bind_error he, hnone, Option.bind_none, Option.map_none, Option.getD_none, Workspace.built,
      List.append_nil]
    exact h
  · rw [Edit.bind_ok hgenus, hc, Option.bind_some]
    cases lang.componentType? c.genus with
    | none =>
      rw [Option.map_none, Option.getD_none, Workspace.built, List.append_nil]
      exact h
    | some type => exact h.builtAll type.parts

lemma addComponent (h : w.Owned record) {genus parent : String} (hname : name ≠ "") :
    (Workspace.addComponent name genus parent w).2.Owned record := by
  obtain ⟨e, he⟩ | ⟨t, hrun⟩ := ComponentTree.add_cases name genus parent w.components
  · rw [Workspace.addComponent, onComponents_of_eq he]
    exact h
  have hget := ComponentTree.get?_add hrun
  have hfree := (ComponentTree.exists_of_add hrun).1
  rw [Workspace.addComponent, onComponents_of_eq hrun]
  refine h.carry h.linked (h.family.add hrun) ?_ (.refl _) (fun x c' id hc' hid => ?_) fun x c id hc hid _ => ?_
  · show t.get? "" = none
    rw [hget, if_neg (Ne.symm hname), h.named]
    split <;> rfl
  · have hc' : t.get? x = some c' := hc'
    rw [hget] at hc'
    split at hc'
    · obtain rfl := Option.some.inj hc'
      cases hid
    split at hc'
    · obtain ⟨c, hc, rfl⟩ := Option.map_eq_some_iff.mp hc'
      exact ⟨c, hc, hid⟩
    · exact ⟨c', hc', hid⟩
  · have hne : x ≠ name := ComponentTree.ne_of_get? hfree hc
    show ∃ c', t.get? x = some c' ∧ id ∈ c'.blocks
    rw [hget, if_neg hne, hc]
    split
    · exact ⟨_, rfl, hid⟩
    · exact ⟨c, rfl, hid⟩

lemma removeComponent (h : w.Owned record) (name : String) : (Workspace.removeComponent name w).2.Owned record := by
  obtain ⟨e, he⟩ | ⟨cs, t, hrun⟩ := ComponentTree.remove_cases name w.components
  · rw [Workspace.removeComponent, Edit.bind_error (onComponents_of_eq he)]
    exact h
  have hl := kept_linked.removeComponent name w h.linked
  rw [Workspace.removeComponent, Edit.bind_ok (onComponents_of_eq hrun)] at hl ⊢
  obtain ⟨top, -, hw⟩ := ComponentTree.without_of_remove hrun
  have hleft : ({ w with components := t } : Workspace).Linked := h.linked
  obtain ⟨out, g, hrun', hp, hout⟩ := removeBlocks_takes hleft (cs.flatMap fun c => c.blocks.toList)
  rw [hrun'] at hl ⊢
  refine h.carry hl (h.family.remove hrun) ?_ (.of_pruned hp) (fun x c' id hc' hid => ?_) fun x c id hc hid hin => ?_
  · refine (hw.get?_eq "").trans ?_
    rw [h.named]
    split <;> rfl
  · rw [hw.get?_eq] at hc'
    split at hc'
    · cases hc'
    · obtain ⟨c, hc, rfl⟩ := Option.map_eq_some_iff.mp hc'
      exact ⟨c, hc, hid⟩
  · have hstay : x ∉ w.components.subtree name := by
      intro hx
      have htaken : id ∈ cs.flatMap fun c => c.blocks.toList :=
        List.mem_flatMap.mpr ⟨_, hw.taken x hx c hc, hid⟩
      exact ((hp.contains_iff id).mp hin).2 ((hout id).mpr ⟨id, htaken, hp.contains hin, .refl⟩)
    refine ⟨ComponentTree.unlisted name top.parent x c, ?_, hid⟩
    rw [← Option.map_some, ← hc]
    exact (hw.get?_eq x).trans (if_neg hstay)

end Owned

end Workspace

end BlockStudio
