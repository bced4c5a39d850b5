import BlockStudio.Proofs.Text.Pairs
import BlockStudio.Proofs.Workspace.Ownership

namespace BlockStudio

def Block.relabelled (old new : String) (b : Block) : Block :=
  { b with label := (Workspace.renamedLabel? old new b.label).getD b.label }

namespace Workspace

open Edit

variable {w w' : Workspace} {old new : String} {ids : List BlockId} {b : Block}

lemma renamedLabel?_label (old new : String) (part : Part) :
    renamedLabel? old new (part.label old) = some (part.label new) := by
  have hdotted (member : String) : renamedLabel? old new (dotted old member) = some (dotted new member) := by
    have hne : dotted old member ≠ old := by
      intro h
      have hlength := congrArg (fun s => s.toList.length) h
      simp [dotted] at hlength
    rw [renamedLabel?, if_neg hne, dotted, Text.stripLead?_eq_some_iff.mpr rfl]
    rfl
  cases part with
  | object => exact if_pos rfl
  | event name => exact hdotted name
  | getter property => exact hdotted property
  | setter property => exact hdotted property
  | method name => exact hdotted name

def takesName (w : Workspace) (old new : String) (id : BlockId) : Bool :=
  ((w.blocks.get? id).bind fun b => renamedLabel? old new b.label).isSome

structure Relabelled (old new : String) (ids : List BlockId) (g g' : BlockGraph) : Prop where
  nextId_eq : g'.nextId = g.nextId
  get?_eq : ∀ x, g'.get? x = if x ∈ ids then (g.get? x).map (Block.relabelled old new) else g.get? x

lemma relabelOwned_eq (old new : String) (hd : ids.Nodup) (w : Workspace) :
    ∃ g, relabelOwned old new ids w = (.ok (ids.filter (w.takesName old new)), { w with blocks := g }) ∧
      Relabelled old new ids w.blocks g := by
  induction ids generalizing w with
  | nil => exact ⟨w.blocks, rfl, rfl, by simp⟩
  | cons id ids ih =>
    obtain ⟨hid, hd⟩ := List.nodup_cons.mp hd
    rw [relabelOwned, Edit.get_bind]
    cases hl : (w.blocks.get? id).bind fun b => renamedLabel? old new b.label with
    | none =>
      obtain ⟨g, hrun, hg⟩ := ih hd w
      have hsame : (w.blocks.get? id).map (Block.relabelled old new) = w.blocks.get? id := by
        cases hb : w.blocks.get? id with
        | none => rfl
        | some b =>
          rw [hb, Option.bind_some] at hl
          rw [Option.map_some, Block.relabelled, hl, Option.getD_none]
      refine ⟨g, ?_, hg.nextId_eq, fun x => ?_⟩
      · rw [List.filter_cons, takesName, hl]
        exact hrun
      · rw [hg.get?_eq]
        by_cases hx : x = id
        · rw [hx, if_neg hid, if_pos List.mem_cons_self, hsame]
        · simp only [List.mem_cons, hx, false_or]
    | some label =>
      obtain ⟨b, hb, hlabel⟩ := Option.bind_eq_some_iff.mp hl
      have hrelabel : onBlocks (BlockGraph.relabel id label) w =
          (.ok (), { w with blocks := w.blocks.modify id fun b => { b with label } }) :=
        onBlocks_of_eq (BlockGraph.change_eq (BlockGraph.contains_of_get? hb) _)
      have hother (x : BlockId) (hx : x ≠ id) :
          (w.blocks.modify id fun b => { b with label }).get? x = w.blocks.get? x := by
        rw [BlockGraph.get?_modify, if_neg hx]
      obtain ⟨g, hrun, hg⟩ := ih hd { w with blocks := w.blocks.modify id fun b => { b with label } }
      refine ⟨g, ?_, hg.nextId_eq, fun x => ?_⟩
      · have htakes : ids.filter (takesName { w with blocks := w.blocks.modify id fun b => { b with label } } old new) =
            ids.filter (w.takesName old new) := List.filter_congr fun x hx => by
          rw [takesName, takesName, hother x fun he => hid (he ▸ hx)]
        dsimp only
        rw [Edit.bind_ok hrelabel, Edit.bind_ok hrun, htakes, List.filter_cons, takesName, hl]
        rfl
      · rw [hg.get?_eq]
        by_cases hx : x = id
        · have hnew : b.relabelled old new = { b with label } := by rw [Block.relabelled, hlabel, Option.getD_some]
          rw [hx, if_neg hid, if_pos List.mem_cons_self, BlockGraph.get?_modify, if_pos rfl, hb, Option.map_some,
            Option.map_some, hnew]
        · simp only [hother x hx, List.mem_cons, hx, false_or]

def Labelled (name : String) (ids : List BlockId) (g : BlockGraph) : Prop :=
  ∀ id ∈ ids, ∀ b, g.get? id = some b → ∃ part : Part, b.label = part.label name

section Relabelled

variable {g g' g'' : BlockGraph} {part : Part}

lemma relabelled_label (h : b.label = part.label old) : (b.relabelled old new).label = part.label new := by
  rw [Block.relabelled, h, renamedLabel?_label, Option.getD_some]

lemma relabelled_back (h : b.label = part.label old) : (b.relabelled old new).relabelled new old = b := by
  have hback : ((b.relabelled old new).relabelled new old).label = b.label :=
    (relabelled_label (relabelled_label h)).trans h.symm
  have hlabel : (b.relabelled old new).relabelled new old =
      { b with label := ((b.relabelled old new).relabelled new old).label } := rfl
  rw [hlabel, hback]

lemma Relabelled.contains_eq (hr : Relabelled old new ids g g') (x : BlockId) : g'.contains x = g.contains x := by
  rw [BlockGraph.contains_eq_isSome, BlockGraph.contains_eq_isSome, hr.get?_eq]
  split
  · exact Option.isSome_map
  · rfl

lemma Labelled.relabel (h : Labelled old ids g) (hr : Relabelled old new ids g g') : Labelled new ids g' := by
  intro id hid b hb
  rw [hr.get?_eq, if_pos hid] at hb
  obtain ⟨a, ha, rfl⟩ := Option.map_eq_some_iff.mp hb
  obtain ⟨part, hpart⟩ := h id hid a ha
  exact ⟨part, relabelled_label hpart⟩

lemma Labelled.back (h : Labelled old ids g) (hr : Relabelled old new ids g g') (hr' : Relabelled new old ids g' g'') :
    g'' = g := by
  refine BlockGraph.ext_get? (hr'.nextId_eq.trans hr.nextId_eq) fun x => ?_
  rw [hr'.get?_eq, hr.get?_eq]
  split
  · rename_i hx
    cases hb : g.get? x with
    | none => rfl
    | some b =>
      obtain ⟨part, hpart⟩ := h x hx b hb
      exact congrArg some (relabelled_back hpart)
  · rfl

lemma Labelled.filter_takesName (h : Labelled old ids w.blocks) :
    ids.filter (w.takesName old new) = ids.filter w.blocks.contains := by
  refine List.filter_congr fun id hid => ?_
  rw [takesName, BlockGraph.contains_eq_isSome]
  cases hb : w.blocks.get? id with
  | none => rfl
  | some b =>
    obtain ⟨part, hpart⟩ := h id hid b hb
    rw [Option.bind_some, hpart, renamedLabel?_label, Option.isSome_some, Option.isSome_some]

end Relabelled

section Rename

variable {t : ComponentTree} {c : Component} {u : Unit}

lemma renameComponent_relabels (hr : ComponentTree.rename old new w.components = (.ok u, t))
    (hc : w.components.get? old = some c) :
    ∃ g, Relabelled old new c.blocks.toList w.blocks g ∧
      renameComponent old new w = (.ok (c.blocks.toList.filter (w.takesName old new)), ⟨g, t⟩) := by
  obtain ⟨d, hd, hblocks⟩ := (ComponentTree.carried_of_rename hr).forward old c hc
  rw [if_pos rfl] at hd
  have howned : ({ w with components := t } : Workspace).ownedBlocks new = c.blocks.toList := by
    rw [ownedBlocks, hd]
    exact congrArg SortedSet.toList hblocks
  have hnodup : c.blocks.toList.Nodup := c.blocks.ascending.imp Nat.ne_of_lt
  obtain ⟨g, hrelabel, hg⟩ := relabelOwned_eq old new hnodup { w with components := t }
  refine ⟨g, hg, ?_⟩
  rw [renameComponent, Edit.bind_ok (onComponents_of_eq hr), Edit.get_bind, howned, hrelabel]
  rfl

lemma renameComponent_run (hr : ComponentTree.rename old new w.components = (.ok u, t))
    (hc : w.components.get? old = some c) (hl : Labelled old c.blocks.toList w.blocks) :
    ∃ g, Relabelled old new c.blocks.toList w.blocks g ∧
      renameComponent old new w = (.ok (c.blocks.toList.filter w.blocks.contains), ⟨g, t⟩) := by
  obtain ⟨g, hg, hrun⟩ := renameComponent_relabels hr hc
  exact ⟨g, hg, hl.filter_takesName ▸ hrun⟩

lemma renameComponent_back {g : BlockGraph} (hf : w.components.Family)
    (hr : ComponentTree.rename old new w.components = (.ok u, t)) (hc : w.components.get? old = some c)
    (hl : Labelled old c.blocks.toList w.blocks) (hg : Relabelled old new c.blocks.toList w.blocks g) :
    renameComponent new old ⟨g, t⟩ = (.ok (c.blocks.toList.filter w.blocks.contains), w) := by
  obtain ⟨d, hd, hblocks⟩ := (ComponentTree.carried_of_rename hr).forward old c hc
  rw [if_pos rfl] at hd
  have hl' : Labelled new d.blocks.toList g := hblocks ▸ hl.relabel hg
  obtain ⟨g', hg', hrun⟩ := renameComponent_run (w := ⟨g, t⟩) (hf.rename_back hr) hd hl'
  rw [hblocks] at hg' hrun
  obtain rfl := hl.back hg hg'
  rw [hrun]
  exact congrArg (fun ids => (Except.ok ids, w)) (List.filter_congr fun x _ => hg.contains_eq x)

end Rename

end Workspace

end BlockStudio
