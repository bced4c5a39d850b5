import BlockStudio.Proofs.Links.Cascade
import BlockStudio.Proofs.Links.Connect
import BlockStudio.Proofs.Links.Creation

namespace BlockStudio.BlockGraph

variable {g g' g'' : BlockGraph} {b : Block} {a c d id p x : BlockId} {out : List BlockId}

structure Steady (g g' : BlockGraph) : Prop where
  nextId_le : g.nextId ≤ g'.nextId
  label : ∀ x b', g'.get? x = some b' → x ≤ g.nextId → ∃ b, g.get? x = some b ∧ b'.label = b.label

namespace Steady

lemma refl (g : BlockGraph) : Steady g g := ⟨Nat.le_refl _, fun _ b hb _ => ⟨b, hb, rfl⟩⟩

lemma trans (h : Steady g g') (h' : Steady g' g'') : Steady g g'' where
  nextId_le := Nat.le_trans h.nextId_le h'.nextId_le
  label x b hb hx := by
    obtain ⟨b', hb', hl'⟩ := h'.label x b hb (Nat.le_trans hx h.nextId_le)
    obtain ⟨b'', hb'', hl⟩ := h.label x b' hb' hx
    exact ⟨b'', hb'', hl'.trans hl⟩

lemma contains (h : Steady g g') (hx : x ≤ g.nextId) (hin : g'.contains x = true) : g.contains x = true := by
  obtain ⟨b', hb'⟩ := contains_iff.mp hin
  obtain ⟨b, hb, -⟩ := h.label x b' hb' hx
  exact contains_of_get? hb

lemma of_relinked (h : Relinked g g') : Steady g g' where
  nextId_le := Nat.le_of_eq h.1.symm
  label x b' hb' _ := by
    obtain ⟨b, hb, he⟩ := h.bare hb'
    have hl : b'.bare.label = b.bare.label := congrArg Block.label he
    exact ⟨b, hb, hl⟩

lemma of_pruned (h : Pruned out g g') : Steady g g' where
  nextId_le := Nat.le_of_eq h.nextId_eq.symm
  label x b' hb' _ := by
    obtain ⟨b, hb, he⟩ := h.bare x b' hb'
    have hl : b'.bare.label = b.bare.label := congrArg Block.label he
    exact ⟨b, hb, hl⟩

lemma modify (h : Steady g g') {f : Block → Block} (hf : ∀ b, (f b).label = b.label) (id : BlockId) :
    Steady g (g'.modify id f) where
  nextId_le := h.nextId_le
  label x b' hb' hx := by
    rw [get?_modify] at hb'
    split at hb'
    · obtain ⟨a, ha, rfl⟩ := Option.map_eq_some_iff.mp hb'
      obtain ⟨b, hb, hl⟩ := h.label x a ha hx
      exact ⟨b, hb, (hf a).trans hl⟩
    · exact h.label x b' hb' hx

lemma addBlock (g : BlockGraph) (genus : Genus) (label : String) (extra : List SocketDef) :
    Steady g (g.addBlock genus label extra).1 where
  nextId_le := Nat.le_succ _
  label x b' hb' hx := by
    obtain ⟨b, -, -, hget⟩ := addBlock_get? g genus label extra
    rw [hget, if_neg (Nat.ne_of_lt (Nat.lt_succ_of_le hx))] at hb'
    exact ⟨b', hb', rfl⟩

lemma createStub (g : BlockGraph) (d : BlockId) (genus : Genus) (sockets : List SocketDef) :
    Steady g (BlockGraph.createStub d genus sockets g).2 := by
  obtain ⟨e, he⟩ | ⟨b, -, hr⟩ := createStub_cases g d genus sockets
  · exact he ▸ refl g
  · rw [hr]
    exact (addBlock g genus b.label sockets).modify (f := fun b => { b with declaringParent := some d })
      (fun _ => rfl) (g.nextId + 1)

lemma connect (g : BlockGraph) (p : BlockId) (label : String) (c : BlockId) :
    Steady g (BlockGraph.connect p label c g).2 := by
  obtain ⟨e, he⟩ | ⟨-, -, -, hr⟩ := connect_cases g p label c
  · exact he ▸ refl g
  · exact hr ▸ of_relinked (relinked_plugged.trans relinked_adapt)

lemma setNext (h : g.WellLinked) (a c : BlockId) : Steady g (BlockGraph.setNext a c g).2 := by
  obtain ⟨e, he⟩ | ⟨-, -, -, hr⟩ := setNext_cases h a c
  · exact he ▸ refl g
  · exact hr ▸ of_relinked restacked_grafted.relinked

lemma disconnect (h : g.WellLinked) (c : BlockId) : Steady g (BlockGraph.disconnect c g).2 := by
  obtain ⟨e, he⟩ | ⟨-, g', hr, hrel, -⟩ := disconnect_cases h c
  · exact he ▸ refl g
  · exact hr ▸ of_relinked hrel

end Steady

lemma removeBlock_pruned (h : g.WellLinked) (hid : g.contains id = true) :
    ∃ removed g', removeBlock id g = (.ok removed, g') ∧ Pruned removed g g' ∧ ∀ x, x ∈ removed ↔ g.Cascade id x := by
  obtain ⟨e, he⟩ | ⟨-, hr⟩ := removeBlock_cases g id
  · obtain ⟨b, hb⟩ := contains_iff.mp hid
    simp [removeBlock, require_eq_ok.mpr hb] at he
    cases congrArg Prod.fst he
  · refine ⟨_, _, hr, (removeFrom_uproots h.toWired (Nat.le_refl _)).toPruned, fun x => ?_⟩
    exact mem_removeFrom_iff h.toWired hid (Nat.le_refl _)

lemma Steady.removeBlock (h : g.WellLinked) (id : BlockId) : Steady g (BlockGraph.removeBlock id g).2 := by
  cases hid : g.contains id with
  | true =>
    obtain ⟨removed, g', hr, hp, -⟩ := removeBlock_pruned h hid
    exact hr ▸ of_pruned hp
  | false =>
    obtain ⟨e, he⟩ | ⟨hin, -⟩ := removeBlock_cases g id
    · exact he ▸ refl g
    · exact absurd (hid.symm.trans hin) Bool.false_ne_true

end BlockStudio.BlockGraph
