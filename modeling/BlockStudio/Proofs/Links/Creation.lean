import BlockStudio.Proofs.Links.Edits

namespace BlockStudio

structure Block.Loose (b : Block) : Prop where
  empty : ∀ s ∈ b.sockets, s.block = none
  parent : b.parent = none
  before : b.before = none
  after : b.after = none
  declaringParent : b.declaringParent = none

namespace BlockGraph

variable {g : BlockGraph} {b : Block} {d id k : BlockId} {genus : Genus} {label : String}
  {extra : List SocketDef}

lemma get?_empty (k : BlockId) : empty.get? k = none := rfl

lemma empty_wellLinked : empty.WellLinked := by
  have hl := fun x => links_eq_none (get?_empty x)
  have hheld : ∀ p i c, ¬ empty.links.Holds p i c := fun p i c hc => by simp [Links.Holds, (hl p).1] at hc
  refine ⟨⟨by simp [get?_empty], by simp [get?_empty], ?_⟩, by simp [get?_empty]⟩
  refine ⟨fun p c => ?_, fun p i q j c hc => absurd hc (hheld p i c), fun a b => ?_, fun x => .inl (hl x).2.1, ?_⟩
  · simp [hheld, (hl c).2.1]
  · simp [(hl a).2.2.2, (hl b).2.2.1]
  · exact fun x => ⟨[], .last (by rw [up_links, get?_empty, Option.bind_none])⟩

lemma addBlock_get? (g : BlockGraph) (genus : Genus) (label : String) (extra : List SocketDef) :
    ∃ b : Block, b.id = g.nextId + 1 ∧ b.Loose ∧
      ∀ k, (g.addBlock genus label extra).1.get? k = if k = g.nextId + 1 then some b else g.get? k := by
  refine ⟨_, rfl, ⟨fun s hs => ?_, rfl, rfl, rfl, rfl⟩, fun k => SortedMap.get?_insert g.blocks _ k _⟩
  obtain ⟨d, _, rfl⟩ := List.mem_map.mp hs
  rfl

lemma sound_of_loose {g' : BlockGraph} (h : g.links.Sound) (hb : b.Loose) (hnew : g.get? id = none)
    (hget : ∀ k, g'.get? k = if k = id then some b else g.get? k) : g'.links.Sound := by
  have hself : g'.get? id = some b := by rw [hget, if_pos rfl]
  have hold : ∀ k, k ≠ id → g'.get? k = g.get? k := fun k hk => by rw [hget, if_neg hk]
  obtain ⟨hns, hnp, hnb, hna⟩ := links_eq_none hnew
  obtain ⟨hls, hlp, hlb, hla⟩ := links_eq_some hself
  refine h.congr (fun p i c => ?_) (funext fun x => ?_) (funext fun x => ?_) (funext fun x => ?_)
  · by_cases hp : p = id
    · rw [hp, Links.Holds, Links.Holds, hls, hns]
      simp only [List.getElem?_map, Option.map_eq_some_iff, List.getElem?_nil, reduceCtorEq, iff_false]
      rintro ⟨s, hs, hc⟩
      simp [hb.empty s (List.mem_of_getElem? hs)] at hc
    · simp only [Links.Holds, links, hold p hp]
  all_goals
    by_cases hx : x = id
    · subst hx
      simp [hlp, hlb, hla, hnp, hnb, hna, hb.parent, hb.before, hb.after]
    · simp only [links, hold x hx]

lemma WellLinked.addBlock (h : g.WellLinked) (genus : Genus) (label : String) (extra : List SocketDef) :
    (g.addBlock genus label extra).1.WellLinked := by
  obtain ⟨b, hid, hb, hget⟩ := addBlock_get? g genus label extra
  have hnew : g.get? (g.nextId + 1) = none := by
    cases hn : g.get? (g.nextId + 1) with
    | none => rfl
    | some a => exact absurd (h.id_le _ a hn) (Nat.not_succ_le_self _)
  have hcase : ∀ k a, (g.addBlock genus label extra).1.get? k = some a →
      k = g.nextId + 1 ∧ a = b ∨ g.get? k = some a := by
    intro k a ha
    rw [hget] at ha
    split at ha
    · rename_i hk
      exact .inl ⟨hk, (Option.some.inj ha).symm⟩
    · exact .inr ha
  refine ⟨⟨fun k a ha => ?_, fun k a ha => ?_, sound_of_loose h.sound hb hnew hget⟩, fun k a d ha hd => ?_⟩
  · rcases hcase k a ha with ⟨rfl, rfl⟩ | ha
    · exact hid
    · exact h.own_id k a ha
  · rcases hcase k a ha with ⟨rfl, -⟩ | ha
    · exact Nat.le_refl _
    · exact Nat.le_succ_of_le (h.id_le k a ha)
  · rcases hcase k a ha with ⟨-, rfl⟩ | ha
    · simp [hb.declaringParent] at hd
    · obtain ⟨c, hc⟩ := contains_iff.mp (h.declared k a d ha hd)
      rw [contains_eq_isSome, hget]
      split
      · rfl
      · rw [hc, Option.isSome_some]

lemma WellLinked.declare (h : g.WellLinked) (hd : g.contains d = true) (id : BlockId) :
    (g.modify id fun b => { b with declaringParent := some d }).WellLinked := by
  have hcase : ∀ k a, (g.modify id fun b => { b with declaringParent := some d }).get? k = some a →
      ∃ b, g.get? k = some b ∧ b.id = a.id ∧ (a.declaringParent = some d ∨ a.declaringParent = b.declaringParent) := by
    intro k a ha
    rw [get?_modify] at ha
    split at ha
    · obtain ⟨b, hb, rfl⟩ := Option.map_eq_some_iff.mp ha
      exact ⟨b, hb, rfl, .inl rfl⟩
    · exact ⟨a, ha, rfl, .inr rfl⟩
  refine ⟨⟨fun k a ha => ?_, fun k a ha => ?_, ?_⟩, fun k a e ha he => ?_⟩
  · obtain ⟨b, hb, hid, _⟩ := hcase k a ha
    exact hid.symm.trans (h.own_id k b hb)
  · obtain ⟨b, hb, _⟩ := hcase k a ha
    exact h.id_le k b hb
  · have hl : (g.modify id fun b => { b with declaringParent := some d }).links = g.links := by
      apply Links.ext_slots
      all_goals
        intro x
        by_cases hx : x = id
        · subst hx
          cases hb : g.get? x <;> simp [links, get?_modify, hb]
        · simp [links, get?_modify, hx]
    exact hl ▸ h.sound
  · rw [contains_modify]
    obtain ⟨b, hb, _, hed | hed⟩ := hcase k a ha
    · exact Option.some.inj (hed.symm.trans he) ▸ hd
    · exact h.declared k b e hb (hed.symm.trans he)

lemma createStub_cases (g : BlockGraph) (d : BlockId) (genus : Genus) (sockets : List SocketDef) :
    (∃ e, createStub d genus sockets g = (.error e, g)) ∨
      ∃ b, g.get? d = some b ∧
        createStub d genus sockets g = (.ok (g.nextId + 1), (g.addBlock genus b.label sockets).1.modify (g.nextId + 1)
          fun b => { b with declaringParent := some d }) := by
  cases hr : g.require d with
  | error e => exact .inl ⟨e, by simp [createStub, hr]⟩
  | ok b => exact .inr ⟨b, require_eq_ok.mp hr, by simp [createStub, hr]; rfl⟩

lemma WellLinked.createStub (h : g.WellLinked) (d : BlockId) (genus : Genus) (sockets : List SocketDef) :
    (createStub d genus sockets g).2.WellLinked := by
  rcases createStub_cases g d genus sockets with ⟨e, he⟩ | ⟨b, hb, hr⟩
  · rwa [he]
  · rw [hr]
    obtain ⟨a, _, _, hget⟩ := addBlock_get? g genus b.label sockets
    refine (h.addBlock genus b.label sockets).declare ?_ (g.nextId + 1)
    rw [contains_eq_isSome, hget]
    split
    · rfl
    · rw [hb, Option.isSome_some]

lemma WellLinked.change (h : g.WellLinked) {f : Block → Block} (hf : ∀ b, (f b).joints = b.joints) (id : BlockId) :
    (change id f g).2.WellLinked := by
  cases hr : g.require id with
  | error e => simpa [BlockGraph.change, hr] using h
  | ok b =>
    have he : (BlockGraph.change id f g).2 = g.modify id f := by simp [BlockGraph.change, hr, Edit.modify]
    exact he ▸ h.same (sameJoints_modify fun b _ => hf b)

lemma WellLinked.annotate (h : g.WellLinked) (id : BlockId) (remark : Option Remark) :
    (g.annotate id remark).WellLinked := h.same (sameJoints_modify fun _ _ => rfl)

lemma WellLinked.adapt (h : g.WellLinked) (id : BlockId) : (g.adapt id).WellLinked := h.same sameJoints_adapt

end BlockGraph

end BlockStudio
