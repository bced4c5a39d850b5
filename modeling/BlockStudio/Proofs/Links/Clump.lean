import BlockStudio.Proofs.Links.Edits

/-! The blocks below a block: in its stack, and in the sockets of each. -/

namespace BlockStudio

def Block.plain (b : Block) : Block := { b with remark := none }

lemma Block.eq_of_plain {β : Type} {f : Block → β} (hf : ∀ b, f b.plain = f b) {a b : Block}
    (h : a.plain = b.plain) : f a = f b := by
  rw [← hf a, h, hf b]

namespace BlockGraph

variable {g g' : BlockGraph} {b : Block} {a id r x y : BlockId}

section Sound

variable (h : g.links.Sound)

include h

lemma encloses_self (x : BlockId) : g.encloses x x = true := by
  obtain ⟨l, hl⟩ := h.up_ends x
  exact (encloses_iff h hl).mpr List.mem_cons_self

lemma encloses_trans (ha : g.encloses a x = true) (hx : g.encloses x y = true) : g.encloses a y = true := by
  obtain ⟨l, hl⟩ := h.up_ends y
  obtain ⟨m, hm, hs⟩ := hl.of_mem ((encloses_iff h hl).mp hx)
  exact (encloses_iff h hl).mpr (hs.subset ((encloses_iff h hm).mp ha))

lemma encloses_of_up (hx : g.links.up x = some y) : g.encloses y x = true := by
  obtain ⟨l, hl⟩ := h.up_ends y
  exact (encloses_iff h (.link hx hl)).mpr (List.mem_cons_of_mem x List.mem_cons_self)

lemma encloses_of_mem_stack (hy : y ∈ g.stack x) : g.encloses x y = true := by
  obtain ⟨l, hl⟩ := after_ends h x
  obtain ⟨m, hm⟩ := h.up_ends y
  rw [stack_eq h hl] at hy
  exact (encloses_iff h hm).mpr (h.mem_up_of_mem_after hl hy hm)

lemma parent_of_mem_children (hb : g.get? id = some b) (hx : x ∈ b.children) : g.links.parent x = some id := by
  obtain ⟨i, hi⟩ := Links.Sound.mem_slots.mp (mem_slots_links.mpr ⟨b, hb, hx⟩)
  exact h.parent_of_holds hi

lemma up_of_mem_children (hb : g.get? id = some b) (hx : x ∈ b.children) : g.links.up x = some id :=
  h.up_of_parent (parent_of_mem_children h hb hx)

lemma contains_of_mem_children (hb : g.get? id = some b) (hx : x ∈ b.children) : g.contains x = true :=
  contains_of_parent (parent_of_mem_children h hb hx)

lemma depth_lt_of_mem_stack (hb : g.get? id = some b) (hx : x ∈ b.children) (hy : y ∈ g.stack x) :
    h.depth id < h.depth y := by
  obtain ⟨l, hl⟩ := after_ends h x
  rw [stack_eq h hl] at hy
  have hd := h.depth_up (up_of_mem_children h hb hx)
  have hle := h.depth_le_of_mem_after hl hy
  omega

lemma depth_le_size (x : BlockId) : h.depth x ≤ g.size := by
  obtain ⟨l, hl⟩ := h.up_ends x
  rw [h.depth_eq hl]
  exact up_length_le h hl

lemma topOfClump_of_encloses (hr : g.links.up r = none) (hx : g.encloses r x = true) : g.topOfClump x = r := by
  obtain ⟨l, hl⟩ := h.up_ends x
  obtain ⟨m, hm, hs⟩ := hl.of_mem ((encloses_iff h hl).mp hx)
  obtain rfl := hm.unique (.last hr)
  obtain ⟨k, hk⟩ := hs
  rw [topOfClump_eq h hl]
  simp only [← hk, List.getLast_append_of_ne_nil, List.getLast_singleton, ne_eq, List.cons_ne_nil, not_false_eq_true]

end Sound

lemma mem_stack_self (g : BlockGraph) (x : BlockId) : x ∈ g.stack x := by
  simp [stack, stackFrom]

lemma up_of_mem_roots (hid : ∀ k b, g.get? k = some b → b.id = k) (hr : r ∈ g.roots) : g.links.up r = none := by
  obtain ⟨b, hb, rfl⟩ := List.mem_map.mp hr
  obtain ⟨hm, hn⟩ := List.mem_filter.mp hb
  obtain ⟨k, hk⟩ := mem_list.mp hm
  rw [hid k b hk, up_links, hk]
  simpa [Block.up, and_comm] using hn

def SameBelow (g g' : BlockGraph) (r : BlockId) : Prop :=
  ∀ x, g.encloses r x = true → (g'.get? x).map Block.plain = (g.get? x).map Block.plain

namespace SameBelow

variable (hs : SameBelow g g' r)

include hs

lemma none_same (hx : g.encloses r x = true) (hb : g.get? x = none) : g'.get? x = none := by
  have hp := hs x hx
  rwa [hb, Option.map_none, Option.map_eq_none_iff] at hp

lemma exists_same (hx : g.encloses r x = true) (hb : g.get? x = some b) :
    ∃ b', g'.get? x = some b' ∧ b'.plain = b.plain := by
  have hp := hs x hx
  rwa [hb, Option.map_some, Option.map_eq_some_iff] at hp

lemma map_eq {β : Type} {f : Block → β} (hf : ∀ b, f b.plain = f b) (hx : g.encloses r x = true) :
    (g'.get? x).map f = (g.get? x).map f := by
  have hp := congrArg (Option.map f) (hs x hx)
  have hc : f ∘ Block.plain = f := funext hf
  rwa [Option.map_map, Option.map_map, hc] at hp

lemma after_eq (hx : g.encloses r x = true) : g'.links.after x = g.links.after x := by
  have ha := congrArg (Option.bind · id) (hs.map_eq (f := Block.after) (fun _ => rfl) hx)
  simp only [Option.bind_map] at ha
  exact ha

lemma stack_eq (h : g.links.Sound) (h' : g'.links.Sound) (hx : g.encloses r x = true) : g'.stack x = g.stack x := by
  obtain ⟨l, hl⟩ := after_ends h x
  have hl' : Chain g'.links.after x l := hl.congr fun y hy => by
    rw [← BlockGraph.stack_eq h hl] at hy
    exact hs.after_eq (encloses_trans h hx (encloses_of_mem_stack h hy))
  rw [BlockGraph.stack_eq h hl, BlockGraph.stack_eq h' hl']

end SameBelow

end BlockGraph

end BlockStudio
