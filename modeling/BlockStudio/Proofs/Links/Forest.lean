import BlockStudio.EditError
import BlockStudio.Proofs.Links.Chain

/-! The links between blocks, apart from what else the blocks hold, and when they form a forest of stacks. -/

namespace BlockStudio

structure Links where
  slots : BlockId → List (Option BlockId)
  parent : BlockId → Option BlockId
  before : BlockId → Option BlockId
  after : BlockId → Option BlockId

namespace Links

variable {L : Links} {a b c p q x y : BlockId} {i j : ℕ} {l m : List BlockId}

lemma ext_slots {K L : Links} (hs : ∀ x, K.slots x = L.slots x) (hp : ∀ x, K.parent x = L.parent x)
    (hb : ∀ x, K.before x = L.before x) (ha : ∀ x, K.after x = L.after x) : K = L := by
  cases K
  cases L
  obtain rfl := funext hs
  obtain rfl := funext hp
  obtain rfl := funext hb
  obtain rfl := funext ha
  rfl

def up (L : Links) (x : BlockId) : Option BlockId := (L.before x).or (L.parent x)

def Holds (L : Links) (p : BlockId) (i : ℕ) (c : BlockId) : Prop := (L.slots p)[i]? = some (some c)

structure Sound (L : Links) : Prop where
  held_iff : ∀ p c, (∃ i, L.Holds p i c) ↔ L.parent c = some p
  held_once : ∀ p i q j c, L.Holds p i c → L.Holds q j c → p = q ∧ i = j
  after_iff : ∀ a b, L.after a = some b ↔ L.before b = some a
  one_up : ∀ x, L.parent x = none ∨ L.before x = none
  up_ends : ∀ x, ∃ l, Chain L.up x l

lemma up_eq_some : L.up x = some y ↔ L.before x = some y ∨ L.before x = none ∧ L.parent x = some y := by
  rw [up, Option.or_eq_some_iff]

lemma up_eq_none : L.up x = none ↔ L.before x = none ∧ L.parent x = none := by
  rw [up, Option.or_eq_none_iff]

lemma up_of_before (h : L.before x = some y) : L.up x = some y := up_eq_some.mpr (.inl h)

namespace Sound

lemma congr {K : Links} (h : L.Sound) (hh : ∀ p i c, K.Holds p i c ↔ L.Holds p i c) (hp : K.parent = L.parent)
    (hb : K.before = L.before) (ha : K.after = L.after) : K.Sound where
  held_iff p c := by simp only [hh, hp, h.held_iff]
  held_once p i q j c hi hj := h.held_once p i q j c ((hh p i c).mp hi) ((hh q j c).mp hj)
  after_iff a b := by rw [ha, hb, h.after_iff]
  one_up x := by rw [hp, hb]; exact h.one_up x
  up_ends x := by
    have hu : K.up = L.up := funext fun y => by rw [up, up, hp, hb]
    rw [hu]
    exact h.up_ends x

variable (h : L.Sound)

include h

lemma before_of_parent (hp : L.parent x = some p) : L.before x = none :=
  (h.one_up x).resolve_left (by simp [hp])

lemma parent_of_before (hb : L.before x = some a) : L.parent x = none :=
  (h.one_up x).resolve_right (by simp [hb])

lemma up_of_parent (hp : L.parent x = some p) : L.up x = some p :=
  up_eq_some.mpr (.inr ⟨h.before_of_parent hp, hp⟩)

lemma parent_of_holds (hc : L.Holds p i c) : L.parent c = some p := (h.held_iff p c).mp ⟨i, hc⟩

lemma up_of_holds (hc : L.Holds p i c) : L.up c = some p := h.up_of_parent (h.parent_of_holds hc)

lemma up_of_after (ha : L.after a = some b) : L.up b = some a := up_of_before ((h.after_iff a b).mp ha)

lemma up_ne (hx : L.up x = some y) : x ≠ y := by
  rintro rfl
  obtain ⟨l, hl⟩ := h.up_ends x
  exact hl.notMem (hl.next_mem List.mem_cons_self hx)

lemma after_ne (ha : L.after a = some b) : a ≠ b := (h.up_ne (h.up_of_after ha)).symm

lemma after_inj (ha : L.after a = some c) (hb : L.after b = some c) : a = b := by
  rw [h.after_iff] at ha hb
  exact Option.some.inj (ha.symm.trans hb)

omit h in
lemma mem_slots : some c ∈ L.slots p ↔ ∃ i, L.Holds p i c := List.mem_iff_getElem?

lemma map_slots (hx : L.parent c ≠ some x) (v : Option BlockId) :
    (L.slots x).map (fun s => if s = some c then v else s) = L.slots x := by
  have he : ∀ s ∈ L.slots x, (if s = some c then v else s) = s := by
    intro s hs
    refine if_neg fun hc => hx ?_
    obtain ⟨i, hi⟩ := mem_slots.mp (hc ▸ hs)
    exact h.parent_of_holds hi
  rw [List.map_congr_left he, List.map_id']

lemma mem_up_of_mem_after (hl : Chain L.after x l) (hy : y ∈ x :: l) (hm : Chain L.up y m) : x ∈ y :: m := by
  induction hl generalizing m with
  | last _ =>
    obtain rfl := List.mem_singleton.mp hy
    exact List.mem_cons_self
  | @link x z l hz _ ih =>
    rcases List.mem_cons.mp hy with rfl | hy
    · exact List.mem_cons_self
    · exact List.mem_cons_of_mem _ (hm.next_mem (ih hy hm) (h.up_of_after hz))

noncomputable def depth (x : BlockId) : ℕ := (h.up_ends x).choose.length

lemma depth_eq (hl : Chain L.up x l) : h.depth x = l.length := by
  rw [depth, (h.up_ends x).choose_spec.unique hl]

lemma depth_up (hx : L.up x = some y) : h.depth x = h.depth y + 1 := by
  obtain ⟨l, hl⟩ := h.up_ends y
  rw [h.depth_eq hl, h.depth_eq (.link hx hl), List.length_cons]

lemma depth_le_of_mem_after (hl : Chain L.after x l) (hy : y ∈ x :: l) : h.depth x ≤ h.depth y := by
  induction hl with
  | last _ => exact (List.mem_singleton.mp hy) ▸ Nat.le_refl _
  | @link x z l hz _ ih =>
    rcases List.mem_cons.mp hy with rfl | hy
    · exact Nat.le_refl _
    · have hd := h.depth_up (h.up_of_after hz)
      have hl := ih hy
      omega

end Sound

end Links

end BlockStudio
