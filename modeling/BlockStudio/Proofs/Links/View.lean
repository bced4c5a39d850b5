import BlockStudio.Graph.Link
import BlockStudio.Proofs.Links.Surgery
import Mathlib.Data.List.Sort

namespace BlockStudio

def Block.named (b : Block) : List BlockId :=
  b.children ++ b.parent.toList ++ b.before.toList ++ b.after.toList ++ b.declaringParent.toList

namespace BlockGraph

variable {g g' : BlockGraph} {b : Block} {c id p x y : BlockId} {l : List BlockId} {n : ℕ}

def links (g : BlockGraph) : Links where
  slots x := ((g.get? x).map fun b => b.sockets.map (·.block)).getD []
  parent x := (g.get? x).bind (·.parent)
  before x := (g.get? x).bind (·.before)
  after x := (g.get? x).bind (·.after)

lemma contains_eq_isSome : g.contains x = (g.get? x).isSome := rfl

lemma contains_iff : g.contains x = true ↔ ∃ b, g.get? x = some b := by
  rw [contains_eq_isSome, Option.isSome_iff_exists]

lemma contains_of_get? (h : g.get? x = some b) : g.contains x = true := contains_iff.mpr ⟨b, h⟩

lemma contains_modify (f : Block → Block) : (g.modify id f).contains x = g.contains x := by
  rw [Bool.eq_iff_iff, contains_iff, contains_iff, get?_modify]
  by_cases h : x = id
  · simp [h]
  · simp [h]

lemma mem_list : b ∈ g.list ↔ ∃ k, g.get? k = some b := by
  simp [list, SortedMap.values, get?, SortedMap.get?_eq_some_iff]

lemma ext_get? (hn : g.nextId = g'.nextId) (hg : ∀ x, g.get? x = g'.get? x) : g = g' := by
  have hentries : g.blocks.entries = g'.blocks.entries := by
    have hirrefl : Std.Irrefl fun a b : BlockId × Block => a.1 < b.1 := ⟨fun a => Nat.lt_irrefl a.1⟩
    have hantisymm : Std.Antisymm fun a b : BlockId × Block => a.1 < b.1 :=
      ⟨fun a b h h' => absurd h' (Nat.lt_asymm h)⟩
    refine g.blocks.ascending.eq_of_mem_iff g'.blocks.ascending fun (k, b) => ?_
    rw [← SortedMap.get?_eq_some_iff, ← SortedMap.get?_eq_some_iff]
    exact Eq.congr_left (hg k)
  cases g
  cases g'
  exact congrArg₂ BlockGraph.mk (SortedMap.ext_entries hentries) hn

lemma nodup_keys (g : BlockGraph) : g.blocks.keys.Nodup :=
  (List.pairwise_map.mpr g.blocks.ascending).imp Nat.ne_of_lt

lemma size_le_of_contains (hk : ∀ k, g'.contains k = true → g.contains k = true) : g'.size ≤ g.size := by
  have hsub : g'.blocks.keys ⊆ g.blocks.keys := fun k hm =>
    (SortedMap.contains_iff _ _).mp (hk k ((SortedMap.contains_iff _ _).mpr hm))
  have hlen := ((nodup_keys g').subperm hsub).length_le
  simpa [SortedMap.keys, size, SortedMap.size] using hlen

lemma size_lt_of_contains (hk : ∀ k, g'.contains k = true → g.contains k = true) (hx : g.contains x = true)
    (hn : g'.contains x = false) : g'.size < g.size := by
  have hx' : x ∉ g'.blocks.keys := by
    rw [← SortedMap.contains_iff]
    exact (Bool.not_eq_true _).mpr hn
  have hsub : x :: g'.blocks.keys ⊆ g.blocks.keys := by
    intro k hm
    rcases List.mem_cons.mp hm with rfl | hm
    · exact (SortedMap.contains_iff _ _).mp hx
    · exact (SortedMap.contains_iff _ _).mp (hk k ((SortedMap.contains_iff _ _).mpr hm))
  have hd : (x :: g'.blocks.keys).Nodup := List.nodup_cons.mpr ⟨hx', nodup_keys g'⟩
  have hlen := (hd.subperm hsub).length_le
  simpa [SortedMap.keys, size, SortedMap.size, Nat.succ_le_iff] using hlen

lemma require_eq_ok : g.require x = .ok b ↔ g.get? x = some b := by
  rw [require]
  split
  · rename_i h
    simp [h]
  · rename_i h
    simp [h]

lemma up_links : g.links.up x = (g.get? x).bind (·.up) := by
  cases h : g.get? x with
  | none => simp [Links.up, links, h]
  | some b => simp [Links.up, links, h, Block.up]

lemma links_eq_none (h : g.get? x = none) :
    g.links.slots x = [] ∧ g.links.parent x = none ∧ g.links.before x = none ∧ g.links.after x = none := by
  simp [links, h]

lemma links_eq_some (h : g.get? x = some b) : g.links.slots x = b.sockets.map (·.block) ∧
    g.links.parent x = b.parent ∧ g.links.before x = b.before ∧ g.links.after x = b.after := by
  simp [links, h]

lemma mem_slots_links : some c ∈ g.links.slots p ↔ ∃ b, g.get? p = some b ∧ c ∈ b.children := by
  cases hp : g.get? p with
  | none => simp [(links_eq_none hp).1]
  | some b => simp [(links_eq_some hp).1, Block.children]

lemma contains_of_holds {i : ℕ} (h : g.links.Holds p i c) : g.contains p = true := by
  cases hp : g.get? p with
  | none => simp [Links.Holds, (links_eq_none hp).1] at h
  | some b => exact contains_of_get? hp

lemma contains_of_parent (h : g.links.parent x = some y) : g.contains x = true := by
  cases hx : g.get? x with
  | none => simp [(links_eq_none hx).2.1] at h
  | some b => exact contains_of_get? hx

lemma contains_of_before (h : g.links.before x = some y) : g.contains x = true := by
  cases hx : g.get? x with
  | none => simp [(links_eq_none hx).2.2.1] at h
  | some b => exact contains_of_get? hx

lemma contains_of_after (h : g.links.after x = some y) : g.contains x = true := by
  cases hx : g.get? x with
  | none => simp [(links_eq_none hx).2.2.2] at h
  | some b => exact contains_of_get? hx

section Sound

variable (h : g.links.Sound)

include h

lemma contains_up (hx : g.links.up x = some y) : g.contains y = true := by
  rcases Links.up_eq_some.mp hx with hb | ⟨_, hp⟩
  · exact contains_of_after ((h.after_iff y x).mpr hb)
  · obtain ⟨i, hi⟩ := (h.held_iff y x).mpr hp
    exact contains_of_holds hi

lemma contains_after (hx : g.links.after x = some y) : g.contains y = true :=
  contains_of_before ((h.after_iff x y).mp hx)

lemma contains_held {i : ℕ} (hc : g.links.Holds p i c) : g.contains c = true :=
  contains_of_parent (h.parent_of_holds hc)

omit h in
lemma length_le_size_of_subset {m : List BlockId} (hd : m.Nodup) (hm : ∀ y ∈ m, g.contains y = true) :
    m.length ≤ g.size := by
  have hlen := (hd.subperm fun y hy => (SortedMap.contains_iff _ _).mp (hm y hy)).length_le
  simpa [SortedMap.keys, size, SortedMap.size] using hlen

omit h in
lemma length_le_size {next : BlockId → Option BlockId} (hn : ∀ x y, next x = some y → g.contains y = true)
    (hl : Chain next x l) : l.length ≤ g.size :=
  length_le_size_of_subset (List.nodup_cons.mp hl.nodup).2 (hl.forall_mem hn)

omit h in
lemma length_lt_size {next : BlockId → Option BlockId} (hn : ∀ x y, next x = some y → g.contains y = true)
    (hx : g.contains x = true) (hl : Chain next x l) : l.length < g.size :=
  length_le_size_of_subset (m := x :: l) hl.nodup (List.forall_mem_cons.mpr ⟨hx, hl.forall_mem hn⟩)

lemma up_length_le (hl : Chain g.links.up x l) : l.length ≤ g.size :=
  length_le_size (fun _ _ => contains_up h) hl

lemma after_ends (x : BlockId) : ∃ m, Chain g.links.after x m := by
  obtain ⟨l, hl⟩ := h.up_ends x
  exact hl.reverse (fun a b => h.up_of_after) g.size fun a m hm => up_length_le h hm

end Sound

lemma enclosesWithin_iff (hl : Chain g.links.up x l) (hn : l.length < n) :
    g.enclosesWithin c n x = true ↔ c ∈ x :: l := by
  induction hl generalizing n with
  | @last x hx =>
    cases n with
    | zero => cases hn
    | succ n =>
      rw [up_links] at hx
      by_cases he : x = c
      · simp [enclosesWithin, he]
      · simp [enclosesWithin, he, hx, Ne.symm he]
  | @link x y l hy _ ih =>
    cases n with
    | zero => cases hn
    | succ n =>
      rw [up_links] at hy
      by_cases he : x = c
      · simp [enclosesWithin, he]
      · simp only [enclosesWithin, he, if_false, hy, ih (Nat.lt_of_succ_lt_succ hn), List.mem_cons, Ne.symm he,
          false_or]

lemma encloses_iff (h : g.links.Sound) (hl : Chain g.links.up x l) : g.encloses c x = true ↔ c ∈ x :: l :=
  enclosesWithin_iff hl (Nat.lt_succ_of_le (up_length_le h hl))

lemma climb_eq (hl : Chain g.links.up x l) (hn : l.length ≤ n) :
    g.climb n x = (x :: l).getLast (List.cons_ne_nil x l) := by
  induction hl generalizing n with
  | last hx =>
    rw [up_links] at hx
    cases n with
    | zero => rfl
    | succ n => simp [climb, hx]
  | @link x y l hy _ ih =>
    rw [up_links] at hy
    cases n with
    | zero => cases hn
    | succ n => simp only [climb, hy, ih (Nat.le_of_succ_le_succ hn), List.getLast_cons_cons]

lemma topOfClump_eq (h : g.links.Sound) (hl : Chain g.links.up x l) :
    g.topOfClump x = (x :: l).getLast (List.cons_ne_nil x l) := climb_eq hl (up_length_le h hl)

lemma stackFrom_eq {seen : List BlockId} (hl : Chain g.links.after x l) (hn : l.length < n)
    (hs : ∀ y ∈ x :: l, y ∉ seen) : g.stackFrom n seen x = x :: l := by
  induction hl generalizing n seen with
  | @last x hx =>
    cases n with
    | zero => cases hn
    | succ n =>
      have he : (g.get? x).bind (·.after) = none := hx
      simp [stackFrom, hs, he]
  | @link x y l hy ht ih =>
    cases n with
    | zero => cases hn
    | succ n =>
      have he : (g.get? x).bind (·.after) = some y := hy
      have hd := (Chain.link hy ht).notMem
      have hrest : g.stackFrom n (x :: seen) y = y :: l := by
        apply ih (Nat.lt_of_succ_lt_succ hn)
        intro z hz hm
        rcases List.mem_cons.mp hm with rfl | hm
        · exact hd hz
        · exact hs z (List.mem_cons_of_mem _ hz) hm
      simp [stackFrom, hs, he, hrest]

lemma stack_eq (h : g.links.Sound) (hl : Chain g.links.after x l) : g.stack x = x :: l :=
  stackFrom_eq hl (Nat.lt_succ_of_le (length_le_size (fun _ _ => contains_after h) hl)) (by simp)

lemma contains_of_mem_stack (h : g.links.Sound) (hx : g.contains x = true) (hy : y ∈ g.stack x) :
    g.contains y = true := by
  obtain ⟨l, hl⟩ := after_ends h x
  rw [stack_eq h hl] at hy
  rcases List.mem_cons.mp hy with rfl | hy
  · exact hx
  · exact hl.forall_mem (fun _ _ => contains_after h) y hy

end BlockGraph

end BlockStudio
