import BlockStudio.Proofs.Links.Forest
import Mathlib.Logic.Function.Basic

/-! The ways in which edits change links: each of them keeps a forest of stacks. -/

namespace BlockStudio.Links

variable {L : Links} {a b c d n p q t x y : BlockId} {i j : ℕ} {l m S : List BlockId}

def plug (L : Links) (p : BlockId) (i : ℕ) (c : BlockId) : Links :=
  { L with
    slots := Function.update L.slots p ((L.slots p).set i (some c))
    parent := Function.update L.parent c (some p) }

def cut (L : Links) (c : BlockId) : Links where
  slots x := (L.slots x).map fun s => if s = some c then none else s
  parent := Function.update L.parent c none
  before := Function.update L.before c none
  after x := if L.after x = some c then none else L.after x

def graft (L : Links) (a n t : BlockId) : Links :=
  { L with
    before := fun x => if x = n then some a else if L.after a = some x then some t else L.before x
    after := fun x => if x = a then some n else if x = t then L.after a else L.after x }

/-- Lets the block below `d` take the place of `d`, which still names its old neighbours. -/
def bypass (L : Links) (d : BlockId) : Links where
  slots x := (L.slots x).map fun s => if s = some d then L.after d else s
  parent x := if L.after d = some x then L.parent d else L.parent x
  before x := if L.after d = some x then L.before d else L.before x
  after x := if L.after x = some d then L.after d else L.after x

def splice (L : Links) (d : BlockId) : Links where
  slots x := (L.slots x).map fun s => if s = some d then L.after d else s
  parent x := if x = d then none else if L.after d = some x then L.parent d else L.parent x
  before x := if x = d then none else if L.after d = some x then L.before d else L.before x
  after x := if x = d then none else if L.after x = some d then L.after d else L.after x

def drop (L : Links) (S : List BlockId) : Links where
  slots x := if x ∈ S then [] else L.slots x
  parent x := if x ∈ S then none else L.parent x
  before x := if x ∈ S then none else L.before x
  after x := if x ∈ S then none else L.after x

def Closed (L : Links) (S : List BlockId) : Prop := ∀ x y, L.up x = some y → (x ∈ S ↔ y ∈ S)

lemma holds_plug (hi : (L.slots p)[i]? = some none) :
    (L.plug p i c).Holds q j x ↔ (q = p ∧ j = i ∧ x = c) ∨ L.Holds q j x := by
  have hlt : i < (L.slots p).length := (List.getElem?_eq_some_iff.mp hi).1
  by_cases hq : q = p
  · subst hq
    by_cases hj : j = i
    · subst hj
      have hn : (L.slots q)[j]? ≠ some (some x) := by simp [hi]
      simp only [Holds, plug, Function.update_self, List.getElem?_set_self hlt, Option.some.injEq, hn,
        or_false, true_and]
      exact eq_comm
    · simp [Holds, plug, hj, Ne.symm hj]
  · simp [Holds, plug, hq]

lemma up_plug (hb : L.before c = none) : (L.plug p i c).up = Function.update L.up c (some p) := by
  funext x
  by_cases hx : x = c
  · subst hx
    simp [up, plug, hb]
  · simp [up, plug, hx]

lemma plug_sound (h : L.Sound) (hi : (L.slots p)[i]? = some none) (hc : L.parent c = none)
    (hb : L.before c = none) (hp : Chain L.up p l) (hl : c ∉ p :: l) : (L.plug p i c).Sound where
  held_iff q x := by
    simp only [holds_plug hi, exists_or]
    by_cases hx : x = c
    · subst hx
      have hn : ¬ ∃ j, L.Holds q j x := by simp [h.held_iff, hc]
      simp [plug, hn, eq_comm]
    · simp [plug, hx, h.held_iff]
  held_once q i' r j x hq hr := by
    have hn : ∀ q j, ¬ L.Holds q j c := by
      intro q j hj
      simp [h.parent_of_holds hj] at hc
    rw [holds_plug hi] at hq hr
    rcases hq with ⟨rfl, rfl, rfl⟩ | hq
    · rcases hr with ⟨rfl, rfl, _⟩ | hr
      · exact ⟨rfl, rfl⟩
      · exact (hn _ _ hr).elim
    · rcases hr with ⟨rfl, rfl, rfl⟩ | hr
      · exact (hn _ _ hq).elim
      · exact h.held_once _ _ _ _ _ hq hr
  after_iff := h.after_iff
  one_up x := by
    by_cases hx : x = c
    · exact .inr (hx ▸ hb)
    · simpa [plug, hx] using h.one_up x
  up_ends x := by
    rw [up_plug hb]
    have hp' : Chain (Function.update L.up c (some p)) p l := hp.congr fun y hy =>
      Function.update_of_ne (fun he : y = c => hl (he ▸ hy)) _ _
    obtain ⟨m, hm⟩ := h.up_ends x
    apply hm.transfer
    intro y _
    by_cases hy : y = c
    · exact .inr ⟨p :: l, .link (by simp [hy]) hp'⟩
    · exact .inl (Function.update_of_ne hy _ _)

lemma holds_cut : (L.cut c).Holds q j x ↔ x ≠ c ∧ L.Holds q j x := by
  simp only [Holds, cut, List.getElem?_map, Option.map_eq_some_iff]
  grind

lemma after_cut : (L.cut c).after a = some x ↔ x ≠ c ∧ L.after a = some x := by
  simp only [cut]
  grind

lemma up_cut : (L.cut c).up = Function.update L.up c none := by
  funext x
  by_cases hx : x = c
  · subst hx
    simp [up, cut]
  · simp [up, cut, hx]

lemma cut_sound (h : L.Sound) : (L.cut c).Sound where
  held_iff q x := by
    simp only [holds_cut, exists_and_left, h.held_iff]
    by_cases hx : x = c
    · simp [cut, hx]
    · simp [cut, hx]
  held_once q i r j x hq hr := h.held_once _ _ _ _ _ (holds_cut.mp hq).2 (holds_cut.mp hr).2
  after_iff a x := by
    rw [after_cut, h.after_iff]
    by_cases hx : x = c
    · simp [cut, hx]
    · simp [cut, hx]
  one_up x := by
    by_cases hx : x = c
    · simp [cut, hx]
    · simpa [cut, hx] using h.one_up x
  up_ends x := by
    rw [up_cut]
    obtain ⟨m, hm⟩ := h.up_ends x
    apply hm.transfer
    intro y _
    by_cases hy : y = c
    · exact .inr ⟨[], .last (by simp [hy])⟩
    · exact .inl (Function.update_of_ne hy _ _)

lemma cut_of_parent (h : L.Sound) (hp : L.parent c = some p) :
    L.cut c =
      { L with
        slots := Function.update L.slots p ((L.slots p).map fun s => if s = some c then none else s)
        parent := Function.update L.parent c none } := by
  have hb := h.before_of_parent hp
  refine ext_slots (fun x => ?_) (fun _ => rfl) (fun x => ?_) fun x => ?_
  · by_cases hx : x = p
    · simp [cut, hx]
    · have hpx : L.parent c ≠ some x := fun he => hx (Option.some.inj (he.symm.trans hp))
      simpa [cut, hx] using h.map_slots hpx none
  · by_cases hx : x = c
    · simp [cut, hx, hb]
    · simp [cut, hx]
  · have ha : L.after x ≠ some c := by simp [h.after_iff, hb]
    simp [cut, ha]

lemma cut_of_before (h : L.Sound) (hb : L.before c = some a) :
    L.cut c =
      { L with
        before := Function.update L.before c none
        after := Function.update L.after a none } := by
  have hp := h.parent_of_before hb
  refine ext_slots (fun x => ?_) (fun x => ?_) (fun _ => rfl) fun x => ?_
  · exact h.map_slots (by simp [hp]) none
  · by_cases hx : x = c
    · simp [cut, hx, hp]
    · simp [cut, hx]
  · have ha := h.after_iff x c
    by_cases hx : x = a
    · subst hx
      simp [cut, ha.mpr hb]
    · have hxa : L.after x ≠ some c := fun he => hx (Option.some.inj ((ha.mp he).symm.trans hb))
      simp [cut, hx, hxa]

lemma cut_of_free (h : L.Sound) (hp : L.parent c = none) (hb : L.before c = none) : L.cut c = L := by
  refine ext_slots (fun x => ?_) (fun x => ?_) (fun x => ?_) fun x => ?_
  · exact h.map_slots (by simp [hp]) none
  · by_cases hx : x = c
    · simp [cut, hx, hp]
    · simp [cut, hx]
  · by_cases hx : x = c
    · simp [cut, hx, hb]
    · simp [cut, hx]
  · have ha : L.after x ≠ some c := by simp [h.after_iff, hb]
    simp [cut, ha]

lemma up_graft : (L.graft a n t).up x = if x = n then some a else if L.after a = some x then some t else L.up x := by
  simp only [up, graft]
  split
  · rfl
  · split
    · rfl
    · rfl

lemma up_ends_graft (h : L.Sound) (hp : L.parent n = none) (hb : L.before n = none) (hm : Chain L.after n m)
    (ht : (n :: m).getLast (List.cons_ne_nil n m) = t) (ha : Chain L.up a l) (hl : n ∉ a :: l) (x : BlockId) :
    ∃ r, Chain (L.graft a n t).up x r := by
  have hup : L.up n = none := up_eq_none.mpr ⟨hb, hp⟩
  have htm : t ∈ n :: m := ht ▸ List.getLast_mem _
  obtain ⟨k, hk⟩ := h.up_ends t
  have hnk : n ∈ t :: k := h.mem_up_of_mem_after hm htm hk
  -- what was under `a` lies neither above `a` nor above the blocks that come between
  have hal : ∀ y ∈ a :: l, L.after a ≠ some y := fun y hy he =>
    ha.notMem (ha.next_mem hy (h.up_of_after he))
  have hak : ∀ y ∈ t :: k, L.after a ≠ some y := by
    intro y hy he
    have hyl : Chain L.up y (a :: l) := .link (h.up_of_after he) ha
    rcases hk.connex hy hnk hyl (.last hup) with hny | hyn
    · rcases List.mem_cons.mp hny with rfl | hny
      · simp [h.after_iff, hb] at he
      · exact hl hny
    · rw [List.mem_singleton.mp hyn] at he
      simp [h.after_iff, hb] at he
  have ha' : Chain (L.graft a n t).up a l := ha.congr fun y hy => by
    rw [up_graft, if_neg (fun he : y = n => hl (he ▸ hy)), if_neg (hal y hy)]
  have hn' : Chain (L.graft a n t).up n (a :: l) := .link (by simp [up_graft]) ha'
  obtain ⟨k', hk'⟩ := hk.transfer (g := (L.graft a n t).up) fun y hy => by
    by_cases hyn : y = n
    · exact .inr ⟨a :: l, by rwa [hyn]⟩
    · exact .inl (by rw [up_graft, if_neg hyn, if_neg (hak y hy)])
  obtain ⟨r, hr⟩ := h.up_ends x
  apply hr.transfer
  intro y _
  by_cases hyn : y = n
  · exact .inr ⟨a :: l, by rwa [hyn]⟩
  · by_cases hay : L.after a = some y
    · exact .inr ⟨_, .link (by rw [up_graft, if_neg hyn, if_pos hay]) hk'⟩
    · exact .inl (by rw [up_graft, if_neg hyn, if_neg hay])

lemma graft_sound (h : L.Sound) (hp : L.parent n = none) (hb : L.before n = none) (hm : Chain L.after n m)
    (ht : (n :: m).getLast (List.cons_ne_nil n m) = t) (ha : Chain L.up a l) (hl : n ∉ a :: l) :
    (L.graft a n t).Sound where
  held_iff := h.held_iff
  held_once := h.held_once
  after_iff x y := by
    have htn : L.after t = none := ht ▸ hm.getLast_eq_none
    have hta : a ≠ t := by
      rintro rfl
      obtain ⟨k, hk⟩ := h.up_ends a
      exact hl (ha.unique hk ▸ h.mem_up_of_mem_after hm (ht ▸ List.getLast_mem _) hk)
    have hx := h.after_iff x y
    have hay := h.after_iff a y
    simp only [graft]
    grind
  one_up x := by
    have hx := h.one_up x
    have hax := h.after_iff a x
    simp only [graft]
    grind
  up_ends := up_ends_graft h hp hb hm ht ha hl

lemma bypass_of_parent (h : L.Sound) (hp : L.parent d = some p) :
    L.bypass d =
      { slots := Function.update L.slots p ((L.slots p).map fun s => if s = some d then L.after d else s)
        parent := fun x => if L.after d = some x then some p else L.parent x
        before := fun x => if L.after d = some x then none else L.before x
        after := L.after } := by
  have hb := h.before_of_parent hp
  refine ext_slots (fun x => ?_) (fun x => ?_) (fun x => ?_) fun x => ?_
  · by_cases hx : x = p
    · simp [bypass, hx]
    · have hpx : L.parent d ≠ some x := fun he => hx (Option.some.inj (he.symm.trans hp))
      simpa [bypass, hx] using h.map_slots hpx (L.after d)
  · simp only [bypass, hp]
  · simp only [bypass, hb]
  · have ha : L.after x ≠ some d := by simp [h.after_iff, hb]
    simp [bypass, ha]

lemma parent_bypass_of_free (h : L.Sound) (hp : L.parent d = none) : (L.bypass d).parent = L.parent := by
  funext x
  by_cases hx : L.after d = some x
  · have hd := h.parent_of_before ((h.after_iff d x).mp hx)
    simp [bypass, hx, hp, hd]
  · simp [bypass, hx]

lemma bypass_of_before (h : L.Sound) (hb : L.before d = some a) :
    L.bypass d =
      { L with
        before := fun x => if L.after d = some x then some a else L.before x
        after := Function.update L.after a (L.after d) } := by
  have hp := h.parent_of_before hb
  refine ext_slots (fun x => ?_) (congrFun (parent_bypass_of_free h hp)) (fun x => ?_) fun x => ?_
  · exact h.map_slots (by simp [hp]) (L.after d)
  · simp only [bypass, hb]
  · have ha := h.after_iff x d
    by_cases hx : x = a
    · subst hx
      simp [bypass, ha.mpr hb]
    · have hxd : L.after x ≠ some d := fun he => hx (Option.some.inj ((ha.mp he).symm.trans hb))
      simp [bypass, hx, hxd]

lemma bypass_of_free (h : L.Sound) (hp : L.parent d = none) (hb : L.before d = none) :
    L.bypass d = { L with before := fun x => if L.after d = some x then none else L.before x } := by
  refine ext_slots (fun x => ?_) (congrFun (parent_bypass_of_free h hp)) (fun x => ?_) fun x => ?_
  · exact h.map_slots (by simp [hp]) (L.after d)
  · simp only [bypass, hb]
  · have ha : L.after x ≠ some d := by simp [h.after_iff, hb]
    simp [bypass, ha]

lemma holds_splice : (L.splice d).Holds q j x ↔
    (x ≠ d ∧ L.Holds q j x) ∨ (L.Holds q j d ∧ L.after d = some x) := by
  simp only [Holds, splice, List.getElem?_map, Option.map_eq_some_iff]
  grind

lemma up_splice : (L.splice d).up x = if x = d then none else if L.after d = some x then L.up d else L.up x := by
  simp only [up, splice]
  split
  · rfl
  · split
    · rfl
    · rfl

lemma up_ends_below_splice (h : L.Sound) (hy : L.after d = some y) : ∃ k, Chain (L.splice d).up y k := by
  obtain ⟨k, hk⟩ := h.up_ends d
  have hyd : y ≠ d := (h.after_ne hy).symm
  have hup : (L.splice d).up y = L.up d := by rw [up_splice, if_neg hyd, if_pos hy]
  cases hk with
  | last hn => exact ⟨[], .last (hup.trans hn)⟩
  | @link _ a k ha hk =>
    -- above `d` nothing changes
    have hdk : d ∉ a :: k := (Chain.link ha hk).notMem
    refine ⟨a :: k, .link (hup.trans ha) (hk.congr fun z hz => ?_)⟩
    have hdz : L.after d ≠ some z := fun he => hdk (List.mem_cons_of_mem _ (hk.next_mem hz (h.up_of_after he)))
    rw [up_splice, if_neg (fun he : z = d => hdk (he ▸ hz)), if_neg hdz]

lemma splice_sound (h : L.Sound) : (L.splice d).Sound where
  held_iff q x := by
    have hd := h.after_iff d x
    have hx := h.one_up x
    have hne := fun he : L.after d = some d => h.after_ne he rfl
    simp only [holds_splice, exists_or, exists_and_left, exists_and_right, h.held_iff]
    simp only [splice]
    grind
  held_once q i r j x hq hr := by
    have hb := fun (s k) (hk : L.Holds s k x) => h.before_of_parent (h.parent_of_holds hk)
    have hd := h.after_iff d x
    rw [holds_splice] at hq hr
    rcases hq with ⟨_, hq⟩ | ⟨hq, ha⟩
    · rcases hr with ⟨_, hr⟩ | ⟨_, ha⟩
      · exact h.held_once _ _ _ _ _ hq hr
      · simp [hb _ _ hq, ha] at hd
    · rcases hr with ⟨_, hr⟩ | ⟨hr, _⟩
      · simp [hb _ _ hr, ha] at hd
      · exact h.held_once _ _ _ _ _ hq hr
  after_iff x y := by
    have hxy := h.after_iff x y
    have hxd := h.after_iff x d
    have hdy := h.after_iff d y
    have hne := fun he : L.after d = some d => h.after_ne he rfl
    simp only [splice]
    grind
  one_up x := by
    have hd := h.one_up d
    have hx := h.one_up x
    simp only [splice]
    grind
  up_ends x := by
    obtain ⟨m, hm⟩ := h.up_ends x
    apply hm.transfer
    intro y _
    by_cases hyd : y = d
    · exact .inr ⟨[], .last (by rw [up_splice, if_pos hyd])⟩
    · by_cases hy : L.after d = some y
      · exact .inr (up_ends_below_splice h hy)
      · exact .inl (by rw [up_splice, if_neg hyd, if_neg hy])

lemma holds_drop : (L.drop S).Holds q j x ↔ q ∉ S ∧ L.Holds q j x := by
  by_cases hq : q ∈ S
  · simp [Holds, drop, hq]
  · simp [Holds, drop, hq]

lemma up_drop : (L.drop S).up x = if x ∈ S then none else L.up x := by
  simp only [up, drop]
  split
  · rfl
  · rfl

lemma drop_sound (h : L.Sound) (hS : L.Closed S) : (L.drop S).Sound where
  held_iff q x := by
    have hx := fun hq : L.parent x = some q => hS x q (h.up_of_parent hq)
    simp only [holds_drop, exists_and_left, h.held_iff]
    simp only [drop]
    grind
  held_once q i r j x hq hr := h.held_once _ _ _ _ _ (holds_drop.mp hq).2 (holds_drop.mp hr).2
  after_iff x y := by
    have hxy := h.after_iff x y
    have hy := fun hb : L.before y = some x => hS y x (up_of_before hb)
    simp only [drop]
    grind
  one_up x := by
    have hx := h.one_up x
    simp only [drop]
    grind
  up_ends x := by
    obtain ⟨m, hm⟩ := h.up_ends x
    apply hm.transfer
    intro y _
    by_cases hy : y ∈ S
    · exact .inr ⟨[], .last (by rw [up_drop, if_pos hy])⟩
    · exact .inl (by rw [up_drop, if_neg hy])

end BlockStudio.Links
