import Mathlib.Data.List.Nodup
import Mathlib.Data.List.Perm.Subperm

namespace BlockStudio

variable {α : Type}

inductive Chain (next : α → Option α) : α → List α → Prop
  | last {x} : next x = none → Chain next x []
  | link {x y l} : next x = some y → Chain next y l → Chain next x (y :: l)

namespace Chain

variable {f g : α → Option α} {x y : α} {l m : List α}

lemma unique (h : Chain f x l) (h' : Chain f x m) : l = m := by
  induction h generalizing m with
  | last hx =>
    cases h' with
    | last _ => rfl
    | link hy _ => rw [hx] at hy; cases hy
  | link hy _ ih =>
    cases h' with
    | last hx => rw [hx] at hy; cases hy
    | link hz ht =>
      obtain rfl := Option.some.inj (hy.symm.trans hz)
      rw [ih ht]

lemma of_mem (h : Chain f x l) (hy : y ∈ x :: l) : ∃ m, Chain f y m ∧ (y :: m) <:+ (x :: l) := by
  induction h with
  | @last x hx =>
    obtain rfl := List.mem_singleton.mp hy
    exact ⟨[], .last hx, List.suffix_rfl⟩
  | @link x z l hz ht ih =>
    rcases List.mem_cons.mp hy with rfl | hy
    · exact ⟨z :: l, .link hz ht, List.suffix_rfl⟩
    · obtain ⟨m, hm, hs⟩ := ih hy
      exact ⟨m, hm, hs.trans (List.suffix_cons x (z :: l))⟩

lemma notMem (h : Chain f x l) : x ∉ l := by
  intro hx
  cases h with
  | last _ => cases hx
  | @link _ y l hy ht =>
    obtain ⟨m, hm, hs⟩ := ht.of_mem hx
    obtain rfl := hm.unique (.link hy ht)
    have hlen := hs.length_le
    simp only [List.length_cons] at hlen
    omega

lemma nodup (h : Chain f x l) : (x :: l).Nodup := by
  induction h with
  | last _ => simp
  | link hy ht ih => exact List.nodup_cons.mpr ⟨(Chain.link hy ht).notMem, ih⟩

lemma getLast_eq_none (h : Chain f x l) : f ((x :: l).getLast (List.cons_ne_nil x l)) = none := by
  induction h with
  | last hx => exact hx
  | link _ _ ih => exact ih

lemma next_mem (h : Chain f x l) (hy : y ∈ x :: l) {z : α} (hz : f y = some z) : z ∈ l := by
  induction h with
  | last hx =>
    obtain rfl := List.mem_singleton.mp hy
    rw [hx] at hz
    cases hz
  | link hw _ ih =>
    rcases List.mem_cons.mp hy with rfl | hy
    · obtain rfl := Option.some.inj (hz.symm.trans hw)
      exact List.mem_cons_self
    · exact List.mem_cons_of_mem _ (ih hy)

lemma connex (h : Chain f x l) {z : α} {k : List α} (hy : y ∈ x :: l) (hz : z ∈ x :: l)
    (hm : Chain f y m) (hk : Chain f z k) : z ∈ y :: m ∨ y ∈ z :: k := by
  induction h with
  | last _ =>
    obtain rfl := List.mem_singleton.mp hy
    exact .inl (List.mem_singleton.mp hz ▸ List.mem_cons_self)
  | link hw ht ih =>
    rcases List.mem_cons.mp hy with rfl | hy'
    · obtain rfl := (Chain.link hw ht).unique hm
      exact .inl hz
    · rcases List.mem_cons.mp hz with rfl | hz'
      · obtain rfl := (Chain.link hw ht).unique hk
        exact .inr (List.mem_cons_of_mem _ hy')
      · exact ih hy' hz'

lemma exists_prev (h : Chain f x l) (hy : y ∈ l) : ∃ z ∈ x :: l, f z = some y := by
  induction h with
  | last _ => cases hy
  | @link x w l hw _ ih =>
    rcases List.mem_cons.mp hy with rfl | hy
    · exact ⟨x, List.mem_cons_self, hw⟩
    · obtain ⟨z, hz, he⟩ := ih hy
      exact ⟨z, List.mem_cons_of_mem x hz, he⟩

lemma forall_mem {P : α → Prop} (h : Chain f x l) (hP : ∀ z y, f z = some y → P y) : ∀ y ∈ l, P y := by
  intro y hy
  obtain ⟨z, -, hz⟩ := h.exists_prev hy
  exact hP z y hz

lemma congr (h : Chain f x l) (he : ∀ y ∈ x :: l, g y = f y) : Chain g x l := by
  induction h with
  | last hx => exact .last ((he _ List.mem_cons_self).trans hx)
  | link hy _ ih =>
    exact .link ((he _ List.mem_cons_self).trans hy) (ih fun y hm => he y (List.mem_cons_of_mem _ hm))

lemma transfer (h : Chain f x l) (he : ∀ y ∈ x :: l, g y = f y ∨ ∃ m, Chain g y m) : ∃ m, Chain g x m := by
  induction h with
  | last hx =>
    rcases he _ List.mem_cons_self with hg | hm
    · exact ⟨[], .last (hg.trans hx)⟩
    · exact hm
  | link hy _ ih =>
    rcases he _ List.mem_cons_self with hg | hm
    · obtain ⟨m, hm⟩ := ih fun y hm => he y (List.mem_cons_of_mem _ hm)
      exact ⟨_, .link (hg.trans hy) hm⟩
    · exact hm

lemma reverse (hg : ∀ a b, g a = some b → f b = some a) (n : ℕ) (hn : ∀ a m, Chain f a m → m.length ≤ n)
    (h : Chain f x l) : ∃ m, Chain g x m := by
  induction hk : n - l.length generalizing x l with
  | zero =>
    cases hx : g x with
    | none => exact ⟨[], .last hx⟩
    | some y =>
      have hy := hn y _ (.link (hg x y hx) h)
      simp only [List.length_cons] at hy
      omega
  | succ k ih =>
    cases hx : g x with
    | none => exact ⟨[], .last hx⟩
    | some y =>
      obtain ⟨m, hm⟩ := ih (.link (hg x y hx) h) (by simp only [List.length_cons]; omega)
      exact ⟨y :: m, .link hx hm⟩

end Chain

end BlockStudio
