import BlockStudio.Text.Numeral
import BlockStudio.Text.Split
import Mathlib.Data.List.TakeWhile

namespace BlockStudio.Text

variable {c : Char} {cs ds rest : List Char} {n : ℕ}

lemma isAsciiDigit_iff : isAsciiDigit c = true ↔ c.isDigit = true := by
  simp only [isAsciiDigit, inRanges, List.any_cons, List.any_nil, Bool.or_false, Bool.and_eq_true,
    decide_eq_true_eq, Char.isDigit, ge_iff_le]
  rfl

lemma isDigit_of_mem_natText (h : c ∈ (natText n).toList) : c.isDigit = true := by
  rw [natText, Nat.toList_repr] at h
  exact Nat.isDigit_of_mem_toDigits (by decide) (by decide) h

lemma natText_ne_nil (n : ℕ) : (natText n).toList ≠ [] := by
  rw [natText, Nat.toList_repr]
  exact Nat.toDigits_ne_nil

lemma natOfDigits?_natText (n : ℕ) : natOfDigits? (natText n).toList = some n := by
  have hall : (natText n).toList.all isAsciiDigit = true :=
    List.all_eq_true.mpr fun c hc => isAsciiDigit_iff.mpr (isDigit_of_mem_natText hc)
  have hne : (natText n).toList.isEmpty = false := List.isEmpty_eq_false_iff.mpr (natText_ne_nil n)
  rw [natOfDigits?, hall, hne]
  simp only [Bool.not_false, Bool.and_self, if_true, Option.some.injEq]
  rw [natText, Nat.toList_repr]
  exact Nat.ofDigitChars_ten_toDigits

lemma natBelow?_natText {bound : ℕ} (h : n < bound) : natBelow? bound (natText n).toList = some n := by
  rw [natBelow?, natOfDigits?_natText, Option.filter_some, if_pos (decide_eq_true h)]

lemma natText_head (h : (natText n).toList = c :: cs) : c ≠ '+' ∧ c ≠ '-' := by
  have hd := isDigit_of_mem_natText (n := n) (h ▸ List.mem_cons_self)
  constructor
  all_goals
    rintro rfl
    simp [Char.isDigit] at hd

lemma integer?_natText (h : n < UInt64.size / 2) : integer? (natText n) = some n := by
  rw [integer?]
  split
  · rename_i hs
    exact absurd rfl (natText_head hs).1
  · rename_i hs
    exact absurd rfl (natText_head hs).2
  · rw [natBelow?_natText h]
    rfl

lemma lt_of_natBelow? {bound k : ℕ} (h : natBelow? bound cs = some k) : k < bound :=
  of_decide_eq_true (Option.filter_eq_some_iff.mp h).2

lemma lt_of_integer? {s : String} {z : Int} (h : integer? s = some z) : z < (UInt64.size / 2 : ℕ) := by
  rw [integer?] at h
  split at h
  · obtain ⟨k, hk, rfl⟩ := Option.map_eq_some_iff.mp h
    exact Int.ofNat_lt.mpr (lt_of_natBelow? hk)
  · obtain ⟨k, -, rfl⟩ := Option.map_eq_some_iff.mp h
    have hle : -Int.ofNat k ≤ 0 := Int.neg_nonpos_of_nonneg (Int.natCast_nonneg k)
    exact Int.lt_of_le_of_lt hle (by decide)
  · obtain ⟨k, hk, rfl⟩ := Option.map_eq_some_iff.mp h
    exact Int.ofNat_lt.mpr (lt_of_natBelow? hk)

lemma dropWhile_append_of_head {p : Char → Bool} (hd : ∀ d ∈ ds, p d = true) (hr : rest.head?.any p = false) :
    (ds ++ rest).dropWhile p = rest := by
  rw [List.dropWhile_append_of_pos hd]
  cases rest with
  | nil => rfl
  | cons c rest =>
    have hc : p c = false := hr
    rw [List.dropWhile_cons, hc]
    rfl

lemma dropDigits?_append (hne : ds ≠ []) (hd : ∀ d ∈ ds, isDecimalDigit d = true)
    (hr : rest.head?.any isDecimalDigit = false) : dropDigits? (ds ++ rest) = some rest := by
  cases ds with
  | nil => exact absurd rfl hne
  | cons d ds =>
    obtain ⟨hfirst, hmore⟩ := List.forall_mem_cons.mp hd
    rw [List.cons_append, dropDigits?, if_pos hfirst, dropWhile_append_of_head hmore hr]

lemma exists_digits_of_dropDigits? (h : dropDigits? cs = some rest) :
    ∃ ds, ds ≠ [] ∧ (∀ d ∈ ds, isDecimalDigit d = true) ∧ cs = ds ++ rest := by
  cases cs with
  | nil => cases h
  | cons c cs =>
    rw [dropDigits?] at h
    split at h
    · rename_i hc
      refine ⟨c :: cs.takeWhile isDecimalDigit, List.cons_ne_nil c _, ?_, ?_⟩
      · exact List.forall_mem_cons.mpr ⟨hc, fun d hd => List.mem_takeWhile_imp hd⟩
      · rw [← Option.some.inj h, List.cons_append, List.takeWhile_append_dropWhile]
    · cases h

end BlockStudio.Text
