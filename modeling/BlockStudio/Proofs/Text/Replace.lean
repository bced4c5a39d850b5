import BlockStudio.Proofs.Text.Pairs

namespace BlockStudio.Text

variable {old new cs : List Char} {n : ℕ}

lemma replaceChars_of_le (ho : old ≠ []) (h : cs.length ≤ n) :
    replaceChars old new n cs = replaceChars old new cs.length cs := by
  induction hk : cs.length using Nat.strongRecOn generalizing cs n with
  | ind k ih =>
    cases cs with
    | nil => cases n <;> cases k <;> rfl
    | cons c cs =>
      obtain ⟨n, rfl⟩ : ∃ m, n = m + 1 := ⟨n - 1, by simp only [List.length_cons] at h; omega⟩
      subst hk
      simp only [List.length_cons, Nat.add_le_add_iff_right] at h
      rw [replaceChars, List.length_cons, replaceChars]
      cases hd : dropLead? old (c :: cs) with
      | none =>
        exact congrArg (c :: ·) ((ih cs.length (Nat.lt_succ_self _) h rfl))
      | some rest =>
        have hl := congrArg List.length (dropLead?_eq_some_iff.mp hd)
        have hpos := List.length_pos_iff.mpr ho
        simp only [List.length_append, List.length_cons] at hl
        have hr : rest.length ≤ cs.length := by omega
        dsimp only
        rw [ih rest.length (by simp only [List.length_cons]; omega) (Nat.le_trans hr h) rfl,
          ih rest.length (by simp only [List.length_cons]; omega) hr rfl]

end BlockStudio.Text
