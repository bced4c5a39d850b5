import BlockStudio.Proofs.Text.Grammar
import BlockStudio.Proofs.Yail.Reader
import BlockStudio.Yail.Literal

namespace BlockStudio.Yail

variable {c : Char} {cs : List Char}

structure IsToken (s : String) : Prop where
  ne_nil : s.toList ≠ []
  chars : ∀ c ∈ s.toList, isAtomChar c = true

instance (s : String) : Decidable (IsToken s) :=
  decidable_of_iff (s.toList ≠ [] ∧ s.toList.all isAtomChar = true)
    ⟨fun h => ⟨h.1, List.all_eq_true.mp h.2⟩, fun h => ⟨h.1, List.all_eq_true.mpr h.2⟩⟩

lemma IsToken.append {s t : String} (hs : IsToken s) (ht : ∀ c ∈ t.toList, isAtomChar c = true) : IsToken (s ++ t) where
  ne_nil := by
    rw [String.toList_append]
    exact List.append_ne_nil_of_left_ne_nil hs.ne_nil _
  chars c hc := by
    rw [String.toList_append] at hc
    rcases List.mem_append.mp hc with hc | hc
    · exact hs.chars c hc
    · exact ht c hc

lemma IsToken.read?_eq {s : String} (h : IsToken s) : read? s = some [.atom s] := by
  simpa using read?_of_reads (Reads.atom h.ne_nil h.chars)

section Number

open Text

variable {label t : String}

lemma isAtomChar_of_inRanges {rs : List (ℕ × ℕ)} (hb : ∀ a ∈ rs, ∀ b ∈ blankRanges, a.2 < b.1 ∨ b.2 < a.1)
    (hs : (specialChars.all fun d => !inRanges rs d) = true) (hc : inRanges rs c = true) :
    isAtomChar c = true := by
  have hblank : isBlank c = false := inRanges_disjoint hb hc
  have hspecial : c ∉ specialChars := fun hm => by simpa [hc] using List.all_eq_true.mp hs c hm
  rw [isAtomChar, hblank, List.contains_eq_mem, decide_eq_false hspecial]
  rfl

lemma isAtomChar_of_isDecimalDigit (hc : isDecimalDigit c = true) : isAtomChar c = true :=
  isAtomChar_of_inRanges (by decide +kernel) (by decide +kernel) hc

lemma isAtomChar_of_isHexDigit (hc : isHexDigit c = true) : isAtomChar c = true :=
  isAtomChar_of_inRanges (by decide) (by decide) hc

lemma isAtomChar_upperHex (hc : isHexDigit c = true) : isAtomChar (upperHex c) = true := by
  have hsmall : ∀ n < 0x80, isHexDigit (Char.ofNat n) = true → isAtomChar (upperHex (Char.ofNat n)) = true := by
    decide +kernel
  have hlt : c.toNat < 0x80 := by
    simp only [isHexDigit, inRanges, List.any_cons, List.any_nil, Bool.or_false, Bool.or_eq_true, Bool.and_eq_true,
      decide_eq_true_eq] at hc
    omega
  rw [← Char.ofNat_toNat c] at hc ⊢
  exact hsmall c.toNat hlt hc

lemma isToken_of_mem_numeral (h : t.toList ∈ numeral isDecimalDigit) : IsToken t where
  ne_nil := ne_nil_of_mem_numeral h
  chars := forall_of_mem_numeral h (fun _ => isAtomChar_of_isDecimalDigit) (by decide)

lemma isToken_hex {lead : String} (hl : IsToken lead) (hcs : ∀ c ∈ cs, isAtomChar c = true) :
    IsToken (lead ++ String.ofList cs) := hl.append fun c hc => hcs c (by simpa using hc)

lemma isToken_colorLiteral (h : colorLiteral? label = some t) : IsToken t := by
  rw [colorLiteral?] at h
  split at h
  · rename_i hall
    have hupper : ∀ c ∈ (colorDigits label).map upperHex, isAtomChar c = true := by
      intro c hc
      obtain ⟨d, hd, rfl⟩ := List.mem_map.mp hc
      exact isAtomChar_upperHex (List.all_eq_true.mp hall d hd)
    split at h
    · obtain rfl := Option.some.inj h
      exact isToken_hex (by decide) hupper
    · split at h
      · obtain rfl := Option.some.inj h
        exact isToken_hex (by decide) hupper
      · cases h
  · cases h

end Number

end BlockStudio.Yail
