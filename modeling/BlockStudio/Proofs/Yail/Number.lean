import BlockStudio.Proofs.Text.Pairs
import BlockStudio.Proofs.Yail.Token

namespace BlockStudio.Yail

open Text

variable {digit : Char → Bool} {c : Char} {cs ds : List Char} {label t : String}

inductive NumberToken (digit : Char → Bool) (label : String) : String → Prop
  | hex (ds : List Char) (hl : trimChars label.toList = '&' :: 'H' :: ds) (hd : ds ∈ digits isHexDigit) :
      NumberToken digit label ("#x" ++ String.ofList ds)
  | numeral (hn : trimChars label.toList ∈ Text.numeral digit) : NumberToken digit label (trim label)

lemma hexDigits?_eq_some : hexDigits? cs = some ds ↔ cs = '&' :: 'H' :: ds ∧ ds ∈ digits isHexDigit := by
  rw [hexDigits?, Option.filter_eq_some_iff, dropLead?_eq_some_iff, mem_digits, Bool.and_eq_true, Bool.not_eq_true',
    List.isEmpty_eq_false_iff, List.all_eq_true]
  rfl

lemma hexDigits?_of_mem_numeral (hn : cs ∈ numeral isDecimalDigit) : hexDigits? cs = none := by
  by_contra h
  obtain ⟨ds, hds⟩ := Option.ne_none_iff_exists'.mp h
  obtain ⟨rfl, -⟩ := hexDigits?_eq_some.mp hds
  have hdigit : ∀ c, isDecimalDigit c = true → (c != '&') = true := by
    intro c hc
    by_contra hamp
    obtain rfl : c = '&' := by simpa using hamp
    exact absurd hc (by decide +kernel)
  have hfirst := forall_of_mem_numeral hn hdigit (by decide) '&' List.mem_cons_self
  cases hfirst

lemma numberLiteral?_eq_some : numberLiteral? label = some t ↔ NumberToken isDecimalDigit label t := by
  rw [numberLiteral?, toList_trim]
  constructor
  · intro h
    split at h
    · rename_i ds hds
      obtain ⟨hl, hd⟩ := hexDigits?_eq_some.mp hds
      obtain rfl := Option.some.inj h
      exact .hex ds hl hd
    · split at h
      · rename_i hnumber
        obtain rfl := Option.some.inj h
        exact .numeral (isNumber_trim.mp hnumber)
      · cases h
  · intro h
    cases h with
    | hex ds hl hd => rw [hexDigits?_eq_some.mpr ⟨hl, hd⟩]
    | numeral hn => rw [hexDigits?_of_mem_numeral hn, isNumber_trim.mpr hn]; rfl

lemma NumberToken.isToken (h : NumberToken isDecimalDigit label t) : IsToken t := by
  cases h with
  | hex ds hl hd =>
    exact isToken_hex (by decide) fun c hc => isAtomChar_of_isHexDigit ((mem_digits.mp hd).2 c hc)
  | numeral hn =>
    apply isToken_of_mem_numeral
    rwa [toList_trim]

lemma isToken_numberLiteral (h : numberLiteral? label = some t) : IsToken t := (numberLiteral?_eq_some.mp h).isToken

section Ascii

lemma ascii_of_inRanges {rs : List (ℕ × ℕ)} (hr : ∀ a ∈ rs, a.2 < 0x80) (hc : inRanges rs c = true) :
    c.toNat < 0x80 := by
  obtain ⟨a, ha, hac⟩ := List.any_eq_true.mp hc
  simp only [Bool.and_eq_true, decide_eq_true_eq] at hac
  exact Nat.lt_of_le_of_lt hac.2 (hr a ha)

lemma isAsciiDigit_eq (c : Char) : isAsciiDigit c = (isDecimalDigit c && decide (c.toNat < 0x80)) := by
  have htable : isDecimalDigit c = (isAsciiDigit c || inRanges (digitZeros.tail.map fun z => (z, z + 9)) c) := by
    simp only [isAsciiDigit, isDecimalDigit, inRanges, digitZeros, List.map_cons, List.tail_cons, List.any_cons,
      List.any_nil, Bool.or_false]
  by_cases hlt : c.toNat < 0x80
  · have hsmall : inRanges [(0, 0x7F)] c = true := by
      simp only [inRanges, List.any_cons, List.any_nil, Bool.or_false, Bool.and_eq_true, decide_eq_true_eq]
      omega
    have hrest : inRanges (digitZeros.tail.map fun z => (z, z + 9)) c = false :=
      inRanges_disjoint (by decide +kernel) hsmall
    rw [htable, hrest, Bool.or_false, decide_eq_true hlt, Bool.and_true]
  · rw [decide_eq_false hlt, Bool.and_false, ← Bool.not_eq_true]
    exact fun hc => hlt (ascii_of_inRanges (by decide) hc)

lemma mem_numeral_ascii :
    cs ∈ numeral isAsciiDigit ↔ cs ∈ numeral isDecimalDigit ∧ ∀ c ∈ cs, c.toNat < 0x80 := by
  have h := Restricts.numeral (p := fun c => decide (c.toNat < 0x80)) (by decide) isDecimalDigit cs
  simp only [decide_eq_true_eq, ← isAsciiDigit_eq] at h
  exact h

lemma NumberToken.ascii (h : NumberToken isAsciiDigit label t) : ∀ c ∈ t.toList, c.toNat < 0x80 := by
  cases h with
  | hex ds hl hd =>
    rw [String.toList_append, String.toList_ofList (l := ds)]
    refine List.forall_mem_append.mpr ⟨by simp, fun c hc => ?_⟩
    have hdigit : isHexDigit c = true := (mem_digits.mp hd).2 c hc
    exact ascii_of_inRanges (by decide) hdigit
  | numeral hn =>
    rw [toList_trim]
    exact (mem_numeral_ascii.mp hn).2

lemma numberToken_ascii_iff : NumberToken isAsciiDigit label t ↔
    NumberToken isDecimalDigit label t ∧ ∀ c ∈ t.toList, c.toNat < 0x80 := by
  constructor
  · intro h
    refine ⟨?_, h.ascii⟩
    cases h with
    | hex ds hl hd => exact .hex ds hl hd
    | numeral hn => exact .numeral (mem_numeral_ascii.mp hn).1
  · rintro ⟨h, hascii⟩
    cases h with
    | hex ds hl hd => exact .hex ds hl hd
    | numeral hn =>
      rw [toList_trim] at hascii
      exact .numeral (mem_numeral_ascii.mpr ⟨hn, hascii⟩)

end Ascii

theorem foreign_digits_pass_iff (label : String) :
    (∀ t, numberLiteral? label = some t ↔ NumberToken isDecimalDigit label t) ∧
    ((∃ t, ¬(numberLiteral? label = some t ↔ NumberToken isAsciiDigit label t)) ↔
      trimChars label.toList ∈ numeral isDecimalDigit ∧ ∃ c ∈ trimChars label.toList, 0x80 ≤ c.toNat) ∧
    ∀ t, numberLiteral? label = some t →
      read? t = some [.atom t] ∧ (NumberToken isAsciiDigit label t ↔ ∀ c ∈ t.toList, c.toNat < 0x80) := by
  have hiff : ∀ t, NumberToken isAsciiDigit label t ↔
      numberLiteral? label = some t ∧ ∀ c ∈ t.toList, c.toNat < 0x80 := fun t => by
    rw [numberToken_ascii_iff, numberLiteral?_eq_some]
  refine ⟨fun t => numberLiteral?_eq_some, ⟨?_, ?_⟩, fun t ht => ⟨(isToken_numberLiteral ht).read?_eq, ?_⟩⟩
  · rintro ⟨t, ht⟩
    rw [hiff t, iff_self_and, Classical.not_imp] at ht
    obtain ⟨hliteral, hforeign⟩ := ht
    cases numberLiteral?_eq_some.mp hliteral with
    | hex ds hl hd => exact absurd (NumberToken.hex ds hl hd).ascii hforeign
    | numeral hn =>
      rw [toList_trim] at hforeign
      exact ⟨hn, by simpa using hforeign⟩
  · rintro ⟨hn, c, hc, hforeign⟩
    refine ⟨trim label, fun hsame => ?_⟩
    have hascii := ((hiff _).mp (hsame.mp (numberLiteral?_eq_some.mpr (.numeral hn)))).2 c
    rw [toList_trim] at hascii
    exact absurd (hascii hc) (Nat.not_lt.mpr hforeign)
  · exact (hiff t).trans (and_iff_right ht)

theorem arabicIndic_digits_pass :
    numberLiteral? "\u0661\u0662\u0663" = some "\u0661\u0662\u0663" ∧
      ¬NumberToken isAsciiDigit "\u0661\u0662\u0663" "\u0661\u0662\u0663" := by
  refine ⟨by decide +kernel, fun h => ?_⟩
  have hfirst := h.ascii '\u0661' (by decide)
  exact absurd hfirst (by decide)

end BlockStudio.Yail
