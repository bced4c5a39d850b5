import BlockStudio.Proofs.Text.Numeral
import Mathlib.Computability.Language
import Mathlib.Data.List.DropRight

/-! The texts that are numbers, as a language over the characters, and the reader that goes over them once. -/

/-- A set of texts. The project's own languages are something else. -/
abbrev CharLanguage : Type := Language Char

namespace BlockStudio.Text

open scoped Computability

def oneOf (p : Char → Bool) : CharLanguage := {cs | ∃ c, p c = true ∧ cs = [c]}

def sign : CharLanguage := oneOf ['+', '-'].contains

def point : CharLanguage := oneOf ['.'].contains

section Digits

variable (digit : Char → Bool)

def digits : CharLanguage := oneOf digit * (oneOf digit)∗

def mantissa : CharLanguage := digits digit * (1 + point) * (oneOf digit)∗ + point * digits digit

def exponent : CharLanguage := oneOf ['e', 'E'].contains * (1 + sign) * digits digit

def numeral : CharLanguage := (1 + sign) * mantissa digit * (1 + exponent digit)

end Digits

variable {p q digit : Char → Bool} {c : Char} {cs ds rest : List Char} {l l' m m' : CharLanguage}

lemma mem_kstar_oneOf : cs ∈ (oneOf p)∗ ↔ ∀ c ∈ cs, p c = true := by
  rw [Language.mem_kstar]
  constructor
  · rintro ⟨parts, rfl, hparts⟩ c hc
    obtain ⟨part, hpart, hmem⟩ := List.mem_flatten.mp hc
    obtain ⟨d, hd, rfl⟩ := hparts part hpart
    rwa [List.mem_singleton.mp hmem]
  · intro h
    refine ⟨cs.map fun c => [c], by rw [← List.flatMap_def, List.flatMap_singleton'], ?_⟩
    rintro part hpart
    obtain ⟨c, hc, rfl⟩ := List.mem_map.mp hpart
    exact ⟨c, h c hc, rfl⟩

lemma mem_digits : ds ∈ digits digit ↔ ds ≠ [] ∧ ∀ d ∈ ds, digit d = true := by
  rw [digits, Language.mem_mul]
  constructor
  · rintro ⟨first, ⟨c, hc, rfl⟩, more, hmore, rfl⟩
    exact ⟨List.cons_ne_nil c more, List.forall_mem_cons.mpr ⟨hc, mem_kstar_oneOf.mp hmore⟩⟩
  · rintro ⟨hne, hds⟩
    obtain ⟨c, more, rfl⟩ := List.exists_cons_of_ne_nil hne
    obtain ⟨hc, hmore⟩ := List.forall_mem_cons.mp hds
    exact ⟨[c], ⟨c, hc, rfl⟩, more, mem_kstar_oneOf.mpr hmore, rfl⟩

lemma mem_maybe : cs ∈ 1 + l ↔ cs = [] ∨ cs ∈ l := by
  rw [Language.mem_add, Language.mem_one]

/-- The second language is what the first has in the characters of a class. -/
def Restricts (p : Char → Bool) (l m : CharLanguage) : Prop := ∀ cs, cs ∈ m ↔ cs ∈ l ∧ ∀ c ∈ cs, p c = true

namespace Restricts

lemma oneOf (p q : Char → Bool) : Restricts p (oneOf q) (oneOf fun c => q c && p c) := by
  intro cs
  constructor
  · rintro ⟨c, hc, rfl⟩
    obtain ⟨hq, hp⟩ := Bool.and_eq_true_iff.mp hc
    exact ⟨⟨c, hq, rfl⟩, List.forall_mem_singleton.mpr hp⟩
  · rintro ⟨⟨c, hq, rfl⟩, hp⟩
    exact ⟨c, Bool.and_eq_true_iff.mpr ⟨hq, hp c (List.mem_singleton_self c)⟩, rfl⟩

lemma runs (p q : Char → Bool) : Restricts p (Text.oneOf q)∗ (Text.oneOf fun c => q c && p c)∗ := by
  intro cs
  simp only [mem_kstar_oneOf, Bool.and_eq_true, forall_and]

lemma marks {cs : List Char} (h : ∀ c ∈ cs, p c = true) :
    Restricts p (Text.oneOf cs.contains) (Text.oneOf cs.contains) := by
  rintro _
  constructor
  · rintro ⟨c, hc, rfl⟩
    exact ⟨⟨c, hc, rfl⟩, List.forall_mem_singleton.mpr (h c (List.contains_iff_mem.mp hc))⟩
  · exact fun hcs => hcs.1

lemma add (h : Restricts p l l') (h' : Restricts p m m') : Restricts p (l + m) (l' + m') := by
  intro cs
  rw [Language.mem_add, Language.mem_add, h cs, h' cs, or_and_right]

lemma maybe (h : Restricts p l l') : Restricts p (1 + l) (1 + l') := by
  apply add _ h
  intro cs
  rw [Language.mem_one, iff_self_and]
  rintro rfl
  exact List.forall_mem_nil _

lemma mul (h : Restricts p l l') (h' : Restricts p m m') : Restricts p (l * m) (l' * m') := by
  intro cs
  rw [Language.mem_mul, Language.mem_mul]
  constructor
  · rintro ⟨as, ha, bs, hb, rfl⟩
    obtain ⟨ha, hpa⟩ := (h as).mp ha
    obtain ⟨hb, hpb⟩ := (h' bs).mp hb
    exact ⟨⟨as, ha, bs, hb, rfl⟩, List.forall_mem_append.mpr ⟨hpa, hpb⟩⟩
  · rintro ⟨⟨as, ha, bs, hb, rfl⟩, hp⟩
    obtain ⟨hpa, hpb⟩ := List.forall_mem_append.mp hp
    exact ⟨as, (h as).mpr ⟨ha, hpa⟩, bs, (h' bs).mpr ⟨hb, hpb⟩, rfl⟩

lemma digits (p digit : Char → Bool) : Restricts p (digits digit) (digits fun c => digit c && p c) :=
  (oneOf p digit).mul (runs p digit)

lemma numeral (h : ['+', '-', '.', 'e', 'E'].all p = true) (digit : Char → Bool) :
    Restricts p (numeral digit) (numeral fun c => digit c && p c) := by
  rw [List.all_eq_true] at h
  have hsign : Restricts p sign sign := marks fun c hc => h c (List.subset_def.mp (by decide) hc)
  have hpoint : Restricts p point point := marks fun c hc => h c (List.subset_def.mp (by decide) hc)
  have hmark : Restricts p (Text.oneOf ['e', 'E'].contains) (Text.oneOf ['e', 'E'].contains) :=
    marks fun c hc => h c (List.subset_def.mp (by decide) hc)
  have hmantissa : Restricts p (mantissa digit) (mantissa fun c => digit c && p c) :=
    (((digits p digit).mul hpoint.maybe).mul (runs p digit)).add (hpoint.mul (digits p digit))
  have hexponent : Restricts p (exponent digit) (exponent fun c => digit c && p c) :=
    (hmark.mul hsign.maybe).mul (digits p digit)
  exact (hsign.maybe.mul hmantissa).mul hexponent.maybe

end Restricts

section Reader

lemma inRanges_disjoint {rs ss : List (ℕ × ℕ)} (h : ∀ a ∈ rs, ∀ b ∈ ss, a.2 < b.1 ∨ b.2 < a.1)
    (hc : inRanges rs c = true) : inRanges ss c = false := by
  obtain ⟨a, ha, hac⟩ := List.any_eq_true.mp hc
  rw [inRanges, List.any_eq_false]
  intro b hb hbc
  simp only [Bool.and_eq_true, decide_eq_true_eq] at hac hbc
  have hab := h a ha b hb
  omega

lemma not_isBlank_of_isDecimalDigit (hc : isDecimalDigit c = true) : isBlank c = false :=
  inRanges_disjoint (by decide +kernel) hc

lemma not_isDecimalDigit_of_isBlank (hc : isBlank c = true) : isDecimalDigit c = false := by
  by_contra hd
  rw [not_isBlank_of_isDecimalDigit (by simpa using hd)] at hc
  cases hc

lemma contains_eq_false {marks : List Char} (hm : marks.any q = false) (hc : q c = true) : marks.contains c = false := by
  by_contra hmark
  have hmem : c ∈ marks := List.contains_iff_mem.mp (by simpa using hmark)
  exact List.any_eq_false.mp hm c hmem hc

lemma head?_any_eq_false (hq : ∀ c ∈ cs, q c = true) (hp : ∀ c, q c = true → p c = false) :
    cs.head?.any p = false := by
  cases cs with
  | nil => rfl
  | cons c cs => exact hp c (hq c List.mem_cons_self)

lemma exists_sign (cs : List Char) : ∃ s ∈ 1 + sign, cs = s ++ dropSign cs := by
  rw [dropSign.eq_def]
  split
  · exact ⟨['+'], mem_maybe.mpr (.inr ⟨'+', rfl, rfl⟩), rfl⟩
  · exact ⟨['-'], mem_maybe.mpr (.inr ⟨'-', rfl, rfl⟩), rfl⟩
  · exact ⟨[], mem_maybe.mpr (.inl rfl), rfl⟩

lemma dropSign_append {s : List Char} (hs : s ∈ 1 + sign) (hr : rest.head?.any ['+', '-'].contains = false) :
    dropSign (s ++ rest) = rest := by
  rcases mem_maybe.mp hs with rfl | ⟨c, hc, rfl⟩
  · rw [List.nil_append, dropSign.eq_def]
    split
    · cases hr
    · cases hr
    · rfl
  · obtain rfl | rfl : c = '+' ∨ c = '-' := by simpa using hc
    · rfl
    · rfl

lemma exists_digits (h : dropDigits? cs = some rest) : ∃ ds ∈ digits isDecimalDigit, cs = ds ++ rest := by
  obtain ⟨ds, hne, hd, rfl⟩ := exists_digits_of_dropDigits? h
  exact ⟨ds, mem_digits.mpr ⟨hne, hd⟩, rfl⟩

lemma head?_append_any_eq_false (hne : ds ≠ []) (hq : ∀ d ∈ ds, q d = true) (hp : ∀ c, q c = true → p c = false)
    (rest : List Char) : (ds ++ rest).head?.any p = false := by
  obtain ⟨d, ds, rfl⟩ := List.exists_cons_of_ne_nil hne
  exact hp d (hq d List.mem_cons_self)

lemma exists_mantissa (h : dropMantissa? cs = some rest) : ∃ m ∈ mantissa isDecimalDigit, cs = m ++ rest := by
  rw [dropMantissa?.eq_def] at h
  split at h
  · rename_i after hd
    obtain ⟨ds, hds, rfl⟩ := exists_digits hd
    obtain rfl := Option.some.inj h
    refine ⟨ds ++ ['.'] ++ after.takeWhile isDecimalDigit, .inl ?_, ?_⟩
    · refine Language.append_mem_mul (Language.append_mem_mul hds (.inr ⟨'.', rfl, rfl⟩)) ?_
      exact mem_kstar_oneOf.mpr fun c hc => List.mem_takeWhile_imp hc
    · rw [List.append_assoc, List.append_assoc, List.takeWhile_append_dropWhile]
      rfl
  · rename_i hd
    obtain ⟨ds, hds, rfl⟩ := exists_digits hd
    obtain rfl := Option.some.inj h
    refine ⟨ds ++ [] ++ [], .inl ?_, by simp⟩
    exact Language.append_mem_mul (Language.append_mem_mul hds (.inl rfl)) (Language.nil_mem_kstar _)
  · split at h
    · obtain ⟨ds, hds, rfl⟩ := exists_digits h
      exact ⟨['.'] ++ ds, .inr (Language.append_mem_mul ⟨'.', rfl, rfl⟩ hds), rfl⟩
    · cases h

lemma dropMantissa?_append {m : List Char} (hm : m ∈ mantissa isDecimalDigit)
    (hr : rest.head?.any isDecimalDigit = false) (hp : rest.head?.any ['.'].contains = false) :
    dropMantissa? (m ++ rest) = some rest := by
  rcases hm with ⟨_, ⟨ds, hds, s, hs, rfl⟩, more, hmore, rfl⟩ | ⟨_, ⟨c, hc, rfl⟩, ds, hds, rfl⟩
  · obtain ⟨hne, hd⟩ := mem_digits.mp hds
    have hmore := mem_kstar_oneOf.mp hmore
    rcases hs with rfl | ⟨c, hc, rfl⟩
    · have hall : dropDigits? (ds ++ more ++ rest) = some rest :=
        dropDigits?_append (List.append_ne_nil_of_left_ne_nil hne more) (List.forall_mem_append.mpr ⟨hd, hmore⟩) hr
      show dropMantissa? (ds ++ [] ++ more ++ rest) = some rest
      rw [List.append_nil, dropMantissa?.eq_def, hall]
      split
      · rename_i hdot
        obtain rfl := Option.some.inj hdot
        cases hp
      · rename_i hrest
        exact hrest.symm
      · contradiction
    · obtain rfl : c = '.' := by simpa using hc
      have hfirst : dropDigits? (ds ++ '.' :: (more ++ rest)) = some ('.' :: (more ++ rest)) :=
        dropDigits?_append hne hd rfl
      show dropMantissa? (ds ++ ['.'] ++ more ++ rest) = some rest
      rw [List.append_assoc, List.append_assoc, List.singleton_append, dropMantissa?.eq_def, hfirst]
      exact congrArg some (dropWhile_append_of_head hmore hr)
  · obtain ⟨hne, hd⟩ := mem_digits.mp hds
    obtain rfl : c = '.' := by simpa using hc
    exact dropDigits?_append hne hd hr

lemma exists_exponent (h : dropExponent? cs = some rest) : ∃ e ∈ 1 + exponent isDecimalDigit, cs = e ++ rest := by
  have hmarked : ∀ c tail, ['e', 'E'].contains c = true → dropDigits? (dropSign tail) = some rest →
      ∃ e ∈ 1 + exponent isDecimalDigit, c :: tail = e ++ rest := by
    intro c tail hc hdigits
    obtain ⟨ds, hds, hds'⟩ := exists_digits hdigits
    obtain ⟨s, hs, hs'⟩ := exists_sign tail
    refine ⟨[c] ++ s ++ ds, .inr (Language.append_mem_mul (Language.append_mem_mul ⟨c, hc, rfl⟩ hs) hds), ?_⟩
    rw [List.append_assoc, List.append_assoc, ← hds', ← hs']
    rfl
  rw [dropExponent?.eq_def] at h
  split at h
  · exact hmarked 'e' _ rfl h
  · exact hmarked 'E' _ rfl h
  · obtain rfl := Option.some.inj h
    exact ⟨[], .inl rfl, rfl⟩

lemma dropExponent?_append {e : List Char} (he : e ∈ 1 + exponent isDecimalDigit) (hr : ∀ c ∈ rest, isBlank c = true) :
    dropExponent? (e ++ rest) = some rest := by
  rcases he with rfl | ⟨_, ⟨_, ⟨c, hc, rfl⟩, s, hs, rfl⟩, ds, hds, rfl⟩
  · rw [List.nil_append, dropExponent?.eq_def]
    split
    · exact absurd (hr 'e' List.mem_cons_self) (by decide)
    · exact absurd (hr 'E' List.mem_cons_self) (by decide)
    · rfl
  · obtain ⟨hne, hd⟩ := mem_digits.mp hds
    have htail : dropDigits? (dropSign (s ++ (ds ++ rest))) = some rest := by
      rw [dropSign_append hs (head?_append_any_eq_false hne hd (fun _ => contains_eq_false (by decide)) rest)]
      exact dropDigits?_append hne hd (head?_any_eq_false hr fun _ => not_isDecimalDigit_of_isBlank)
    show dropExponent? ([c] ++ s ++ ds ++ rest) = some rest
    rw [List.append_assoc, List.append_assoc, List.singleton_append]
    obtain rfl | rfl : c = 'e' ∨ c = 'E' := by simpa using hc
    · exact htail
    · exact htail

lemma head_exponent {e : List Char} (he : e ∈ 1 + exponent isDecimalDigit) (hr : ∀ c ∈ rest, isBlank c = true)
    (hp : ∀ c, isBlank c = true → p c = false) (hm : p 'e' = false ∧ p 'E' = false) :
    (e ++ rest).head?.any p = false := by
  rcases he with rfl | ⟨_, ⟨_, ⟨c, hc, rfl⟩, s, hs, rfl⟩, ds, hds, rfl⟩
  · exact head?_any_eq_false hr hp
  · obtain rfl | rfl : c = 'e' ∨ c = 'E' := by simpa using hc
    · exact hm.1
    · exact hm.2

lemma head_mantissa {m : List Char} (hm : m ∈ mantissa isDecimalDigit) (rest : List Char) :
    (m ++ rest).head?.any ['+', '-'].contains = false := by
  rcases hm with ⟨_, ⟨ds, hds, s, hs, rfl⟩, more, hmore, rfl⟩ | ⟨_, ⟨c, hc, rfl⟩, ds, hds, rfl⟩
  · obtain ⟨hne, hd⟩ := mem_digits.mp hds
    show (ds ++ s ++ more ++ rest).head?.any _ = false
    rw [List.append_assoc, List.append_assoc]
    exact head?_append_any_eq_false hne hd (fun _ => contains_eq_false (by decide)) _
  · obtain rfl : c = '.' := by simpa using hc
    rfl

lemma exists_numeral (h : (dropMantissa? (dropSign cs)).bind dropExponent? = some rest) :
    ∃ n ∈ numeral isDecimalDigit, cs = n ++ rest := by
  obtain ⟨tail, hmantissa, hexponent⟩ := Option.bind_eq_some_iff.mp h
  obtain ⟨s, hs, hcs⟩ := exists_sign cs
  obtain ⟨m, hm, hsigned⟩ := exists_mantissa hmantissa
  obtain ⟨e, he, rfl⟩ := exists_exponent hexponent
  refine ⟨s ++ m ++ e, Language.append_mem_mul (Language.append_mem_mul hs hm) he, ?_⟩
  rw [hcs, hsigned, List.append_assoc, List.append_assoc]

lemma dropNumeral_append {n : List Char} (hn : n ∈ numeral isDecimalDigit) (hr : ∀ c ∈ rest, isBlank c = true) :
    (dropMantissa? (dropSign (n ++ rest))).bind dropExponent? = some rest := by
  obtain ⟨_, ⟨s, hs, m, hm, rfl⟩, e, he, rfl⟩ := hn
  have hdigit : (e ++ rest).head?.any isDecimalDigit = false :=
    head_exponent he hr (fun _ => not_isDecimalDigit_of_isBlank) (by decide)
  have hpoint : (e ++ rest).head?.any ['.'].contains = false :=
    head_exponent he hr (fun _ => contains_eq_false (by decide)) (by decide)
  show (dropMantissa? (dropSign (s ++ m ++ e ++ rest))).bind dropExponent? = some rest
  rw [List.append_assoc, List.append_assoc, dropSign_append hs (head_mantissa hm _),
    dropMantissa?_append hm hdigit hpoint, Option.bind_some, dropExponent?_append he hr]

end Reader

lemma forall_of_mem_numeral (hn : cs ∈ numeral digit) (hd : ∀ c, digit c = true → p c = true)
    (hm : ['+', '-', '.', 'e', 'E'].all p = true) : ∀ c ∈ cs, p c = true := by
  have hsame : (fun c => digit c && p c) = digit := by
    funext c
    cases hc : digit c with
    | false => rfl
    | true => rw [hd c hc, Bool.and_true]
  have hiff := Restricts.numeral hm digit cs
  rw [hsame] at hiff
  exact (hiff.mp hn).2

lemma ne_nil_of_mem_numeral (hn : cs ∈ numeral isDecimalDigit) : cs ≠ [] := by
  rintro rfl
  have hread : (dropMantissa? (dropSign [])).bind dropExponent? = some [] := dropNumeral_append hn nofun
  cases hread

lemma not_isBlank_of_mem_numeral (hn : cs ∈ numeral isDecimalDigit) : ∀ c ∈ cs, isBlank c = false := by
  have h : ∀ c ∈ cs, (!isBlank c) = true :=
    forall_of_mem_numeral hn (fun c hc => by rw [not_isBlank_of_isDecimalDigit hc, Bool.not_false]) (by decide)
  simpa using h

lemma rdropWhile_append {n : List Char} (hn : ∀ c ∈ n, isBlank c = false) (hr : ∀ c ∈ rest, isBlank c = true) :
    (n ++ rest).rdropWhile isBlank = n := by
  have hrest : ∀ c ∈ rest.reverse, isBlank c = true := fun c hc => hr c (List.mem_reverse.mp hc)
  have hlast : n.reverse.head?.any isBlank = false := by
    cases hh : n.reverse.head? with
    | none => rfl
    | some c => exact hn c (List.mem_reverse.mp (List.mem_of_head? hh))
  rw [List.rdropWhile, List.reverse_append, dropWhile_append_of_head hrest hlast, List.reverse_reverse]

lemma isNumber_iff (s : String) : isNumber s = true ↔ trimChars s.toList ∈ numeral isDecimalDigit := by
  set body := s.toList.dropWhile isBlank with hbody
  have htrim : trimChars s.toList = body.rdropWhile isBlank := rfl
  have hsplit : body.rdropWhile isBlank ++ body.rtakeWhile isBlank = body := List.rdropWhile_append_rtakeWhile
  have hblank : ∀ c ∈ body.rtakeWhile isBlank, isBlank c = true := fun c hc => List.mem_rtakeWhile_imp hc
  rw [htrim, isNumber, ← hbody]
  constructor
  · intro h
    split at h
    · rename_i rest hrest
      obtain ⟨n, hn, hn'⟩ := exists_numeral hrest
      rwa [hn', rdropWhile_append (not_isBlank_of_mem_numeral hn) (List.all_eq_true.mp h)]
    · cases h
  · intro hn
    have hread := dropNumeral_append hn hblank
    rw [hsplit] at hread
    rw [hread]
    exact List.all_eq_true.mpr hblank

lemma dropWhile_trimChars (cs : List Char) : (trimChars cs).dropWhile isBlank = trimChars cs := by
  cases h : trimChars cs with
  | nil => rfl
  | cons c rest =>
    have hpre : c :: rest <+: cs.dropWhile isBlank := h ▸ List.rdropWhile_prefix isBlank _
    obtain ⟨more, hmore⟩ := hpre
    have hc : isBlank c = false := by
      have hne : cs.dropWhile isBlank ≠ [] := hmore ▸ List.cons_ne_nil c _
      simpa [← hmore] using List.head_dropWhile_not isBlank hne
    rw [List.dropWhile_cons_of_neg (by simp [hc])]

lemma toList_trim (s : String) : (trim s).toList = trimChars s.toList := String.toList_ofList

lemma isNumber_trim {s : String} : isNumber (trim s) = true ↔ trimChars s.toList ∈ numeral isDecimalDigit := by
  have hagain : trimChars (trimChars s.toList) = trimChars s.toList := by
    show ((trimChars s.toList).dropWhile isBlank).rdropWhile isBlank = _
    rw [dropWhile_trimChars]
    exact List.rdropWhile_idempotent isBlank _
  rw [isNumber_iff, toList_trim, hagain]

end BlockStudio.Text
