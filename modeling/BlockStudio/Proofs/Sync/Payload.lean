import BlockStudio.Proofs.Text.Replace
import BlockStudio.Sync.Payload
import Mathlib.Data.List.TakeWhile

namespace BlockStudio.Payload

open Text

variable {old new cs rest : List Char} {a c : Char}

lemma replaceAll_lead (ho : old ≠ []) (rest : List Char) :
    replaceAll old new (old ++ rest) = new ++ replaceAll old new rest := by
  cases old with
  | nil => exact absurd rfl ho
  | cons o old =>
    rw [replaceAll, List.cons_append, List.length_cons, replaceChars]
    have hd : dropLead? (o :: old) (o :: (old ++ rest)) = some rest := dropLead?_append (o :: old) rest
    rw [hd]
    dsimp only
    rw [replaceChars_of_le ho (by simp), replaceAll]

lemma replaceAll_cons (hd : dropLead? old (c :: cs) = none) :
    replaceAll old new (c :: cs) = c :: replaceAll old new cs := by
  rw [replaceAll, List.length_cons, replaceChars, hd, replaceAll]

/-- The three replacements at once. -/
def escapeOnce : List Char → List Char
  | [] => []
  | '&' :: cs => '&' :: '0' :: escapeOnce cs
  | '<' :: '<' :: cs => '&' :: '1' :: escapeOnce cs
  | '>' :: '>' :: cs => '&' :: '2' :: escapeOnce cs
  | c :: cs => c :: escapeOnce cs

lemma replaceAll_single (cs : List Char) : replaceAll [a] new (a :: cs) = new ++ replaceAll [a] new cs :=
  replaceAll_lead (List.cons_ne_nil a []) cs

lemma replaceAll_single_of_ne (h : c ≠ a) : replaceAll [a] new (c :: cs) = c :: replaceAll [a] new cs :=
  replaceAll_cons (by simp [dropLead?, Ne.symm h])

lemma replaceAll_pair (cs : List Char) : replaceAll [a, a] new (a :: a :: cs) = new ++ replaceAll [a, a] new cs :=
  replaceAll_lead (List.cons_ne_nil a [a]) cs

lemma replaceAll_pair_of_ne (h : ¬ (c = a ∧ cs.head? = some a)) :
    replaceAll [a, a] new (c :: cs) = c :: replaceAll [a, a] new cs :=
  replaceAll_cons (dropLead?_pair (by simpa using h))

lemma head?_replaceAll_single (hc : c ≠ '&') (h : (replaceAll [a] ('&' :: new) cs).head? = some c) :
    cs.head? = some c := by
  cases cs with
  | nil => cases h
  | cons x cs =>
    by_cases hx : x = a
    · subst hx
      rw [replaceAll_single] at h
      exact absurd (Option.some.inj h).symm hc
    · rwa [replaceAll_single_of_ne hx] at h

lemma head?_replaceAll_pair (hc : c ≠ '&') (h : (replaceAll [a, a] ('&' :: new) cs).head? = some c) :
    cs.head? = some c := by
  cases cs with
  | nil => cases h
  | cons x cs =>
    by_cases hx : x = a ∧ cs.head? = some a
    · obtain ⟨rfl, hh⟩ := hx
      obtain ⟨cs, rfl⟩ := List.head?_eq_some_iff.mp hh
      rw [replaceAll_pair] at h
      exact absurd (Option.some.inj h).symm hc
    · rwa [replaceAll_pair_of_ne hx] at h

lemma escapeChars_eq (cs : List Char) : escapeChars cs = escapeOnce cs := by
  rw [escapeChars]
  induction cs using escapeOnce.induct with
  | case1 => rfl
  | case2 cs ih =>
    rw [escapeOnce, ← ih, replaceAll_single]
    simp only [List.cons_append, List.nil_append]
    rw [replaceAll_pair_of_ne (by simp), replaceAll_pair_of_ne (by simp), replaceAll_pair_of_ne (by simp),
      replaceAll_pair_of_ne (by simp)]
  | case3 cs ih =>
    rw [escapeOnce, ← ih, replaceAll_single_of_ne (by decide), replaceAll_single_of_ne (by decide),
      replaceAll_pair]
    simp only [List.cons_append, List.nil_append]
    rw [replaceAll_pair_of_ne (by simp), replaceAll_pair_of_ne (by simp)]
  | case4 cs ih =>
    rw [escapeOnce, ← ih, replaceAll_single_of_ne (by decide), replaceAll_single_of_ne (by decide),
      replaceAll_pair_of_ne (a := '<') (by simp), replaceAll_pair_of_ne (a := '<') (by simp), replaceAll_pair]
    rfl
  | case5 c cs h₁ h₂ h₃ ih =>
    have hlt : ¬ (c = '<' ∧ cs.head? = some '<') := fun ⟨hc, hh⟩ => by
      obtain ⟨ds, rfl⟩ := List.head?_eq_some_iff.mp hh
      exact h₂ ds hc rfl
    have hgt : ¬ (c = '>' ∧ cs.head? = some '>') := fun ⟨hc, hh⟩ => by
      obtain ⟨ds, rfl⟩ := List.head?_eq_some_iff.mp hh
      exact h₃ ds hc rfl
    rw [escapeOnce, ← ih, replaceAll_single_of_ne h₁, replaceAll_pair_of_ne, replaceAll_pair_of_ne]
    · rintro ⟨hc, hh⟩
      exact hgt ⟨hc, head?_replaceAll_single (by decide) (head?_replaceAll_pair (by decide) hh)⟩
    · rintro ⟨hc, hh⟩
      exact hlt ⟨hc, head?_replaceAll_single (by decide) hh⟩
    · exact h₁
    · exact h₂
    · exact h₃

lemma unescapeChars_cons (h : c ≠ '&') (cs : List Char) : unescapeChars (c :: cs) = c :: unescapeChars cs := by
  rw [unescapeChars]
  all_goals
    rintro _ rfl
    exact absurd rfl h

lemma unescape_escapeOnce (cs : List Char) : unescapeChars (escapeOnce cs) = cs := by
  induction cs using escapeOnce.induct with
  | case1 => rfl
  | case2 cs ih => rw [escapeOnce, unescapeChars, ih]
  | case3 cs ih => rw [escapeOnce, unescapeChars, ih]
  | case4 cs ih => rw [escapeOnce, unescapeChars, ih]
  | case5 c cs h₁ h₂ h₃ ih => rw [escapeOnce.eq_5 _ _ h₁ h₂ h₃, unescapeChars_cons h₁, ih]

lemma unescapeChars_concat (h : c ≠ '0' ∧ c ≠ '1' ∧ c ≠ '2' ∧ c ≠ '&') (cs : List Char) :
    unescapeChars (cs ++ [c]) = unescapeChars cs ++ [c] := by
  induction cs using unescapeChars.induct with
  | case1 => exact unescapeChars_cons h.2.2.2 []
  | case2 cs ih => simp [unescapeChars, ih]
  | case3 cs ih => simp [unescapeChars, ih]
  | case4 cs ih => simp [unescapeChars, ih]
  | case5 d cs h₁ h₂ h₃ ih =>
    rw [unescapeChars.eq_5 _ _ h₁ h₂ h₃, List.cons_append, List.cons_append, ← ih]
    rw [unescapeChars.eq_5]
    all_goals
      intro rest hd hr
      cases cs with
      | nil =>
        simp only [List.nil_append, List.cons.injEq] at hr
        simp [hr.1] at h
      | cons x cs =>
        obtain ⟨rfl, -⟩ := List.cons.inj hr
        first
          | exact h₁ cs hd rfl
          | exact h₂ cs hd rfl
          | exact h₃ cs hd rfl

lemma noPair_escapeOnce {a : Char} (ha : a = '<' ∨ a = '>') (cs : List Char) : NoPair a (escapeOnce cs) := by
  have hesc : ∀ (b : Char) (cs : List Char), b ≠ '<' → b ≠ '>' → NoPair a (escapeOnce cs) →
      NoPair a ('&' :: b :: escapeOnce cs) := by
    intro b cs hlt hgt hcs
    refine noPair_cons.mpr ⟨?_, noPair_cons.mpr ⟨?_, hcs⟩⟩
    · rcases ha with rfl | rfl <;> simp
    · rcases ha with rfl | rfl <;> simp [hlt, hgt]
  have hhead : ∀ cs : List Char, (escapeOnce cs).head? = some a → cs.head? = some a := by
    intro cs h
    have hne : a ≠ '&' := by rcases ha with rfl | rfl <;> decide
    rw [← escapeChars_eq, escapeChars] at h
    exact head?_replaceAll_single hne (head?_replaceAll_pair hne (head?_replaceAll_pair hne h))
  induction cs using escapeOnce.induct with
  | case1 => exact noPair_nil
  | case2 cs ih => exact hesc '0' cs (by decide) (by decide) ih
  | case3 cs ih => exact hesc '1' cs (by decide) (by decide) ih
  | case4 cs ih => exact hesc '2' cs (by decide) (by decide) ih
  | case5 c cs h₁ h₂ h₃ ih =>
    rw [escapeOnce.eq_5 _ _ h₁ h₂ h₃]
    refine noPair_cons.mpr ⟨fun ⟨hc, hh⟩ => ?_, ih⟩
    obtain ⟨ds, rfl⟩ := List.head?_eq_some_iff.mp (hhead cs hh)
    rcases ha with rfl | rfl
    · exact h₂ ds hc rfl
    · exact h₃ ds hc rfl

def trailing (a : Char) (cs : List Char) : ℕ := (cs.reverse.takeWhile (· = a)).length

lemma trailing_of_all (h : ∀ x ∈ cs, x = a) : trailing a cs = cs.length := by
  rw [trailing, List.takeWhile_eq_self_iff.mpr, List.length_reverse]
  exact fun x hx => decide_eq_true (h x (List.mem_reverse.mp hx))

lemma trailing_eq_zero (h : cs.getLast? ≠ some a) : trailing a cs = 0 := by
  rw [trailing, List.length_eq_zero_iff]
  rw [← List.head?_reverse] at h
  cases hcs : cs.reverse with
  | nil => rfl
  | cons c rest =>
    have hc : c ≠ a := fun hc => h (by rw [hcs, hc, List.head?_cons])
    exact List.takeWhile_cons_of_neg (by simpa using hc)

lemma trailing_cons (h : ¬ (c = a ∧ ∀ x ∈ cs, x = a)) : trailing a (c :: cs) = trailing a cs := by
  rw [trailing, List.reverse_cons, List.takeWhile_append, trailing]
  by_cases hall : ∀ x ∈ cs, x = a
  · have hfull : cs.reverse.takeWhile (fun x => decide (x = a)) = cs.reverse :=
      List.takeWhile_eq_self_iff.mpr fun x hx => decide_eq_true (hall x (List.mem_reverse.mp hx))
    have hc : c ≠ a := fun hc => h ⟨hc, hall⟩
    rw [hfull, if_pos rfl]
    simp [hc]
  · have hpart : (cs.reverse.takeWhile fun x => decide (x = a)).length ≠ cs.reverse.length := by
      intro he
      apply hall
      intro x hx
      have hs := (List.takeWhile_prefix (l := cs.reverse) fun x => decide (x = a)).eq_of_length he
      exact of_decide_eq_true (List.takeWhile_eq_self_iff.mp hs x (List.mem_reverse.mpr hx))
    rw [if_neg hpart]

lemma escapeOnce_eq_nil : escapeOnce cs = [] ↔ cs = [] := by
  constructor
  · intro h
    rw [← unescape_escapeOnce cs, h]
    rfl
  · rintro rfl
    rfl

lemma getLast?_escape {b : Char} (hb : b ≠ '>') (cs : List Char) :
    ('&' :: b :: cs).getLast? = some '>' ↔ cs.getLast? = some '>' := by
  rw [List.getLast?_cons_cons]
  cases cs with
  | nil => simp [hb]
  | cons x xs => rw [List.getLast?_cons_cons]

lemma getLast?_escapeOnce (cs : List Char) :
    (escapeOnce cs).getLast? = some '>' ↔ trailing '>' cs % 2 = 1 := by
  induction cs using escapeOnce.induct with
  | case1 => simp [escapeOnce, trailing]
  | case2 cs ih =>
    rw [escapeOnce, getLast?_escape (by decide), trailing_cons (by simp)]
    exact ih
  | case3 cs ih =>
    rw [escapeOnce, getLast?_escape (by decide), trailing_cons (by simp), trailing_cons (by simp)]
    exact ih
  | case4 cs ih =>
    rw [escapeOnce, getLast?_escape (by decide)]
    apply ih.trans
    by_cases hall : ∀ x ∈ cs, x = '>'
    · rw [trailing_of_all hall, trailing_of_all (by simpa using hall), List.length_cons, List.length_cons]
      omega
    · rw [trailing_cons (by simpa using hall), trailing_cons fun h => hall h.2]
  | case5 c cs h₁ h₂ h₃ ih =>
    rw [escapeOnce.eq_5 _ _ h₁ h₂ h₃]
    cases cs with
    | nil => by_cases hc : c = '>' <;> simp [escapeOnce, hc, trailing]
    | cons x xs =>
      have hx : ¬ (c = '>' ∧ ∀ y ∈ x :: xs, y = '>') := fun h =>
        h₃ xs h.1 (by rw [h.2 x List.mem_cons_self])
      rw [trailing_cons hx, ← ih]
      cases h : escapeOnce (x :: xs) with
      | nil => exact absurd (escapeOnce_eq_nil.mp h) (List.cons_ne_nil x xs)
      | cons y ys => rw [List.getLast?_cons_cons]

end BlockStudio.Payload
