import BlockStudio.Text.Split
import Mathlib.Data.List.Chain

namespace BlockStudio

variable {α : Type} {a x y : α} {l m : List α}

def NoPair (a : α) (l : List α) : Prop := l.IsChain fun x y => ¬ (x = a ∧ y = a)

lemma noPair_nil : NoPair a [] := .nil

lemma noPair_singleton : NoPair a [x] := .singleton x

lemma noPair_cons : NoPair a (x :: l) ↔ ¬ (x = a ∧ l.head? = some a) ∧ NoPair a l := by
  rw [NoPair, List.isChain_cons, NoPair]
  refine and_congr_left fun _ => ⟨fun h hx => h a hx.2 ⟨hx.1, rfl⟩, fun h y hy hx => h ⟨hx.1, ?_⟩⟩
  rw [← hx.2]
  exact hy

lemma noPair_append : NoPair a (l ++ m) ↔
    NoPair a l ∧ NoPair a m ∧ ¬ (l.getLast? = some a ∧ m.head? = some a) := by
  rw [NoPair, List.isChain_append, NoPair, NoPair]
  refine and_congr_right fun _ => and_congr_right fun _ => ⟨fun h hx => h a hx.1 a hx.2 ⟨rfl, rfl⟩, ?_⟩
  rintro h x hx y hy ⟨rfl, rfl⟩
  exact h ⟨hx, hy⟩

lemma noPair_of_notMem (h : a ∉ l) : NoPair a l := by
  induction l with
  | nil => exact noPair_nil
  | cons x l ih =>
    rw [List.mem_cons, not_or] at h
    exact noPair_cons.mpr ⟨fun hx => h.1 hx.1.symm, ih h.2⟩

namespace Text

lemma dropLead?_append (lead cs : List Char) : dropLead? lead (lead ++ cs) = some cs := by
  induction lead with
  | nil => simp [dropLead?]
  | cons c lead ih => simp [dropLead?, ih]

lemma dropLead?_eq_some_iff {lead cs rest : List Char} : dropLead? lead cs = some rest ↔ cs = lead ++ rest := by
  refine ⟨fun h => ?_, fun h => h ▸ dropLead?_append lead rest⟩
  induction lead generalizing cs with
  | nil => simpa [dropLead?] using h
  | cons c lead ih =>
    cases cs with
    | nil => cases h
    | cons x cs =>
      rw [dropLead?] at h
      split at h
      · rename_i hx
        rw [hx, ih h, List.cons_append]
      · cases h

lemma stripLead?_eq_some_iff {lead s rest : String} : stripLead? lead s = some rest ↔ s = lead ++ rest := by
  rw [stripLead?, Option.map_eq_some_iff]
  constructor
  · rintro ⟨l, hl, rfl⟩
    refine String.toList_inj.mp ?_
    rw [dropLead?_eq_some_iff.mp hl, String.toList_append, String.toList_ofList]
  · rintro rfl
    exact ⟨rest.toList, dropLead?_eq_some_iff.mpr String.toList_append, String.ofList_toList⟩

lemma dropLead?_pair {a : Char} {cs : List Char} (h : ¬ (cs.head? = some a ∧ cs.tail.head? = some a)) :
    dropLead? [a, a] cs = none := by
  match cs with
  | [] => rfl
  | [x] => by_cases hx : a = x <;> simp [dropLead?, hx]
  | x :: y :: rest =>
    by_cases hx : a = x
    · by_cases hy : a = y
      · simp [hx.symm, hy.symm] at h
      · simp [dropLead?, hy]
    · simp [dropLead?, hx]

lemma cutChars_pair {a : Char} {l : List Char} (hl : NoPair a l) (he : l.getLast? ≠ some a) (m : List Char) :
    cutChars [a, a] (l ++ a :: a :: m) = some (l, m) := by
  induction l with
  | nil => simp [cutChars, dropLead?]
  | cons x l ih =>
    obtain ⟨hx, hl⟩ := noPair_cons.mp hl
    have hlast : l.getLast? ≠ some a := by
      intro h
      cases l with
      | nil => cases h
      | cons y l => exact he (by rwa [List.getLast?_cons_cons])
    have hd : dropLead? [a, a] (x :: (l ++ a :: a :: m)) = none := by
      refine dropLead?_pair fun h => ?_
      simp only [List.head?_cons, Option.some.injEq, List.tail_cons] at h
      cases l with
      | nil => exact he (by simp [h.1])
      | cons y l => exact hx ⟨h.1, by simpa using h.2⟩
    rw [List.cons_append, cutChars, hd, ih hl hlast]
    rfl

lemma eq_append_of_cutChars {sep cs l m : List Char} (h : cutChars sep cs = some (l, m)) : cs = l ++ (sep ++ m) := by
  induction cs generalizing l with
  | nil =>
    obtain ⟨rest, hd, he⟩ := Option.map_eq_some_iff.mp h
    obtain ⟨rfl, rfl⟩ := Prod.mk.inj he
    rw [List.nil_append]
    exact dropLead?_eq_some_iff.mp hd
  | cons c cs ih =>
    rw [cutChars] at h
    split at h
    · rename_i rest hd
      obtain ⟨rfl, rfl⟩ := Prod.mk.inj (Option.some.inj h)
      rw [List.nil_append]
      exact dropLead?_eq_some_iff.mp hd
    · obtain ⟨⟨_, _⟩, hcut, he⟩ := Option.map_eq_some_iff.mp h
      obtain ⟨rfl, rfl⟩ := Prod.mk.inj he
      rw [ih hcut, List.cons_append]

lemma noPair_of_cutChars {a : Char} {cs l m : List Char} (h : cutChars [a, a] cs = some (l, m)) : NoPair a l := by
  induction cs generalizing l with
  | nil => cases h
  | cons c cs ih =>
    rw [cutChars] at h
    split at h
    · obtain ⟨rfl, -⟩ := Prod.mk.inj (Option.some.inj h)
      exact noPair_nil
    · rename_i hd
      obtain ⟨⟨k, rest⟩, hcut, he⟩ := Option.map_eq_some_iff.mp h
      obtain ⟨rfl, rfl⟩ := Prod.mk.inj he
      refine noPair_cons.mpr ⟨?_, ih hcut⟩
      rintro ⟨rfl, hk⟩
      obtain ⟨k, rfl⟩ := List.head?_eq_some_iff.mp hk
      have hpair : c :: cs = [c, c] ++ (k ++ ([c, c] ++ rest)) := by
        rw [eq_append_of_cutChars hcut]
        rfl
      cases hd.symm.trans (dropLead?_eq_some_iff.mpr hpair)

lemma cutChars_eq_some_iff {a : Char} {cs l m : List Char} :
    cutChars [a] cs = some (l, m) ↔ a ∉ l ∧ cs = l ++ a :: m := by
  induction cs generalizing l with
  | nil => simp [cutChars, dropLead?]
  | cons c cs ih =>
    by_cases hc : a = c
    · cases l with
      | nil => simp [cutChars, dropLead?, hc]
      | cons x l =>
        simp only [cutChars, dropLead?, hc, if_true, Option.some.injEq, Prod.mk.injEq, List.mem_cons, not_or,
          List.cons_append, List.cons.injEq]
        grind
    · have hcut : cutChars [a] (c :: cs) = (cutChars [a] cs).map fun p => (c :: p.1, p.2) := by
        simp only [cutChars, dropLead?, if_neg hc]
      rw [hcut, Option.map_eq_some_iff]
      cases l with
      | nil => simp [Ne.symm hc]
      | cons x l =>
        simp only [Prod.exists, Prod.mk.injEq, List.cons.injEq, List.mem_cons, not_or, List.cons_append]
        grind

lemma cut_eq_some_iff {a : Char} {sep s t u : String} (hsep : sep.toList = [a]) :
    cut sep s = some (t, u) ↔ a ∉ t.toList ∧ s = t ++ sep ++ u := by
  rw [cut, hsep, Option.map_eq_some_iff]
  constructor
  · rintro ⟨⟨l, m⟩, hcut, he⟩
    obtain ⟨rfl, rfl⟩ := Prod.mk.inj he
    obtain ⟨hl, hs⟩ := cutChars_eq_some_iff.mp hcut
    refine ⟨by rwa [String.toList_ofList], String.toList_inj.mp ?_⟩
    simp [hs, hsep]
  · rintro ⟨ht, rfl⟩
    refine ⟨(t.toList, u.toList), cutChars_eq_some_iff.mpr ⟨ht, ?_⟩, ?_⟩
    · simp [hsep]
    · simp

lemma cut_eq_none_iff {a : Char} {sep s : String} (hsep : sep.toList = [a]) : cut sep s = none ↔ a ∉ s.toList := by
  constructor
  · intro h ha
    obtain ⟨l, m, hs, hl⟩ := List.eq_append_cons_of_mem ha
    rw [cut, hsep, cutChars_eq_some_iff.mpr ⟨hl, hs⟩] at h
    cases h
  · intro ha
    cases hc : cut sep s with
    | none => rfl
    | some p =>
      obtain ⟨-, rfl⟩ := (cut_eq_some_iff hsep).mp hc
      simp [hsep] at ha

lemma cutLastChars_of_notMem {a : Char} {l : List Char} (h : a ∉ l) : cutLastChars a l = none := by
  induction l with
  | nil => rfl
  | cons x l ih =>
    rw [List.mem_cons, not_or] at h
    rw [cutLastChars, ih h.2]
    exact if_neg (Ne.symm h.1)

lemma cutLastChars_append {a : Char} (l : List Char) {m : List Char} (h : a ∉ m) :
    cutLastChars a (l ++ a :: m) = some (l, m) := by
  induction l with
  | nil => simp [cutLastChars, cutLastChars_of_notMem h]
  | cons x l ih => rw [List.cons_append, cutLastChars, ih]

lemma eq_append_of_cutLastChars {a : Char} {cs l m : List Char} (h : cutLastChars a cs = some (l, m)) : cs = l ++ a :: m := by
  induction cs generalizing l with
  | nil => cases h
  | cons c cs ih =>
    rw [cutLastChars] at h
    split at h
    · rename_i p hcut
      obtain ⟨rfl, rfl⟩ := Prod.mk.inj (Option.some.inj h)
      rw [ih hcut, List.cons_append]
    · split at h
      · rename_i hc
        obtain ⟨rfl, rfl⟩ := Prod.mk.inj (Option.some.inj h)
        rw [hc, List.nil_append]
      · cases h

lemma notMem_of_cutLastChars_eq_none {a : Char} {cs : List Char} (h : cutLastChars a cs = none) : a ∉ cs := by
  induction cs with
  | nil => exact List.not_mem_nil
  | cons c cs ih =>
    rw [cutLastChars] at h
    split at h
    · cases h
    · rename_i hcut
      split at h
      · cases h
      · rename_i hc
        exact fun ha => (List.mem_cons.mp ha).elim (fun e => hc e.symm) (ih hcut)

lemma notMem_of_cutLastChars {a : Char} {cs l m : List Char} (h : cutLastChars a cs = some (l, m)) : a ∉ m := by
  induction cs generalizing l with
  | nil => cases h
  | cons c cs ih =>
    rw [cutLastChars] at h
    split at h
    · rename_i p hcut
      obtain ⟨-, rfl⟩ := Prod.mk.inj (Option.some.inj h)
      exact ih hcut
    · rename_i hcut
      split at h
      · obtain ⟨-, rfl⟩ := Prod.mk.inj (Option.some.inj h)
        exact notMem_of_cutLastChars_eq_none hcut
      · cases h

lemma cutLast_eq_some_iff {a : Char} {sep s t u : String} (hsep : sep.toList = [a]) :
    cutLast a s = some (t, u) ↔ a ∉ u.toList ∧ s = t ++ sep ++ u := by
  rw [cutLast, Option.map_eq_some_iff]
  constructor
  · rintro ⟨⟨l, m⟩, hcut, he⟩
    obtain ⟨rfl, rfl⟩ := Prod.mk.inj he
    refine ⟨by rw [String.toList_ofList]; exact notMem_of_cutLastChars hcut, String.toList_inj.mp ?_⟩
    simp [eq_append_of_cutLastChars hcut, hsep]
  · rintro ⟨hu, rfl⟩
    refine ⟨(t.toList, u.toList), ?_, by simp⟩
    rw [String.toList_append, String.toList_append, hsep, List.append_assoc]
    exact cutLastChars_append _ hu

end Text

end BlockStudio
