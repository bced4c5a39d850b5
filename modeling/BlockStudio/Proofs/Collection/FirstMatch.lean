import Mathlib.Data.List.Nodup
import Mathlib.Order.Lattice
import Mathlib.Tactic.Lemma

namespace BlockStudio

variable {α κ : Type} (key : α → κ) {l : List α} {a b : α} {k : κ}

section Find

variable [DecidableEq κ]

lemma key_of_find? (h : l.find? (fun a => key a = k) = some a) : key a = k := by
  simpa using List.find?_some h

lemma exists_find?_key (h : a ∈ l) : ∃ b, l.find? (fun b => key b = key a) = some b :=
  Option.isSome_iff_exists.mp (List.find?_isSome.mpr ⟨a, h, decide_eq_true rfl⟩)

lemma find?_key_of_nodup (hd : (l.map key).Nodup) (h : a ∈ l) : l.find? (fun b => key b = key a) = some a := by
  obtain ⟨b, hb⟩ := exists_find?_key key h
  obtain rfl := List.inj_on_of_nodup_map hd (List.mem_of_find?_eq_some hb) h (key_of_find? key hb)
  exact hb

end Find

lemma find?_eq_some_iff_least [LinearOrder κ] {key : α → κ} {p : α → Bool} (h : l.Pairwise fun a b => key a < key b) :
    l.find? p = some a ↔ a ∈ l ∧ p a = true ∧ ∀ b ∈ l, p b = true → key a ≤ key b := by
  induction l with
  | nil => simp
  | cons c l ih =>
    obtain ⟨hc, hl⟩ := List.pairwise_cons.mp h
    cases hp : p c with
    | true =>
      rw [List.find?_cons_of_pos hp, Option.some.injEq]
      constructor
      · rintro rfl
        exact ⟨List.mem_cons_self, hp, List.forall_mem_cons.mpr ⟨fun _ => le_rfl, fun b hb _ => le_of_lt (hc b hb)⟩⟩
      · rintro ⟨ha, -, hleast⟩
        obtain rfl | ha := List.mem_cons.mp ha
        · rfl
        · exact absurd (hleast c List.mem_cons_self hp) (not_le_of_gt (hc a ha))
    | false =>
      rw [List.find?_cons_of_neg (by simp [hp]), ih hl]
      constructor
      · rintro ⟨ha, hpa, hleast⟩
        refine ⟨List.mem_cons_of_mem c ha, hpa, List.forall_mem_cons.mpr ⟨fun hc => ?_, hleast⟩⟩
        rw [hp] at hc
        cases hc
      · rintro ⟨ha, hpa, hleast⟩
        refine ⟨(List.mem_cons.mp ha).resolve_left ?_, hpa, fun b hb => hleast b (List.mem_cons_of_mem c hb)⟩
        rintro rfl
        rw [hp] at hpa
        cases hpa

lemma lookup_map_snd {β γ : Type} [BEq κ] (f : β → γ) (table : List (κ × β)) :
    (table.map (Prod.map id f)).lookup k = (table.lookup k).map f := by
  induction table with
  | nil => rfl
  | cons e table ih =>
    rw [List.map_cons, List.lookup_cons, List.lookup_cons, ih]
    cases h : k == e.1 <;> simp [h]

lemma lookup_of_unique {β : Type} [BEq κ] [LawfulBEq κ] {table : List (κ × β)} {v : β} (h : (k, v) ∈ table)
    (hu : ∀ v', (k, v') ∈ table → v' = v) : table.lookup k = some v := by
  induction table with
  | nil => cases h
  | cons e table ih =>
    obtain ⟨k', v'⟩ := e
    by_cases hk : k = k'
    · subst hk
      rw [List.lookup_cons, beq_self_eq_true, hu v' List.mem_cons_self]
    · have htail : (k, v) ∈ table := by
        obtain he | ht := List.mem_cons.mp h
        · exact absurd (Prod.mk.inj he).1 hk
        · exact ht
      rw [List.lookup_cons, beq_eq_false_iff_ne.mpr hk]
      exact ih htail fun u hmem => hu u (List.mem_cons_of_mem _ hmem)

end BlockStudio
