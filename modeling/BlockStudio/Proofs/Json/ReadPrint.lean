import BlockStudio.Proofs.Json.Literal

namespace BlockStudio.Json

variable {j : Json} {js : List Json} {m : String × Json} {ms : List (String × Json)} {rest : List Char} {n : ℕ}

inductive Readable : Json → Prop
  | null : Readable null
  | bool (b : Bool) : Readable (bool b)
  | count (n : ℕ) : Readable (count n)
  | text (s : String) : Readable (text s)
  | list {items} : (∀ j ∈ items, Readable j) → Readable (list items)
  | object {members} : (∀ m ∈ members, Readable m.2) → Readable (object members)

def ReadsBack (j : Json) : Prop :=
  ∀ n rest, (printChars j).length < n → Ends rest → value n (printChars j ++ rest) = some (j, rest)

lemma ReadsBack.of_succ (h : ∀ n rest, (printChars j).length ≤ n → Ends rest →
    value (n + 1) (printChars j ++ rest) = some (j, rest)) : ReadsBack j := by
  intro n rest hn hr
  cases n with
  | zero => cases hn
  | succ n => exact h n rest (Nat.le_of_lt_succ hn) hr

lemma skipSpace_cons {c : Char} (hc : isSpace c = false) (cs : List Char) : skipSpace (c :: cs) = c :: cs := by
  rw [skipSpace, List.dropWhile_cons, if_neg (by simp [hc])]

lemma printChars_head (j : Json) : ∃ c cs, printChars j = c :: cs ∧ isSpace c = false ∧ c ≠ ']' := by
  cases j with
  | null => exact ⟨_, _, rfl, by decide, by decide⟩
  | bool b =>
    cases b
    · exact ⟨_, _, rfl, by decide, by decide⟩
    · exact ⟨_, _, rfl, by decide, by decide⟩
  | count n =>
    cases h : Nat.toDigits 10 n with
    | nil => exact absurd h Nat.toDigits_ne_nil
    | cons c cs =>
      have hd : c.isDigit = true :=
        Nat.isDigit_of_mem_toDigits (b := 10) (n := n) (by decide) (by decide) (h ▸ List.mem_cons_self)
      refine ⟨c, cs, h, ?_, ?_⟩
      · rw [isSpace]
        by_contra hs
        simp only [Bool.not_eq_false, Bool.or_eq_true, decide_eq_true_eq] at hs
        rcases hs with ((rfl | rfl) | rfl) | rfl
        all_goals cases hd
      · rintro rfl
        cases hd
  | otherNumber => exact ⟨_, _, rfl, by decide, by decide⟩
  | text s => exact ⟨_, _, rfl, by decide, by decide⟩
  | list items => exact ⟨_, _, rfl, by decide, by decide⟩
  | object members => exact ⟨_, _, rfl, by decide, by decide⟩
  | unreadable => exact ⟨_, _, rfl, by decide, by decide⟩

lemma printChars_length_pos (j : Json) : 0 < (printChars j).length := by
  obtain ⟨c, cs, h, -⟩ := printChars_head j
  rw [h]
  exact Nat.succ_pos _

lemma ends_printMoreItems (js : List Json) (rest : List Char) : Ends (printMoreItems js ++ rest) := by
  cases js with
  | nil => exact fun c hc => .inr (.inl (Option.some.inj hc).symm)
  | cons j js => exact fun c hc => .inl (Option.some.inj hc).symm

lemma ends_printMoreMembers (ms : List (String × Json)) (rest : List Char) :
    Ends (printMoreMembers ms ++ rest) := by
  cases ms with
  | nil => exact fun c hc => .inr (.inr (Option.some.inj hc).symm)
  | cons m ms => exact fun c hc => .inl (Option.some.inj hc).symm

lemma items_print (h : ∀ i ∈ j :: js, ReadsBack i) (hn : (printItems (j :: js)).length < n) (rest : List Char) :
    items n (printItems (j :: js) ++ rest) = some (j :: js, rest) := by
  induction js generalizing j n with
  | nil =>
    cases n with
    | zero => cases hn
    | succ n =>
      simp only [printItems, printMoreItems, List.length_append, List.length_singleton] at hn
      have hv := h j List.mem_cons_self n (']' :: rest) (by omega) (ends_printMoreItems [] rest)
      rw [printItems, printMoreItems, List.append_assoc, items, List.cons_append, List.nil_append, hv]
      simp only [Option.bind_eq_bind, Option.bind_some, skipSpace_cons (c := ']') (by decide)]
      rfl
  | cons j' js ih =>
    cases n with
    | zero => cases hn
    | succ n =>
      have hpos := printChars_length_pos j
      simp only [printItems, printMoreItems, List.length_append, List.length_cons] at hn
      have hv := h j List.mem_cons_self n (printMoreItems (j' :: js) ++ rest) (by omega)
        (ends_printMoreItems (j' :: js) rest)
      have hrest := ih (n := n) (fun i hi => h i (List.mem_cons_of_mem j hi))
        (by simp only [printItems, List.length_append]; omega)
      rw [printItems, List.append_assoc, items, hv, printMoreItems]
      simp only [Option.bind_eq_bind, Option.bind_some, List.cons_append, skipSpace_cons (c := ',') (by decide)]
      rw [printItems] at hrest
      rw [hrest]
      rfl

lemma pieces_printText (s : String) (rest : List Char) :
    pieces ((printText s).tail ++ rest) = some (s.toList.map .whole, rest) := by
  rw [printText, List.tail_cons, List.append_assoc, List.cons_append, List.nil_append, pieces_escaped]

lemma printText_eq (s : String) : printText s = '"' :: (printText s).tail := rfl

lemma members_print (h : ∀ i ∈ m :: ms, ReadsBack i.2) (hn : (printMembers (m :: ms)).length < n)
    (rest : List Char) : members n (printMembers (m :: ms) ++ rest) = some (some (m :: ms), rest) := by
  induction ms generalizing m n with
  | nil =>
    cases n with
    | zero => cases hn
    | succ n =>
      obtain ⟨name, j⟩ := m
      simp only [printMembers, printMoreMembers, List.length_append, List.length_cons] at hn
      have hv := h (name, j) List.mem_cons_self n ('\x7d' :: rest) (by dsimp only; omega) (ends_printMoreMembers [] rest)
      rw [printMembers, printMoreMembers, printText_eq, members]
      simp only [List.append_assoc, List.cons_append, skipSpace_cons (c := '"') (by decide), pieces_printText,
        Option.bind_eq_bind, Option.bind_some, skipSpace_cons (c := ':') (by decide), List.nil_append, hv,
        skipSpace_cons (c := '\x7d') (by decide), join_whole, Option.map_some, String.ofList_toList]
      rfl
  | cons m' ms ih =>
    cases n with
    | zero => cases hn
    | succ n =>
      obtain ⟨name, j⟩ := m
      obtain ⟨name', j'⟩ := m'
      simp only [printMembers, printMoreMembers, List.length_append, List.length_cons] at hn
      have hv := h (name, j) List.mem_cons_self n (printMoreMembers ((name', j') :: ms) ++ rest)
        (by dsimp only; omega) (ends_printMoreMembers ((name', j') :: ms) rest)
      have hrest := ih (n := n) (fun i hi => h i (List.mem_cons_of_mem (name, j) hi))
        (by simp only [printMembers, List.length_append, List.length_cons]; omega)
      rw [printMembers] at hrest
      rw [printMembers, printText_eq, members]
      simp only [List.append_assoc, List.cons_append, skipSpace_cons (c := '"') (by decide), pieces_printText,
        Option.bind_eq_bind, Option.bind_some, skipSpace_cons (c := ':') (by decide), hv]
      simp only [printMoreMembers, List.append_assoc, List.cons_append, skipSpace_cons (c := ',') (by decide)]
      simp only [List.append_assoc, List.cons_append] at hrest
      rw [hrest]
      simp [join_whole]

lemma readsBack_count (n : ℕ) : ReadsBack (count n) := by
  apply ReadsBack.of_succ
  intro k rest _ hr
  have hnum := number_toDigits n hr
  rw [printChars]
  cases h : Nat.toDigits 10 n with
  | nil => exact absurd h Nat.toDigits_ne_nil
  | cons c cs =>
    rw [h, List.cons_append] at hnum
    have hd : c.isDigit = true :=
      Nat.isDigit_of_mem_toDigits (b := 10) (n := n) (by decide) (by decide) (h ▸ List.mem_cons_self)
    obtain ⟨c', cs', h', hs, -⟩ := printChars_head (count n)
    obtain ⟨rfl, -⟩ := List.cons.inj (h'.symm.trans h)
    rw [List.cons_append, value, skipSpace_cons hs]
    split
    case h_8 => exact hnum
    all_goals
      rename_i he
      obtain ⟨rfl, -⟩ := List.cons.inj he
      cases hd

lemma readsBack_text (s : String) : ReadsBack (text s) := by
  apply ReadsBack.of_succ
  intro n rest _ _
  rw [printChars, printText_eq, List.cons_append, value, skipSpace_cons (by decide)]
  simp only [pieces_printText, Option.map_some, join_whole, String.ofList_toList]

lemma readsBack_list {items : List Json} (h : ∀ j ∈ items, ReadsBack j) : ReadsBack (list items) := by
  apply ReadsBack.of_succ
  intro n rest hn _
  rw [printChars, List.cons_append, value, skipSpace_cons (by decide)]
  cases items with
  | nil => rfl
  | cons j js =>
    obtain ⟨c, cs, hc, hs, hne⟩ := printChars_head j
    have hi := items_print h (n := n) hn rest
    rw [printItems, hc, List.append_assoc, List.cons_append] at hi ⊢
    simp only [skipSpace_cons hs]
    split
    · rename_i he
      exact absurd (List.cons.inj he).1 hne
    · rw [hi]
      rfl

lemma readsBack_object {members : List (String × Json)} (h : ∀ m ∈ members, ReadsBack m.2) :
    ReadsBack (object members) := by
  apply ReadsBack.of_succ
  intro n rest hn _
  rw [printChars, List.cons_append, value, skipSpace_cons (by decide)]
  cases members with
  | nil => rfl
  | cons m ms =>
    have hm := members_print h (n := n) hn rest
    obtain ⟨name, j⟩ := m
    rw [printMembers, printText_eq, List.append_assoc, List.cons_append] at hm ⊢
    simp only [skipSpace_cons (c := '"') (by decide)]
    split
    · rename_i he
      exact absurd (List.cons.inj he).1 (by decide)
    · rw [hm]
      rfl

lemma readsBack (h : j.Readable) : ReadsBack j := by
  induction h with
  | null => exact .of_succ fun _ _ _ _ => rfl
  | bool b =>
    cases b
    · exact .of_succ fun _ _ _ _ => rfl
    · exact .of_succ fun _ _ _ _ => rfl
  | count n => exact readsBack_count n
  | text s => exact readsBack_text s
  | list _ ih => exact readsBack_list ih
  | object _ ih => exact readsBack_object ih

lemma parse?_print (h : j.Readable) : parse? j.print = some j := by
  have hv := readsBack h ((printChars j).length + 1) [] (Nat.lt_succ_self _) fun c hc => by cases hc
  rw [List.append_nil] at hv
  rw [parse?, print, String.toList_ofList, hv]
  rfl

end BlockStudio.Json
