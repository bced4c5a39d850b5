import BlockStudio.Json.Parse
import BlockStudio.Json.Print
import BlockStudio.Proofs.Text.Numeral

namespace BlockStudio.Json

variable {c : Char} {cs rest : List Char} {n : ℕ}

lemma hexValue?_hexDigit : ∀ n < 16, Text.hexValue? (hexDigit n) = some n := by decide

lemma hexUnit?_control (hc : c.toNat < 0x20) :
    hexUnit? '0' '0' (hexDigit (c.toNat / 16)) (hexDigit (c.toNat % 16)) = some c.toNat := by
  have hzero : Text.hexValue? '0' = some 0 := by decide
  have hhi := hexValue?_hexDigit (c.toNat / 16) (by omega)
  have hlo := hexValue?_hexDigit (c.toNat % 16) (by omega)
  simp only [hexUnit?, hzero, hhi, hlo, Option.bind_eq_bind, Option.bind_some, Option.pure_def, Option.some.injEq]
  omega

lemma ofUnit_small (hn : n < 0xD800) : Piece.ofUnit n = .whole (Char.ofNat n) := by
  rw [Piece.ofUnit, if_neg (by omega), if_neg (by omega)]

lemma pieces_simple {d e : Char} (he : e ≠ 'u') (hs : simpleEscape? e = some d) (hc : c = d) (rest : List Char) :
    pieces ('\\' :: e :: rest) = (pieces rest).map fun p => (.whole c :: p.1, p.2) := by
  subst hc
  rw [pieces.eq_4 _ _ (fun _ _ _ _ _ h => absurd h he), hs]
  cases pieces rest with
  | none => rfl
  | some p => rfl

lemma pieces_unit {a b d e : Char} (hu : hexUnit? a b d e = some n) (hn : n < 0xD800) (rest : List Char) :
    pieces ('\\' :: 'u' :: a :: b :: d :: e :: rest) =
      (pieces rest).map fun p => (.whole (Char.ofNat n) :: p.1, p.2) := by
  rw [pieces, hu]
  simp only [Option.bind_eq_bind, Option.bind_some, ofUnit_small hn]
  cases pieces rest with
  | none => rfl
  | some p => rfl

lemma pieces_plain (hq : c ≠ '"') (hb : c ≠ '\\') (hc : 0x20 ≤ c.toNat) (rest : List Char) :
    pieces (c :: rest) = (pieces rest).map fun p => (.whole c :: p.1, p.2) := by
  rw [pieces.eq_5 _ _ hq (fun _ _ _ _ _ h => absurd h hb) (fun _ _ h => absurd h hb), if_neg (by simp [hb, hc])]
  cases pieces rest with
  | none => rfl
  | some p => rfl

lemma pieces_escapeChar (c : Char) (rest : List Char) :
    pieces (escapeChar c ++ rest) = (pieces rest).map fun p => (.whole c :: p.1, p.2) := by
  have hof : ∀ n, c.toNat = n → c = Char.ofNat n := fun n hn => by rw [← hn, Char.ofNat_toNat]
  rw [escapeChar]
  split
  · exact pieces_simple (by decide) rfl ‹c = '"'› rest
  split
  · exact pieces_simple (by decide) rfl ‹c = '\\'› rest
  split
  · exact pieces_simple (by decide) rfl ‹c = '\n'› rest
  split
  · exact pieces_simple (by decide) rfl ‹c = '\t'› rest
  split
  · exact pieces_simple (by decide) rfl ‹c = '\r'› rest
  split
  · exact pieces_simple (by decide) rfl (hof 0x08 ‹_›) rest
  split
  · exact pieces_simple (by decide) rfl (hof 0x0C ‹_›) rest
  split
  · rename_i h
    have hu := pieces_unit (hexUnit?_control h) (by omega) rest
    rwa [Char.ofNat_toNat] at hu
  · rename_i hq hb _ _ _ _ _ h
    exact pieces_plain hq hb (by omega) rest

lemma pieces_escaped (cs rest : List Char) :
    pieces (cs.flatMap escapeChar ++ '"' :: rest) = some (cs.map .whole, rest) := by
  induction cs with
  | nil => rw [List.flatMap_nil, List.nil_append, pieces, List.map_nil]
  | cons c cs ih => rw [List.flatMap_cons, List.append_assoc, pieces_escapeChar, ih, Option.map_some, List.map_cons]

lemma join_whole (cs : List Char) : Piece.join (cs.map .whole) = some cs := by
  induction cs with
  | nil => rfl
  | cons c cs ih => rw [List.map_cons, Piece.join, ih, Option.map_some]

lemma isAsciiDigit_of_mem (h : c ∈ Nat.toDigits 10 n) : Text.isAsciiDigit c = true :=
  Text.isAsciiDigit_iff.mpr (Nat.isDigit_of_mem_toDigits (by decide) (by decide) h)

lemma head_toDigits (hn : n ≠ 0) : ∃ c cs, Nat.toDigits 10 n = c :: cs ∧ c ≠ '0' := by
  induction n using Nat.strongRecOn with
  | ind n ih =>
    by_cases hlt : n < 10
    · refine ⟨n.digitChar, [], Nat.toDigits_of_lt_base hlt, fun h => ?_⟩
      have hv := Nat.toNat_digitChar_sub_48_of_lt_ten hlt
      rw [h] at hv
      exact hn hv.symm
    · obtain ⟨c, cs, hc, hz⟩ := ih (n / 10) (by omega) (by omega)
      exact ⟨c, _, by rw [Nat.toDigits_of_base_le (by decide) (by omega), hc, List.cons_append], hz⟩

lemma takeWhole?_toDigits (n : ℕ) (hr : ∀ d ∈ rest.head?, Text.isAsciiDigit d = false) :
    takeWhole? (Nat.toDigits 10 n ++ rest) = some (Nat.toDigits 10 n, rest) := by
  have hdrop : rest.dropWhile Text.isAsciiDigit = rest := by
    cases rest with
    | nil => rfl
    | cons d rest => rw [List.dropWhile_cons, if_neg (by simp [hr d rfl])]
  have htake : rest.takeWhile Text.isAsciiDigit = [] := by
    cases rest with
    | nil => rfl
    | cons d rest => rw [List.takeWhile_cons, if_neg (by simp [hr d rfl])]
  by_cases hn : n = 0
  · subst hn
    rw [Nat.toDigits_zero, List.cons_append, List.nil_append]
    cases rest with
    | nil => rfl
    | cons d rest => simp [takeWhole?, hr d rfl]
  · obtain ⟨c, cs, hd, hc⟩ := head_toDigits hn
    have hall : ∀ x ∈ cs, Text.isAsciiDigit x = true := fun x hx =>
      isAsciiDigit_of_mem (n := n) (hd ▸ List.mem_cons_of_mem c hx)
    have hdc : Text.isAsciiDigit c = true := isAsciiDigit_of_mem (n := n) (hd ▸ List.mem_cons_self)
    have hwhole : takeWhole? (c :: (cs ++ rest)) =
        some (c :: (cs ++ rest).takeWhile Text.isAsciiDigit, (cs ++ rest).dropWhile Text.isAsciiDigit) := by
      simp only [takeWhole?, hc, hdc, if_false, if_true]
    rw [hd, List.cons_append, hwhole, List.takeWhile_append_of_pos hall, htake,
      List.append_nil, List.dropWhile_append_of_pos hall, hdrop]

def Ends (rest : List Char) : Prop := ∀ c ∈ rest.head?, c = ',' ∨ c = ']' ∨ c = '\x7d'

lemma Ends.head (h : Ends rest) {P : Char → Prop} (h₁ : P ',') (h₂ : P ']') (h₃ : P '\x7d') :
    ∀ d ∈ rest.head?, P d := by
  intro d hd
  rcases h d hd with rfl | rfl | rfl
  · exact h₁
  · exact h₂
  · exact h₃

lemma number_toDigits (n : ℕ) (hr : Ends rest) : number false (Nat.toDigits 10 n ++ rest) = some (count n, rest) := by
  have hfrac : takeFraction? rest = some (false, rest) := by
    rw [takeFraction?.eq_3]
    · rintro c cs rfl
      simpa using hr '.' rfl
    · rintro rfl
      simpa using hr '.' rfl
  have hexp : takeExponent? rest = some (false, rest) := by
    rw [takeExponent?.eq_3]
    · rintro cs rfl
      simpa using hr 'e' rfl
    · rintro cs rfl
      simpa using hr 'E' rfl
  have hval : (Nat.toDigits 10 n).foldl (fun n c => 10 * n + Text.digitValue c) 0 = n :=
    Nat.ofDigitChars_ten_toDigits
  rw [number, takeWhole?_toDigits n (hr.head (by decide) (by decide) (by decide))]
  simp only [Option.bind_eq_bind, Option.bind_some, hfrac, hexp, hval]
  rfl

end BlockStudio.Json
