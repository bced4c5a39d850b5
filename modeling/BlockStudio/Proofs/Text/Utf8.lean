import BlockStudio.Proofs.Text.Pairs
import BlockStudio.Text.Utf8

/-! Text that was written as bytes reads back, and the bytes of plain characters stand for nothing else. -/

namespace BlockStudio.Utf8

variable {a c : Char} {k n : ℕ} {p : Partial} {cs : List Char} {bs : List UInt8}

lemma start_one (hn : n < 0x80) : start (UInt8.ofNat n) = ([Char.ofNat n], none) := by
  have hb : UInt8.ofNat n < 0x80 := by
    rw [UInt8.lt_iff_toNat_lt, UInt8.toNat_ofNat']
    exact Nat.lt_of_le_of_lt (Nat.mod_le n _) hn
  rw [start, if_pos hb, UInt8.toNat_ofNat', Nat.mod_eq_of_lt (by omega)]

lemma start_two : ∀ n < 0x20, 2 ≤ n → start (UInt8.ofNat (n + 0xC0)) = ([], some ⟨1, n, 0x80, 0xBF⟩) := by
  decide

lemma start_three : ∀ n < 0x10, start (UInt8.ofNat (n + 0xE0)) =
    ([], some ⟨2, n, if n = 0 then 0xA0 else 0x80, if n = 0xD then 0x9F else 0xBF⟩) := by
  decide

lemma start_four : ∀ n < 5, start (UInt8.ofNat (n + 0xF0)) =
    ([], some ⟨3, n, if n = 0 then 0x90 else 0x80, if n = 4 then 0x8F else 0xBF⟩) := by
  decide

lemma feed_tail (hk : k < 0x40) (hl : p.low.toNat ≤ k + 0x80) (hh : k + 0x80 ≤ p.high.toNat) :
    feed (some p) (UInt8.ofNat (k + 0x80)) =
      if p.missing ≤ 1 then ([Char.ofNat (64 * p.bits + k)], none)
      else ([], some ⟨p.missing - 1, 64 * p.bits + k, 0x80, 0xBF⟩) := by
  have ht : (UInt8.ofNat (k + 0x80)).toNat = k + 0x80 := by
    rw [UInt8.toNat_ofNat', Nat.mod_eq_of_lt (by omega)]
  have hin : p.low ≤ UInt8.ofNat (k + 0x80) ∧ UInt8.ofNat (k + 0x80) ≤ p.high := by
    rw [UInt8.le_iff_toNat_le, UInt8.le_iff_toNat_le, ht]
    exact ⟨hl, hh⟩
  simp only [feed, if_pos hin, ht, Nat.add_sub_cancel]

lemma decodeFrom_last (hk : k < 0x40) :
    decodeFrom (some ⟨1, n, 0x80, 0xBF⟩) (UInt8.ofNat (k + 0x80) :: bs) = Char.ofNat (64 * n + k) :: decode bs := by
  have hh : k + 0x80 ≤ (0xBF : UInt8).toNat := by
    change _ ≤ 0xBF
    omega
  rw [decodeFrom, feed_tail (p := ⟨1, n, 0x80, 0xBF⟩) hk (Nat.le_add_left 0x80 k) hh]
  rfl

lemma decodeFrom_next {m : ℕ} {low high : UInt8} (hk : k < 0x40) (hl : low.toNat ≤ k + 0x80)
    (hh : k + 0x80 ≤ high.toNat) : decodeFrom (some ⟨m + 2, n, low, high⟩) (UInt8.ofNat (k + 0x80) :: bs) =
      decodeFrom (some ⟨m + 1, 64 * n + k, 0x80, 0xBF⟩) bs := by
  rw [decodeFrom, feed_tail hk hl hh, if_neg (by simp)]
  rfl

lemma decode_two (hl : 0x80 ≤ n) (hh : n < 0x800) :
    decode (UInt8.ofNat (n / 64 % 0x20 + 0xC0) :: UInt8.ofNat (n % 0x40 + 0x80) :: bs) = Char.ofNat n :: decode bs := by
  have hq : n / 64 % 0x20 = n / 64 := Nat.mod_eq_of_lt (by omega)
  have hbits : 64 * (n / 64) + n % 0x40 = n := by omega
  have hs := start_two (n / 64) (by omega) (by omega)
  rw [decode, decodeFrom, feed, hq, hs]
  rw [List.nil_append, decodeFrom_last (by omega), hbits]

lemma decode_three (hl : 0x800 ≤ n) (hh : n < 0x10000) (hv : n < 0xD800 ∨ 0xDFFF < n) :
    decode (UInt8.ofNat (n / 4096 % 0x10 + 0xE0) :: UInt8.ofNat (n / 64 % 0x40 + 0x80) ::
      UInt8.ofNat (n % 0x40 + 0x80) :: bs) = Char.ofNat n :: decode bs := by
  have hq : n / 4096 % 0x10 = n / 4096 := Nat.mod_eq_of_lt (by omega)
  have hbits : 64 * (64 * (n / 4096) + n / 64 % 0x40) + n % 0x40 = n := by omega
  have hs := start_three (n / 4096) (by omega)
  have hlow : (if n / 4096 = 0 then 0xA0 else 0x80 : UInt8).toNat ≤ n / 64 % 0x40 + 0x80 := by
    split
    · change 0xA0 ≤ _
      omega
    · exact Nat.le_add_left 0x80 _
  have hhigh : n / 64 % 0x40 + 0x80 ≤ (if n / 4096 = 0xD then 0x9F else 0xBF : UInt8).toNat := by
    split
    · change _ ≤ 0x9F
      omega
    · change _ ≤ 0xBF
      omega
  rw [decode, decodeFrom, feed, hq, hs]
  rw [List.nil_append, decodeFrom_next (by omega) hlow hhigh, decodeFrom_last (by omega), hbits]

lemma decode_four (hl : 0x10000 ≤ n) (hh : n < 0x110000) :
    decode (UInt8.ofNat (n / 262144 % 0x8 + 0xF0) :: UInt8.ofNat (n / 4096 % 0x40 + 0x80) ::
      UInt8.ofNat (n / 64 % 0x40 + 0x80) :: UInt8.ofNat (n % 0x40 + 0x80) :: bs) = Char.ofNat n :: decode bs := by
  have hq : n / 262144 % 0x8 = n / 262144 := Nat.mod_eq_of_lt (by omega)
  have hbits : 64 * (64 * (64 * (n / 262144) + n / 4096 % 0x40) + n / 64 % 0x40) + n % 0x40 = n := by omega
  have hs := start_four (n / 262144) (by omega)
  have hlow : (if n / 262144 = 0 then 0x90 else 0x80 : UInt8).toNat ≤ n / 4096 % 0x40 + 0x80 := by
    split
    · change 0x90 ≤ _
      omega
    · exact Nat.le_add_left 0x80 _
  have hhigh : n / 4096 % 0x40 + 0x80 ≤ (if n / 262144 = 4 then 0x8F else 0xBF : UInt8).toNat := by
    split
    · change _ ≤ 0x8F
      omega
    · change _ ≤ 0xBF
      omega
  have hlast : n / 64 % 0x40 + 0x80 ≤ (0xBF : UInt8).toNat := by
    change _ ≤ 0xBF
    omega
  rw [decode, decodeFrom, feed, hq, hs]
  rw [List.nil_append, decodeFrom_next (by omega) hlow hhigh,
    decodeFrom_next (by omega) (Nat.le_add_left 0x80 _) hlast, decodeFrom_last (by omega), hbits]

lemma decode_encodeChar (c : Char) (bs : List UInt8) : decode (String.utf8EncodeChar c ++ bs) = c :: decode bs := by
  have hv : c.toNat < 0xD800 ∨ 0xDFFF < c.toNat ∧ c.toNat < 0x110000 := c.valid
  have hc : Char.ofNat c.toNat = c := Char.ofNat_toNat c
  generalize hn : c.toNat = n at hv hc
  have hval : c.val.toNat = n := hn
  subst hc
  simp only [String.utf8EncodeChar, hval]
  split
  · rename_i h₁
    rw [List.singleton_append, decode, decodeFrom, feed, start_one (Nat.lt_succ_of_le h₁)]
    rfl
  · split
    · exact decode_two (by omega) (by omega)
    · split
      · exact decode_three (by omega) (by omega) (by omega)
      · exact decode_four (by omega) (by omega)

lemma decode_encode (cs : List Char) : decode (encode cs) = cs := by
  induction cs with
  | nil => rfl
  | cons c cs ih => rw [encode, List.flatMap_cons, decode_encodeChar, ← encode, ih]

def plain (a : Char) : UInt8 := UInt8.ofNat a.toNat

lemma encode_append (cs ds : List Char) : encode (cs ++ ds) = encode cs ++ encode ds := List.flatMap_append

lemma encode_cons (c : Char) (cs : List Char) : encode (c :: cs) = String.utf8EncodeChar c ++ encode cs :=
  List.flatMap_cons

lemma bytes_append (s t : String) : bytes (s ++ t) = bytes s ++ bytes t := by
  rw [bytes, String.toList_append, encode_append, bytes, bytes]

section Plain

variable (ha : a.toNat < 0x80)

include ha

lemma encodeChar_plain : String.utf8EncodeChar a = [plain a] := by
  have hv : a.val.toNat ≤ 0x7F := Nat.le_of_lt_succ ha
  rw [String.utf8EncodeChar]
  exact if_pos hv

lemma eq_of_plain_mem (h : plain a ∈ String.utf8EncodeChar c) : c = a := by
  have hp : (plain a).toNat = a.toNat := by
    rw [plain, UInt8.toNat_ofNat', Nat.mod_eq_of_lt (by omega)]
  have hbig : ∀ k, 0x80 ≤ k → k < 0x100 → plain a ≠ UInt8.ofNat k := by
    intro k hl hk he
    have hn := congrArg UInt8.toNat he
    rw [hp, UInt8.toNat_ofNat', Nat.mod_eq_of_lt hk] at hn
    omega
  simp only [String.utf8EncodeChar] at h
  split at h
  · rename_i hc
    have hn := congrArg UInt8.toNat (List.mem_singleton.mp h)
    rw [hp, UInt8.toNat_ofNat', Nat.mod_eq_of_lt (by omega)] at hn
    exact (Char.toNat_inj.mp hn).symm
  · exfalso
    split at h
    · simp only [List.mem_cons, List.not_mem_nil, or_false] at h
      rcases h with h | h
      all_goals exact hbig _ (by omega) (by omega) h
    split at h
    · simp only [List.mem_cons, List.not_mem_nil, or_false] at h
      rcases h with h | h | h
      all_goals exact hbig _ (by omega) (by omega) h
    · simp only [List.mem_cons, List.not_mem_nil, or_false] at h
      rcases h with h | h | h | h
      all_goals exact hbig _ (by omega) (by omega) h

lemma head?_encode_plain : (encode cs).head? = some (plain a) ↔ cs.head? = some a := by
  cases cs with
  | nil => simp [encode]
  | cons c cs =>
    rw [encode_cons, List.head?_append_of_ne_nil _ String.utf8EncodeChar_ne_nil, List.head?_cons, Option.some.injEq]
    constructor
    · exact fun h => eq_of_plain_mem ha (List.mem_of_mem_head? h)
    · rintro rfl
      rw [encodeChar_plain ha, List.head?_cons]

lemma getLast?_encode_plain : (encode cs).getLast? = some (plain a) ↔ cs.getLast? = some a := by
  rcases List.eq_nil_or_concat cs with rfl | ⟨cs, c, rfl⟩
  · simp [encode]
  · have hone : encode [c] = String.utf8EncodeChar c := by simp [encode]
    rw [List.concat_eq_append, encode_append, hone, List.getLast?_append_of_ne_nil _ String.utf8EncodeChar_ne_nil,
      List.getLast?_concat, Option.some.injEq]
    constructor
    · exact fun h => eq_of_plain_mem ha (List.mem_of_getLast? h)
    · rintro rfl
      rw [encodeChar_plain ha, List.getLast?_singleton]

lemma noPair_encode (h : NoPair a cs) : NoPair (plain a) (encode cs) := by
  induction cs with
  | nil => exact noPair_nil
  | cons c cs ih =>
    obtain ⟨hc, hcs⟩ := noPair_cons.mp h
    rw [encode_cons, noPair_append]
    refine ⟨?_, ih hcs, fun he => hc ⟨eq_of_plain_mem ha (List.mem_of_getLast? he.1), ?_⟩⟩
    · by_cases hm : plain a ∈ String.utf8EncodeChar c
      · obtain rfl := eq_of_plain_mem ha hm
        rw [encodeChar_plain ha]
        exact noPair_singleton
      · exact noPair_of_notMem hm
    · exact (head?_encode_plain ha).mp he.2

end Plain

end BlockStudio.Utf8
