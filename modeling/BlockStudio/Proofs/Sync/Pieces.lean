import BlockStudio.Proofs.Sync.Scan

/-! However a stream is cut into pieces, the decoder finds in it what its first pairs of brackets mark out. -/

namespace BlockStudio.Decoder

variable {b : UInt8} {bs l left p r : List UInt8} {out : List Decoded} {chunks chunks' : List (List UInt8)}

/-- How a stream falls apart. A frame is opened by the first two opening brackets in a row, whatever stands before them,
and closed by the first two closing brackets after them. -/
inductive FallsInto : List UInt8 → List Decoded → List UInt8 → Prop
  | rest {bs : List UInt8} (h : NoPair opening bs) : FallsInto bs [] bs
  | begun {lead body : List UInt8} (h : NoPair opening (lead ++ [opening])) (hb : NoPair closing body) :
      FallsInto (lead ++ opening :: opening :: body) (noiseOf lead) (opening :: opening :: body)
  | frame {lead body bs left : List UInt8} {out : List Decoded} (h : NoPair opening (lead ++ [opening]))
      (hb : NoPair closing (body ++ [closing])) (hr : FallsInto bs out left) :
      FallsInto (lead ++ opening :: opening :: (body ++ closing :: closing :: bs))
        (noiseOf lead ++ readBody body :: out) left

lemma noPair_concat : NoPair b (l ++ [b]) ↔ NoPair b l ∧ l.getLast? ≠ some b := by
  simp [noPair_append, noPair_singleton]

lemma cutAtPair_eq_none_iff : cutAtPair b l = none ↔ NoPair b l := by
  induction l using cutAtPair.induct b with
  | case1 => exact iff_of_true rfl noPair_nil
  | case2 x => exact iff_of_true rfl noPair_singleton
  | case3 x y l hxy =>
    rw [cutAtPair, if_pos hxy]
    refine iff_of_false (Option.some_ne_none _) fun h => (noPair_cons.mp h).1 ⟨hxy.1, ?_⟩
    rw [List.head?_cons, hxy.2]
  | case4 x y l hxy ih =>
    rw [cutAtPair, if_neg hxy, Option.map_eq_none_iff, ih, noPair_cons (x := x), List.head?_cons, Option.some.injEq,
      and_iff_right hxy]

lemma cutAtPair_first (h : cutAtPair b l = some (p, r)) : NoPair b (p ++ [b]) := by
  induction l using cutAtPair.induct b generalizing p with
  | case1 => cases h
  | case2 => cases h
  | case3 x y l hxy =>
    rw [cutAtPair, if_pos hxy] at h
    cases h
    exact noPair_singleton
  | case4 x y l hxy ih =>
    rw [cutAtPair, if_neg hxy] at h
    obtain ⟨⟨q, s⟩, hq, he⟩ := Option.map_eq_some_iff.mp h
    cases he
    have hl := congrArg List.head? (cutAtPair_eq_some hq)
    refine noPair_cons.mpr ⟨fun hx => hxy ⟨hx.1, ?_⟩, ih hq⟩
    cases q with
    | nil => exact Option.some.inj hl
    | cons z q => exact Option.some.inj (hl.trans hx.2)

lemma cutAtPair_of_first (h : NoPair b (p ++ [b])) (r : List UInt8) : cutAtPair b (p ++ b :: b :: r) = some (p, r) :=
  cutAtPair_append_pair (noPair_concat.mp h).1 (noPair_concat.mp h).2 r

lemma fallsInto_scan (bs : List UInt8) : FallsInto bs (scan bs).1 (scan bs).2 := by
  induction hk : bs.length using Nat.strongRecOn generalizing bs with
  | ind k ih =>
    cases ho : cutAtPair opening bs with
    | none =>
      rw [scan_of_none ho]
      exact .rest (cutAtPair_eq_none_iff.mp ho)
    | some lr =>
      obtain ⟨lead, r⟩ := lr
      have hl := cutAtPair_length ho
      cases hc : cutAtPair closing r with
      | none =>
        rw [scan_of_open ho hc, cutAtPair_eq_some ho]
        exact .begun (cutAtPair_first ho) (cutAtPair_eq_none_iff.mp hc)
      | some br =>
        obtain ⟨body, rest⟩ := br
        have hl' := cutAtPair_length hc
        rw [scan_of_frame ho hc, cutAtPair_eq_some ho, cutAtPair_eq_some hc]
        exact .frame (cutAtPair_first ho) (cutAtPair_first hc) (ih rest.length (by omega) rest rfl)

lemma FallsInto.scan_eq (h : FallsInto bs out left) : scan bs = (out, left) := by
  induction h with
  | rest h => exact scan_of_none (cutAtPair_eq_none_iff.mpr h)
  | begun h hb => exact scan_of_open (cutAtPair_of_first h _) (cutAtPair_eq_none_iff.mpr hb)
  | frame h hb _ ih => rw [scan_of_frame (cutAtPair_of_first h _) (cutAtPair_of_first hb _), ih]

lemma pushAll_fresh (chunks : List (List UInt8)) :
    pushAll {} chunks = ((scan chunks.flatten).1, ⟨(scan chunks.flatten).2⟩) :=
  pushAll_eq settled_fresh chunks

lemma fallsInto_iff_pushAll (chunks : List (List UInt8)) :
    FallsInto chunks.flatten out left ↔ pushAll {} chunks = (out, ⟨left⟩) := by
  rw [pushAll_fresh]
  constructor
  · intro h
    rw [h.scan_eq]
  · intro h
    obtain ⟨rfl, hleft⟩ := Prod.mk.inj h
    obtain rfl := Decoder.mk.inj hleft
    exact fallsInto_scan chunks.flatten

theorem cuts_do_not_matter (h : chunks.flatten = chunks'.flatten) :
    (pushAll {} chunks).1 = (pushAll {} chunks').1 ∧
    (pushAll {} chunks).2.buffer = (pushAll {} chunks').2.buffer ∧
    (pushAll {} chunks).2.finish.1 = (pushAll {} chunks').2.finish.1 ∧
    ∀ out left, FallsInto chunks.flatten out left ↔ pushAll {} chunks = (out, ⟨left⟩) := by
  have heq : pushAll {} chunks = pushAll {} chunks' := by rw [pushAll_fresh, pushAll_fresh, h]
  exact ⟨by rw [heq], by rw [heq], by rw [heq], fun _ _ => fallsInto_iff_pushAll chunks⟩

theorem cuts_do_not_matter_brokenFrame :
    (pushAll {} [[0xFF, 0x3C], [0x3C, 0x3C, 0x62, 0x3E], [], [0x3E, 0x3E]]).1 =
      (pushAll {} [[0xFF, 0x3C, 0x3C, 0x3C, 0x62, 0x3E, 0x3E, 0x3E]]).1 ∧
    FallsInto [0xFF, 0x3C, 0x3C, 0x3C, 0x62, 0x3E, 0x3E, 0x3E] [.noise "\uFFFD", .malformed "<b"] [0x3E] := by
  have hbytes : [[0xFF, 0x3C], [0x3C, 0x3C, 0x62, 0x3E], [], [0x3E, 0x3E]].flatten =
      [[(0xFF : UInt8), 0x3C, 0x3C, 0x3C, 0x62, 0x3E, 0x3E, 0x3E]].flatten := rfl
  obtain ⟨hitems, -, -, hfalls⟩ := cuts_do_not_matter hbytes
  exact ⟨hitems, (hfalls _ _).mpr (by decide +kernel)⟩

end BlockStudio.Decoder
