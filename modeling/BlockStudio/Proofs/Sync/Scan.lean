import BlockStudio.Proofs.Text.Pairs
import BlockStudio.Sync.Decoder

/-! What the decoder finds depends on the bytes and not on the pieces in which they come. -/

namespace BlockStudio.Decoder

variable {b : UInt8} {bs cs l m p r : List UInt8} {n k : ℕ} {d : Decoder}

lemma cutAtPair_append_pair (hl : NoPair b l) (he : l.getLast? ≠ some b) (m : List UInt8) :
    cutAtPair b (l ++ b :: b :: m) = some (l, m) := by
  induction l with
  | nil => simp [cutAtPair]
  | cons x l ih =>
    obtain ⟨hx, hl⟩ := noPair_cons.mp hl
    cases l with
    | nil =>
      have hne : x ≠ b := fun h => he (by rw [h, List.getLast?_singleton])
      simp [cutAtPair, hne]
    | cons y l =>
      rw [List.getLast?_cons_cons] at he
      have hne : ¬ (x = b ∧ y = b) := fun h => hx ⟨h.1, by rw [h.2, List.head?_cons]⟩
      rw [List.cons_append, List.cons_append, cutAtPair, if_neg hne, ← List.cons_append, ih hl he]
      rfl

lemma cutAtPair_eq_some (h : cutAtPair b l = some (p, r)) : l = p ++ b :: b :: r := by
  induction l using cutAtPair.induct b generalizing p with
  | case1 => cases h
  | case2 => cases h
  | case3 x y l hxy =>
    rw [cutAtPair, if_pos hxy] at h
    cases h
    rw [hxy.1, hxy.2, List.nil_append]
  | case4 x y l hxy ih =>
    rw [cutAtPair, if_neg hxy] at h
    obtain ⟨⟨q, s⟩, hq, he⟩ := Option.map_eq_some_iff.mp h
    cases he
    rw [ih hq, List.cons_append]

lemma cutAtPair_length (h : cutAtPair b l = some (p, r)) : r.length + 2 ≤ l.length := by
  have hl := congrArg List.length (cutAtPair_eq_some h)
  simp only [List.length_append, List.length_cons] at hl
  omega

lemma cutAtPair_append (h : cutAtPair b l = some (p, r)) (m : List UInt8) :
    cutAtPair b (l ++ m) = some (p, r ++ m) := by
  induction l using cutAtPair.induct b generalizing p with
  | case1 => cases h
  | case2 => cases h
  | case3 x y l hxy =>
    rw [cutAtPair, if_pos hxy] at h
    cases h
    rw [List.cons_append, List.cons_append, cutAtPair, if_pos hxy]
  | case4 x y l hxy ih =>
    rw [cutAtPair, if_neg hxy] at h
    obtain ⟨⟨q, s⟩, hq, he⟩ := Option.map_eq_some_iff.mp h
    cases he
    have hm := ih hq
    rw [List.cons_append] at hm
    rw [List.cons_append, List.cons_append, cutAtPair, if_neg hxy, hm]
    rfl

lemma drain_congr (hn : bs.length < n) (hk : bs.length < k) : drain n bs = drain k bs := by
  induction n generalizing bs k with
  | zero => cases hn
  | succ n ih =>
    cases k with
    | zero => cases hk
    | succ k =>
      rw [drain, drain]
      cases ho : cutAtPair opening bs with
      | none => rfl
      | some lr =>
        obtain ⟨lead, rest⟩ := lr
        have hl := cutAtPair_length ho
        dsimp only
        cases hc : cutAtPair closing rest with
        | none => rfl
        | some br =>
          obtain ⟨body, rest'⟩ := br
          have hl' := cutAtPair_length hc
          dsimp only
          have hrest : drain n rest' = drain k rest' := ih (by omega) (by omega)
          rw [hrest]

def scan (bs : List UInt8) : List Decoded × List UInt8 := drain (bs.length + 1) bs

lemma scan_of_none (h : cutAtPair opening bs = none) : scan bs = ([], bs) := by
  rw [scan, drain, h]

lemma scan_of_open (h : cutAtPair opening bs = some (l, r)) (hc : cutAtPair closing r = none) :
    scan bs = (noiseOf l, opening :: opening :: r) := by
  simp only [scan, drain, h, hc]

lemma scan_of_frame (h : cutAtPair opening bs = some (l, r)) (hc : cutAtPair closing r = some (m, p)) :
    scan bs = (noiseOf l ++ readBody m :: (scan p).1, (scan p).2) := by
  have h₁ := cutAtPair_length h
  have h₂ := cutAtPair_length hc
  have hd : drain bs.length p = scan p := drain_congr (by omega) (by omega)
  simp only [scan, drain, h, hc, hd]

lemma noiseOf_nil : noiseOf [] = [] := rfl

lemma cutAtPair_self (b : UInt8) (l : List UInt8) : cutAtPair b (b :: b :: l) = some ([], l) := by
  rw [cutAtPair, if_pos ⟨rfl, rfl⟩]

lemma scan_append (bs cs : List UInt8) : scan (bs ++ cs) =
    ((scan bs).1 ++ (scan ((scan bs).2 ++ cs)).1, (scan ((scan bs).2 ++ cs)).2) := by
  induction hk : bs.length using Nat.strongRecOn generalizing bs with
  | ind k ih =>
    cases ho : cutAtPair opening bs with
    | none => simp only [scan_of_none ho, List.nil_append]
    | some lr =>
      obtain ⟨lead, rest⟩ := lr
      have hl := cutAtPair_length ho
      have hoc := cutAtPair_append ho cs
      cases hc : cutAtPair closing rest with
      | none =>
        have hself : cutAtPair opening (opening :: opening :: rest ++ cs) = some ([], rest ++ cs) :=
          cutAtPair_self opening (rest ++ cs)
        rw [scan_of_open ho hc]
        cases hcc : cutAtPair closing (rest ++ cs) with
        | none =>
          rw [scan_of_open hoc hcc, scan_of_open hself hcc, noiseOf_nil, List.append_nil]
        | some br =>
          rw [scan_of_frame hoc hcc, scan_of_frame hself hcc, noiseOf_nil, List.nil_append]
      | some br =>
        obtain ⟨body, rest'⟩ := br
        have hl' := cutAtPair_length hc
        rw [scan_of_frame hoc (cutAtPair_append hc cs), scan_of_frame ho hc, ih rest'.length (by omega) rest' rfl]
        simp only [List.append_assoc, List.cons_append]

def Settled (d : Decoder) : Prop := scan d.buffer = ([], d.buffer)

lemma settled_fresh : Settled {} := rfl

lemma push_eq (d : Decoder) (bs : List UInt8) : d.push bs = ((scan (d.buffer ++ bs)).1, ⟨(scan (d.buffer ++ bs)).2⟩) := rfl

lemma settled_push (d : Decoder) (bs : List UInt8) : (d.push bs).2.Settled := by
  have h := scan_append (d.buffer ++ bs) []
  rw [List.append_nil, List.append_nil] at h
  obtain ⟨h₁, h₂⟩ := Prod.ext_iff.mp h
  rw [Settled, push_eq]
  exact Prod.ext (List.append_right_eq_self.mp h₁.symm) h₂.symm

def pushAll (d : Decoder) : List (List UInt8) → List Decoded × Decoder
  | [] => ([], d)
  | bs :: more => ((d.push bs).1 ++ (pushAll (d.push bs).2 more).1, (pushAll (d.push bs).2 more).2)

lemma pushAll_eq (h : d.Settled) (chunks : List (List UInt8)) : d.pushAll chunks =
    ((scan (d.buffer ++ chunks.flatten)).1, ⟨(scan (d.buffer ++ chunks.flatten)).2⟩) := by
  induction chunks generalizing d with
  | nil => rw [List.flatten_nil, List.append_nil, h, pushAll]
  | cons bs chunks ih =>
    rw [pushAll, ih (settled_push d bs), push_eq, List.flatten_cons, ← List.append_assoc,
      scan_append (d.buffer ++ bs)]

end BlockStudio.Decoder
