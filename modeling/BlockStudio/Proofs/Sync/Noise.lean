import BlockStudio.Proofs.Sync.Pieces
import BlockStudio.Proofs.Sync.Stream

/-! Bytes before a frame, and which of them leave the frame as it is. -/

namespace BlockStudio

open Text

variable {r : Response} {c : Char} {ds cs rest : List Char} {bs n m : List UInt8} {k : ℕ} {out : List Decoded}

namespace Decoder

inductive Prompts : List Char → Prop
  | nil : Prompts []
  | blank {c : Char} {cs : List Char} (hc : isBlank c = true) (h : Prompts cs) : Prompts (c :: cs)
  | prompt {ds cs : List Char} (hne : ds ≠ []) (hd : ∀ d ∈ ds, isDecimalDigit d = true) (h : Prompts cs) :
      Prompts (promptLead ++ (ds ++ '|' :: '#' :: cs))

lemma dropPrompt?_eq_some_iff : dropPrompt? cs = some rest ↔ ∃ ds after, ds ≠ [] ∧ (∀ d ∈ ds, isDecimalDigit d = true) ∧
    cs = promptLead ++ (ds ++ '|' :: '#' :: after) ∧ rest = after.dropWhile isBlank := by
  rw [dropPrompt?]
  constructor
  · intro h
    split at h
    · rename_i after hafter
      obtain ⟨tail, htail, hend⟩ := Option.bind_eq_some_iff.mp hafter
      obtain ⟨number, hlead, hdigits⟩ := Option.bind_eq_some_iff.mp htail
      obtain ⟨ds, hne, hd, rfl⟩ := exists_digits_of_dropDigits? hdigits
      obtain rfl := dropLead?_eq_some_iff.mp hend
      exact ⟨ds, after, hne, hd, dropLead?_eq_some_iff.mp hlead, (Option.some.inj h).symm⟩
    · cases h
  · rintro ⟨ds, after, hne, hd, rfl, rfl⟩
    have hend : dropLead? ['|', '#'] ('|' :: '#' :: after) = some after := dropLead?_append ['|', '#'] after
    rw [dropLead?_append, Option.bind_some, dropDigits?_append hne hd rfl, Option.bind_some, hend]

lemma Prompts.dropWhile (h : Prompts cs) : Prompts (cs.dropWhile isBlank) := by
  induction h with
  | nil => exact .nil
  | blank hc _ ih => rwa [List.dropWhile_cons_of_pos hc]
  | prompt hne hd h _ => exact .prompt hne hd h

lemma prompts_dropWhile : Prompts (cs.dropWhile isBlank) ↔ Prompts cs := by
  refine ⟨fun h => ?_, Prompts.dropWhile⟩
  induction cs with
  | nil => exact .nil
  | cons c cs ih =>
    by_cases hc : isBlank c = true
    · rw [List.dropWhile_cons_of_pos hc] at h
      exact .blank hc (ih h)
    · rwa [List.dropWhile_cons_of_neg hc] at h

lemma prompts_of_isPrompts (h : isPrompts k cs = true) : Prompts cs := by
  induction k generalizing cs with
  | zero =>
    cases cs with
    | nil => exact .nil
    | cons c cs => cases h
  | succ k ih =>
    cases cs with
    | nil => exact .nil
    | cons c cs =>
      simp only [isPrompts] at h
      split at h
      · rename_i rest hrest
        obtain ⟨ds, after, hne, hd, he, rfl⟩ := dropPrompt?_eq_some_iff.mp hrest
        rw [he]
        exact .prompt hne hd (prompts_dropWhile.mp (ih h))
      · cases h

lemma isPrompts_of_prompts (h : Prompts cs) (hk : (cs.dropWhile isBlank).length ≤ k) :
    isPrompts k (cs.dropWhile isBlank) = true := by
  induction h generalizing k with
  | nil => cases k <;> rfl
  | blank hc _ ih =>
    rw [List.dropWhile_cons_of_pos hc] at hk ⊢
    exact ih hk
  | @prompt ds cs hne hd h ih =>
    -- The letter a prompt starts with is no white space, and the prompt takes at least one step of the count.
    change (promptLead ++ (ds ++ '|' :: '#' :: cs)).length ≤ k at hk
    change isPrompts k (promptLead ++ (ds ++ '|' :: '#' :: cs)) = true
    have hlen := (List.dropWhile_sublist (l := cs) isBlank).length_le
    simp only [List.length_append, List.length_cons] at hk
    cases k with
    | zero => omega
    | succ k =>
      have hdrop := dropPrompt?_eq_some_iff.mpr ⟨ds, cs, hne, hd, rfl, rfl⟩
      have hstep : isPrompts (k + 1) (promptLead ++ (ds ++ '|' :: '#' :: cs)) = isPrompts k (cs.dropWhile isBlank) := by
        simp only [promptLead, List.cons_append, List.nil_append] at hdrop ⊢
        simp only [isPrompts, hdrop]
      rw [hstep]
      exact ih (by omega)

lemma isBenign_iff (s : String) : isBenign s = true ↔ Prompts s.toList :=
  ⟨fun h => prompts_dropWhile.mp (prompts_of_isPrompts h), fun h => isPrompts_of_prompts h le_rfl⟩

inductive Reported (n : List UInt8) : List Decoded → Prop
  | prompts (h : Prompts (Utf8.text n).toList) : Reported n []
  | noise (h : ¬ Prompts (Utf8.text n).toList) : Reported n [.noise (Utf8.text n)]

lemma reported_iff : Reported n out ↔ out = noiseOf n := by
  rw [noiseOf]
  constructor
  · rintro (h | h)
    · exact (if_pos ((isBenign_iff _).mpr h)).symm
    · exact (if_neg (mt (isBenign_iff _).mp h)).symm
  · rintro rfl
    split_ifs with h
    · exact .prompts ((isBenign_iff _).mp h)
    · exact .noise (mt (isBenign_iff _).mpr h)

end Decoder

open Decoder

lemma Purpose.ofName_lengthened {p : Purpose} (h : p.isOther = false) :
    ofName ("<" ++ p.name) = other ("<" ++ p.name) := by
  cases p with
  | other s => cases h
  | _ => decide

namespace Response

/-- The response whose frame is that of `r` after one more opening bracket. -/
def lengthened (r : Response) : Response := { r with purpose := .other ("<" ++ r.purpose.name) }

lemma frame_lengthened (r : Response) : r.lengthened.frame = "<" ++ r.frame := by
  have hlt : "<<" ++ "<" = "<" ++ "<<" := rfl
  simp only [frame, body, lengthened, Purpose.name]
  simp only [← String.append_assoc, hlt]

lemma bytes_frame_lengthened (r : Response) : Utf8.bytes r.lengthened.frame = opening :: Utf8.bytes r.frame := by
  have hlt : Utf8.bytes "<" = [opening] := by decide
  rw [frame_lengthened, Utf8.bytes_append, hlt, List.singleton_append]

lemma lengthened_name (r : Response) : r.lengthened.purpose.name = "<" ++ r.purpose.name := rfl

lemma Named.sendable_lengthened (h : r.Named) : r.lengthened.Sendable where
  purpose := Purpose.ofName_lengthened h.purpose
  name := by
    have hat := (Purpose.name_chars h.purpose).2.1
    refine noPair_of_notMem ?_
    rw [lengthened_name]
    simp [hat]
  origin := h.origin

lemma Named.notMem_lengthened (h : r.Named) : '>' ∉ r.lengthened.purpose.name.toList := by
  have hgt := h.notMem_name
  rw [lengthened_name]
  simp [hgt]

end Response

namespace Decoder

lemma scan_before (h : NoPair opening (n ++ [opening])) (bs : List UInt8) :
    scan (n ++ opening :: opening :: bs) =
      (noiseOf n ++ (scan (opening :: opening :: bs)).1, (scan (opening :: opening :: bs)).2) := by
  have hself := cutAtPair_self opening bs
  have hfirst := cutAtPair_of_first h bs
  cases hc : cutAtPair closing bs with
  | none => rw [scan_of_open hfirst hc, scan_of_open hself hc, noiseOf_nil, List.append_nil]
  | some p => rw [scan_of_frame hfirst hc, scan_of_frame hself hc, noiseOf_nil, List.nil_append]

lemma scan_frame_after (h : NoPair opening (n ++ [opening])) (hs : r.Sendable) (hn : '>' ∉ r.purpose.name.toList)
    (hl : r.payload.toList.getLast? ≠ some '>') : scan (n ++ Utf8.bytes r.frame) = (noiseOf n ++ [.frame r], []) := by
  obtain ⟨bs, hbs⟩ : ∃ bs, Utf8.bytes r.frame = opening :: opening :: bs :=
    ⟨_, (List.append_nil _).symm.trans (Response.bytes_frame r)⟩
  have heven : Payload.trailing '>' r.payload.toList % 2 = 0 := by rw [Payload.trailing_eq_zero hl]
  have hscan : scan (Utf8.bytes r.frame) = ([.frame r], []) := by
    rw [← List.append_nil (Utf8.bytes r.frame), Response.scan_frame hs hn heven]
    rfl
  rw [hbs] at hscan ⊢
  rw [scan_before h, hscan]

end Decoder

open Decoder

theorem frame_after_noise_iff (hn : NoPair opening n) (hp : r.purpose.isOther = false)
    (ho : ∀ id, r.origin = some id → id < 2 ^ 63) (hl : r.payload.toList.getLast? ≠ some '>')
    {chunks : List (List UInt8)} (hc : chunks.flatten = n ++ Utf8.bytes r.frame) :
    ((∃ out, Reported n out ∧ pushAll {} chunks = (out ++ [.frame r], {})) ↔ n.getLast? ≠ some opening) ∧
      ∀ m, n = m ++ [opening] → ∃ out, Reported m out ∧
        pushAll {} chunks = (out ++ [.frame { r with purpose := .other ("<" ++ r.purpose.name) }], {}) := by
  have hr : r.Named := ⟨hp, ho⟩
  -- The last bracket of the noise and the frame together are the frame of another response.
  have hlong : ∀ m, n = m ++ [opening] → pushAll {} chunks = (noiseOf m ++ [.frame r.lengthened], {}) := by
    rintro m rfl
    have hbytes : m ++ [opening] ++ Utf8.bytes r.frame = m ++ Utf8.bytes r.lengthened.frame := by
      rw [Response.bytes_frame_lengthened, List.append_assoc, List.singleton_append]
    rw [pushAll_fresh, hc, hbytes, scan_frame_after hn hr.sendable_lengthened hr.notMem_lengthened hl]
  refine ⟨⟨?_, fun hlast => ?_⟩, fun m hm => ⟨noiseOf m, reported_iff.mpr rfl, hlong m hm⟩⟩
  · rintro ⟨out, -, hpush⟩ hlast
    obtain ⟨m, hm⟩ := List.getLast?_eq_some_iff.mp hlast
    have hitems := congrArg Prod.fst ((hlong m hm).symm.trans hpush)
    have hframe := Decoded.frame.inj (List.append_singleton_inj.mp hitems).2
    have hother : r.lengthened.purpose.isOther = true := rfl
    rw [hframe, hp] at hother
    cases hother
  · refine ⟨noiseOf n, reported_iff.mpr rfl, ?_⟩
    rw [pushAll_fresh, hc, scan_frame_after (noPair_concat.mpr ⟨hn, hlast⟩) hr.sendable hr.notMem_name hl]

theorem frame_after_noise_iff_brokenPrompt :
    pushAll {} [Utf8.bytes "#|kawa:3|# " ++ [0xE2, 0x82] ++ Utf8.bytes ">",
        Utf8.bytes (Response.frame ⟨.doIt, some 12, true, "a>>b"⟩)] =
      ([.noise "#|kawa:3|# \uFFFD>", .frame ⟨.doIt, some 12, true, "a>>b"⟩], {}) := by
  have hflat : [Utf8.bytes "#|kawa:3|# " ++ [0xE2, 0x82] ++ Utf8.bytes ">",
      Utf8.bytes (Response.frame ⟨.doIt, some 12, true, "a>>b"⟩)].flatten =
        Utf8.bytes "#|kawa:3|# " ++ [0xE2, 0x82] ++ Utf8.bytes ">" ++
          Utf8.bytes (Response.frame ⟨.doIt, some 12, true, "a>>b"⟩) := by
    simp
  obtain ⟨out, hout, hpush⟩ := (frame_after_noise_iff (r := ⟨.doIt, some 12, true, "a>>b"⟩)
    (cutAtPair_eq_none_iff.mp (by decide)) rfl (fun id hid => Option.some.inj hid ▸ by decide) (by decide) hflat).1.mpr
    (by decide)
  have htext : noiseOf (Utf8.bytes "#|kawa:3|# " ++ [0xE2, 0x82] ++ Utf8.bytes ">") = [.noise "#|kawa:3|# \uFFFD>"] := by
    decide +kernel
  rw [hpush, reported_iff.mp hout, htext]
  rfl

theorem bracket_joins_frame :
    pushAll {} [[opening] ++ Utf8.bytes (Response.frame ⟨.block, some 1, true, "ok"⟩)] =
        ([.frame ⟨.other "<block", some 1, true, "ok"⟩], {}) ∧
      ¬ ∃ out, Reported [opening] out ∧
        pushAll {} [[opening] ++ Utf8.bytes (Response.frame ⟨.block, some 1, true, "ok"⟩)] =
          (out ++ [.frame ⟨.block, some 1, true, "ok"⟩], {}) := by
  have hpush : pushAll {} [[opening] ++ Utf8.bytes (Response.frame ⟨.block, some 1, true, "ok"⟩)] =
      ([.frame ⟨.other "<block", some 1, true, "ok"⟩], {}) := by
    decide +kernel
  refine ⟨hpush, ?_⟩
  rintro ⟨out, -, hout⟩
  rw [hpush] at hout
  have hlast := congrArg (fun p => p.1.getLast?) hout
  simp at hlast

end BlockStudio
