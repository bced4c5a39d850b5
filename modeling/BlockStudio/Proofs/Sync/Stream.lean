import BlockStudio.Proofs.Sync.Frame
import BlockStudio.Proofs.Sync.Scan
import BlockStudio.Proofs.Text.Utf8

namespace BlockStudio

open Decoder

variable {r : Response} {rs : List Response} {rest : List UInt8} {e : List Char}

lemma Purpose.name_chars {p : Purpose} (h : p.isOther = false) :
    ofName p.name = p ∧ '@' ∉ p.name.toList ∧ '>' ∉ p.name.toList := by
  cases p with
  | other s => cases h
  | _ => decide

namespace Response

structure Named (r : Response) : Prop where
  purpose : r.purpose.isOther = false
  origin : ∀ id, r.origin = some id → id < UInt64.size / 2

lemma Named.sendable (h : r.Named) : r.Sendable where
  purpose := (Purpose.name_chars h.purpose).1
  name := noPair_of_notMem (Purpose.name_chars h.purpose).2.1
  origin := h.origin

lemma Named.notMem_name (h : r.Named) : '>' ∉ r.purpose.name.toList := (Purpose.name_chars h.purpose).2.2

def lead (r : Response) : String := r.header ++ ("@@" ++ (statusText r.success ++ "=="))

lemma body_toList (r : Response) : r.body.toList = r.lead.toList ++ Payload.escapeOnce r.payload.toList := by
  rw [body_eq, lead, ← Payload.escapeChars_eq, Payload.escape]
  simp only [String.toList_append, String.toList_ofList, List.append_assoc]

lemma lead_toList (r : Response) : r.lead.toList =
    r.header.toList ++ ('@' :: '@' :: (statusText r.success).toList) ++ ['=', '='] := by
  rw [lead]
  simp only [String.toList_append, List.append_assoc]
  rfl

lemma notMem_lead (hn : '>' ∉ r.purpose.name.toList) : '>' ∉ r.lead.toList := by
  have ho : '>' ∉ (originText r.origin).toList := notMem_originText (by decide) (by decide)
  have hs : '>' ∉ (statusText r.success).toList := by cases r.success <;> decide
  rw [lead_toList, header_toList]
  simp [hn, ho, hs]

lemma noPair_lead_append (hn : '>' ∉ r.purpose.name.toList) (he : NoPair '>' e) : NoPair '>' (r.lead.toList ++ e) :=
  noPair_append.mpr ⟨noPair_of_notMem (notMem_lead hn), he, fun hx => notMem_lead hn (List.mem_of_getLast? hx.1)⟩

lemma getLast?_lead_append (hn : '>' ∉ r.purpose.name.toList) (he : e.getLast? ≠ some '>') :
    (r.lead.toList ++ e).getLast? ≠ some '>' := by
  cases e with
  | nil =>
    rw [List.append_nil]
    exact fun hx => notMem_lead hn (List.mem_of_getLast? hx)
  | cons c e => rwa [List.getLast?_append_of_ne_nil _ (List.cons_ne_nil c e)]

lemma bytes_frame (r : Response) : Utf8.bytes r.frame ++ rest =
    opening :: opening :: (Utf8.encode (r.lead.toList ++ Payload.escapeOnce r.payload.toList) ++
      closing :: closing :: rest) := by
  have hlt : Utf8.bytes "<<" = [opening, opening] := by decide
  have hgt : Utf8.bytes ">>" = [closing, closing] := by decide
  rw [frame, Utf8.bytes_append, Utf8.bytes_append, hlt, hgt, Utf8.bytes, body_toList]
  simp only [List.cons_append, List.nil_append, List.append_assoc]

lemma scan_lead (h : r.Sendable) (hn : '>' ∉ r.purpose.name.toList) (he : NoPair '>' e) (hl : e.getLast? ≠ some '>')
    (rest : List UInt8) :
    scan (opening :: opening :: (Utf8.encode (r.lead.toList ++ e) ++ closing :: closing :: rest)) =
      (.frame { r with payload := String.ofList (Payload.unescapeChars e) } :: (scan rest).1, (scan rest).2) := by
  have hplain : ('>' : Char).toNat < 0x80 := by decide
  have hcut : cutAtPair closing (Utf8.encode (r.lead.toList ++ e) ++ closing :: closing :: rest) =
      some (Utf8.encode (r.lead.toList ++ e), rest) := by
    refine cutAtPair_append_pair (Utf8.noPair_encode hplain (noPair_lead_append hn he)) ?_ rest
    exact fun hx => getLast?_lead_append hn hl ((Utf8.getLast?_encode_plain hplain).mp hx)
  have htext : Utf8.text (Utf8.encode (r.lead.toList ++ e)) =
      r.header ++ ("@@" ++ (statusText r.success ++ ("==" ++ String.ofList e))) := by
    rw [Utf8.text, Utf8.decode_encode, lead, ← String.toList_inj]
    simp only [String.toList_ofList, String.toList_append, List.append_assoc]
  rw [scan_of_frame (cutAtPair_self _ _) hcut, noiseOf_nil, List.nil_append, readBody, htext, parse_text h,
    Payload.unescape, String.toList_ofList]

lemma scan_frame (h : r.Sendable) (hn : '>' ∉ r.purpose.name.toList)
    (hl : Payload.trailing '>' r.payload.toList % 2 = 0) (rest : List UInt8) :
    scan (Utf8.bytes r.frame ++ rest) = (.frame r :: (scan rest).1, (scan rest).2) := by
  have hlast : (Payload.escapeOnce r.payload.toList).getLast? ≠ some '>' := by
    rw [ne_eq, Payload.getLast?_escapeOnce]
    omega
  rw [bytes_frame, scan_lead h hn (Payload.noPair_escapeOnce (.inr rfl) _) hlast, Payload.unescape_escapeOnce,
    String.ofList_toList]

lemma scan_frame_short (h : r.Named) (hl : Payload.trailing '>' r.payload.toList % 2 = 1) (rest : List UInt8) :
    ∃ q : String, r.payload = q ++ ">" ∧ scan (Utf8.bytes r.frame ++ rest) =
      (.frame { r with payload := q } :: (scan (closing :: rest)).1, (scan (closing :: rest)).2) := by
  obtain ⟨e, he⟩ := List.getLast?_eq_some_iff.mp ((Payload.getLast?_escapeOnce _).mpr hl)
  obtain ⟨hne, -, hend⟩ := noPair_append.mp (he ▸ Payload.noPair_escapeOnce (.inr rfl) r.payload.toList)
  have hlast : e.getLast? ≠ some '>' := fun hx => hend ⟨hx, rfl⟩
  have hclose : Utf8.encode (r.lead.toList ++ (e ++ ['>'])) = Utf8.encode (r.lead.toList ++ e) ++ [closing] := by
    rw [← List.append_assoc, Utf8.encode_append]
    rfl
  refine ⟨String.ofList (Payload.unescapeChars e), ?_, ?_⟩
  · have hun := Payload.unescape_escapeOnce r.payload.toList
    rw [he, Payload.unescapeChars_concat (by decide)] at hun
    rw [← String.toList_inj, String.toList_append, String.toList_ofList]
    exact hun.symm
  · rw [bytes_frame, he, hclose, List.append_assoc]
    exact scan_lead h.sendable h.notMem_name hne hlast (closing :: rest)

end Response

lemma scan_frames (h : ∀ r ∈ rs, r.Named) :
    scan (rs.flatMap fun r => Utf8.bytes r.frame) = (rs.map .frame, []) ↔
      ∀ r ∈ rs, Payload.trailing '>' r.payload.toList % 2 = 0 := by
  induction rs with
  | nil => exact ⟨fun _ r hr => absurd hr List.not_mem_nil, fun _ => rfl⟩
  | cons r rs ih =>
    obtain ⟨hr, hrs⟩ := List.forall_mem_cons.mp h
    rw [List.flatMap_cons, List.forall_mem_cons]
    rcases Nat.mod_two_eq_zero_or_one (Payload.trailing '>' r.payload.toList) with hl | hl
    · rw [Response.scan_frame hr.sendable hr.notMem_name hl, List.map_cons, Prod.mk.injEq, List.cons.injEq, and_iff_right rfl,
        and_iff_right hl, ← Prod.ext_iff (y := (rs.map Decoded.frame, [])), ih hrs]
    · obtain ⟨q, hq, hs⟩ := Response.scan_frame_short hr hl (rs.flatMap fun r => Utf8.bytes r.frame)
      rw [hs, hl, List.map_cons]
      refine ⟨fun he => ?_, fun he => absurd he.1 (by decide)⟩
      have hp : q = r.payload := by
        have hf := (List.cons.inj (Prod.ext_iff.mp he).1).1
        exact congrArg Response.payload (Decoded.frame.inj hf)
      have hlen := congrArg String.length (hp.trans hq)
      simp at hlen

theorem frames_arrive_iff (hp : ∀ r ∈ rs, r.purpose.isOther = false)
    (ho : ∀ r ∈ rs, ∀ id, r.origin = some id → id < 2 ^ 63) {chunks : List (List UInt8)}
    (hc : chunks.flatten = rs.flatMap fun r => Utf8.bytes r.frame) :
    (Decoder.pushAll {} chunks).1 = rs.map .frame ∧ (Decoder.pushAll {} chunks).2.pending = 0 ↔
      ∀ r ∈ rs, Payload.trailing '>' r.payload.toList % 2 = 0 := by
  have hn : ∀ r ∈ rs, r.Named := fun r hr => ⟨hp r hr, ho r hr⟩
  rw [← scan_frames hn, pushAll_eq settled_fresh, List.nil_append, hc, pending, List.length_eq_zero_iff]
  exact ⟨fun h => Prod.ext h.1 h.2, fun h => Prod.ext_iff.mp h⟩

theorem frames_arrive_in_two_pieces :
    (Decoder.pushAll {} [(Utf8.bytes (Response.frame ⟨.block, some 1, true, ">>a"⟩)).take 5,
        (Utf8.bytes (Response.frame ⟨.block, some 1, true, ">>a"⟩)).drop 5]).1 =
      [.frame ⟨.block, some 1, true, ">>a"⟩] := by
  have hsent : ∀ r ∈ [(⟨.block, some 1, true, ">>a"⟩ : Response)],
      r.purpose.isOther = false ∧ (∀ id, r.origin = some id → id < 2 ^ 63) ∧
        Payload.trailing '>' r.payload.toList % 2 = 0 := by
    intro r hr
    obtain rfl := List.mem_singleton.mp hr
    exact ⟨rfl, fun id hid => Option.some.inj hid ▸ by decide, by decide⟩
  refine ((frames_arrive_iff (fun r hr => (hsent r hr).1) (fun r hr => (hsent r hr).2.1) ?_).mpr
    fun r hr => (hsent r hr).2.2).1
  simp

theorem closing_payload_cut_short :
    Decoder.pushAll {} [Utf8.bytes (Response.frame ⟨.block, some 1, true, ">"⟩)] =
      ([.frame ⟨.block, some 1, true, ""⟩], ⟨[closing]⟩) := by
  decide +kernel

end BlockStudio
