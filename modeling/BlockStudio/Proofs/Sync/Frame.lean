import BlockStudio.Proofs.Sync.Payload
import BlockStudio.Proofs.Text.Numeral
import BlockStudio.Sync.Frame
import Mathlib.Algebra.Group.Nat.Defs

namespace BlockStudio

variable {a : Char} {s sep t u : String} {id : BlockId}

namespace Text

lemma cut_pair (hs : sep.toList = [a, a]) (hp : NoPair a s.toList) (hl : s.toList.getLast? ≠ some a) (t : String) :
    cut sep (s ++ (sep ++ t)) = some (s, t) := by
  simp only [cut, String.toList_append, hs, List.cons_append, List.nil_append, cutChars_pair hp hl, Option.map_some,
    String.ofList_toList]

lemma cutLast_append (hs : sep.toList = [a]) (ht : a ∉ t.toList) : cutLast a (s ++ (sep ++ t)) = some (s, t) := by
  simp only [cutLast, String.toList_append, hs, List.cons_append, List.nil_append, cutLastChars_append _ ht,
    Option.map_some, String.ofList_toList]

lemma cutChars_of_cut (h : cut sep s = some (t, u)) :
    cutChars sep.toList s.toList = some (t.toList, u.toList) := by
  obtain ⟨⟨l, m⟩, hcut, he⟩ := Option.map_eq_some_iff.mp h
  obtain ⟨rfl, rfl⟩ := Prod.mk.inj he
  rw [hcut, String.toList_ofList, String.toList_ofList]

lemma toList_of_cutLast (h : cutLast a s = some (t, u)) : s.toList = t.toList ++ a :: u.toList := by
  obtain ⟨⟨l, m⟩, hcut, he⟩ := Option.map_eq_some_iff.mp h
  obtain ⟨rfl, rfl⟩ := Prod.mk.inj he
  rw [String.toList_ofList, String.toList_ofList]
  exact eq_append_of_cutLastChars hcut

end Text

lemma Purpose.name_ofName (s : String) : (ofName s).name = s := by
  rw [ofName]
  split_ifs with h₁ h₂ h₃ h₄ h₅
  · exact h₁.symm
  · exact h₂.symm
  · exact h₃.symm
  · exact h₄.symm
  · exact h₅.symm
  · rfl

lemma originText_chars {origin : Option BlockId} {c : Char} (h : c ∈ (originText origin).toList) :
    c = '-' ∨ c.isDigit = true := by
  cases origin with
  | none =>
    have hc : c = '-' ∨ c = '1' := by simpa [originText] using h
    rcases hc with rfl | rfl
    · exact .inl rfl
    · exact .inr rfl
  | some id => exact .inr (Text.isDigit_of_mem_natText h)

lemma notMem_originText {origin : Option BlockId} (hm : a ≠ '-') (hd : a.isDigit = false) :
    a ∉ (originText origin).toList := by
  intro h
  rcases originText_chars h with hc | hc
  · exact hm hc
  · rw [hd] at hc
    cases hc

lemma originText_ne_nil (origin : Option BlockId) : (originText origin).toList ≠ [] := by
  cases origin with
  | none => exact List.cons_ne_nil '-' ['1']
  | some id => exact Text.natText_ne_nil id

namespace Response

variable {r : Response} {body : String}

lemma readOrigin_originText {origin : Option BlockId} (h : ∀ id, origin = some id → id < UInt64.size / 2) :
    readOrigin (originText origin) = .ok origin := by
  cases origin with
  | none => rfl
  | some id =>
    rw [readOrigin, originText, Text.integer?_natText (h id rfl)]
    exact congrArg Except.ok (if_pos (Int.natCast_nonneg id))

lemma readStatus_statusText (b : Bool) : readStatus (statusText b) = .ok b := by
  cases b
  · rfl
  · rfl

def header (r : Response) : String := r.purpose.name ++ (":" ++ originText r.origin)

structure Sendable (r : Response) : Prop where
  purpose : Purpose.ofName r.purpose.name = r.purpose
  name : NoPair '@' r.purpose.name.toList
  origin : ∀ id, r.origin = some id → id < UInt64.size / 2

lemma header_toList (r : Response) :
    r.header.toList = r.purpose.name.toList ++ ':' :: (originText r.origin).toList := by
  rw [header, String.toList_append, String.toList_append]
  rfl

lemma noPair_header (h : r.Sendable) : NoPair '@' r.header.toList := by
  rw [header_toList, noPair_append]
  refine ⟨h.name, noPair_cons.mpr ⟨by simp, noPair_of_notMem ?_⟩, by simp⟩
  exact notMem_originText (by decide) (by decide)

lemma header_getLast (r : Response) : r.header.toList.getLast? ≠ some '@' := by
  obtain ⟨cs, c, hc⟩ : ∃ cs c, (originText r.origin).toList = cs ++ [c] :=
    ⟨_, _, (List.dropLast_concat_getLast (originText_ne_nil r.origin)).symm⟩
  have hne : c ≠ '@' := by
    rintro rfl
    have hat : '@' ∉ (originText r.origin).toList := notMem_originText (by decide) (by decide)
    rw [hc] at hat
    simp at hat
  rw [header_toList, hc, ← List.cons_append, ← List.append_assoc, List.getLast?_concat]
  exact fun he => hne (Option.some.inj he)

lemma notMem_statusText (b : Bool) : '=' ∉ (statusText b).toList := by
  cases b
  · decide
  · decide

lemma body_eq (r : Response) :
    r.body = r.header ++ ("@@" ++ (statusText r.success ++ ("==" ++ Payload.escape r.payload))) := by
  simp only [body, header, String.append_assoc]

lemma parse_text (h : r.Sendable) (q : String) :
    parse (r.header ++ ("@@" ++ (statusText r.success ++ ("==" ++ q)))) =
      .ok { r with payload := Payload.unescape q } := by
  have hst : (statusText r.success).toList.getLast? ≠ some '=' := fun he =>
    notMem_statusText r.success (List.mem_of_getLast? he)
  have hcut₁ : Text.cut "@@" (r.header ++ ("@@" ++ (statusText r.success ++ ("==" ++ q)))) =
      some (r.header, statusText r.success ++ ("==" ++ q)) :=
    Text.cut_pair rfl (noPair_header h) (header_getLast r) _
  have hcut₂ : Text.cut "==" (statusText r.success ++ ("==" ++ q)) = some (statusText r.success, q) :=
    Text.cut_pair rfl (noPair_of_notMem (notMem_statusText r.success)) hst q
  have hcut₃ : Text.cutLast ':' r.header = some (r.purpose.name, originText r.origin) :=
    Text.cutLast_append rfl (notMem_originText (by decide) (by decide))
  rw [parse, hcut₁]
  simp only [require, bind, Except.bind, hcut₂, hcut₃, readStatus_statusText, readOrigin_originText h.origin, h.purpose]
  rfl

lemma unescape_escape (s : String) : Payload.unescape (Payload.escape s) = s := by
  rw [Payload.unescape, Payload.escape, String.toList_ofList, Payload.escapeChars_eq, Payload.unescape_escapeOnce,
    String.ofList_toList]

lemma parse_body (h : r.Sendable) : parse r.body = .ok r := by
  rw [body_eq, parse_text h, unescape_escape]

lemma require_eq_ok {α : Type} {e : FrameError} {o : Option α} {a : α} (h : require e o = .ok a) : o = some a := by
  cases o with
  | none => cases h
  | some b => rw [Except.ok.inj h]

lemma lt_of_readOrigin (h : readOrigin s = .ok (some id)) : id < UInt64.size / 2 := by
  rw [readOrigin] at h
  split at h
  · rename_i n hn
    have hlt := Text.lt_of_integer? hn
    have hid := Except.ok.inj h
    split at hid
    · rw [← Option.some.inj hid]
      exact (Int.toNat_lt ‹0 ≤ n›).mpr hlt
    · cases hid
  · cases h

lemma bind_eq_ok {α β : Type} {x : Except FrameError α} {f : α → Except FrameError β} {b : β}
    (h : (x >>= f) = .ok b) : ∃ a, x = .ok a ∧ f a = .ok b := by
  cases x with
  | error e => cases h
  | ok a => exact ⟨a, rfl, h⟩

lemma exists_header_of_parse (h : parse body = .ok r) : ∃ header rest purpose origin,
    Text.cut "@@" body = some (header, rest) ∧ Text.cutLast ':' header = some (purpose, origin) ∧
      r.purpose = .ofName purpose ∧ readOrigin origin = .ok r.origin := by
  rw [parse] at h
  obtain ⟨⟨header, rest⟩, hheader, h⟩ := bind_eq_ok h
  obtain ⟨⟨status, payload⟩, -, h⟩ := bind_eq_ok h
  obtain ⟨⟨purpose, origin⟩, hpurpose, h⟩ := bind_eq_ok h
  obtain ⟨success, -, h⟩ := bind_eq_ok h
  obtain ⟨origin', horigin, h⟩ := bind_eq_ok h
  obtain rfl := Except.ok.inj h
  exact ⟨header, rest, purpose, origin, require_eq_ok hheader, require_eq_ok hpurpose, rfl, horigin⟩

lemma sendable_of_parse (h : parse body = .ok r) : r.Sendable := by
  obtain ⟨header, rest, purpose, origin, hcut, hlast, hpurpose, horigin⟩ := exists_header_of_parse h
  have hname : r.purpose.name = purpose := by rw [hpurpose, Purpose.name_ofName]
  refine ⟨by rw [hname, hpurpose], ?_, fun id hid => lt_of_readOrigin (hid ▸ horigin)⟩
  have hpair : NoPair '@' header.toList := Text.noPair_of_cutChars (Text.cutChars_of_cut hcut)
  rw [hname]
  exact (noPair_append.mp (Text.toList_of_cutLast hlast ▸ hpair)).1

theorem responses_read_back :
    (∀ r : Response, (∃ body, r.frame = "<<" ++ body ++ ">>" ∧ parse body = .ok r) ↔
      Purpose.ofName r.purpose.name = r.purpose ∧ NoPair '@' r.purpose.name.toList ∧
        ∀ id, r.origin = some id → id < 2 ^ 63) ∧
    ∀ s, NoPair '<' (Payload.escape s).toList ∧ NoPair '>' (Payload.escape s).toList ∧
      Payload.unescape (Payload.escape s) = s := by
  refine ⟨fun r => ⟨?_, ?_⟩, fun s => ⟨?_, ?_, unescape_escape s⟩⟩
  · rintro ⟨body, -, hread⟩
    have h := sendable_of_parse hread
    exact ⟨h.purpose, h.name, h.origin⟩
  · rintro ⟨hpurpose, hname, horigin⟩
    exact ⟨r.body, rfl, parse_body ⟨hpurpose, hname, horigin⟩⟩
  · rw [Payload.escape, String.toList_ofList, Payload.escapeChars_eq]
    exact Payload.noPair_escapeOnce (.inl rfl) s.toList
  · rw [Payload.escape, String.toList_ofList, Payload.escapeChars_eq]
    exact Payload.noPair_escapeOnce (.inr rfl) s.toList

end Response

end BlockStudio
