import BlockStudio.Proofs.Yail.Reader
import BlockStudio.Yail.Quoted

namespace BlockStudio.Yail

namespace Scanner

/-- Reads on until nothing is open on the level of characters. Out of a string that is at the first quote which no
backslash takes. What follows is left. -/
def toGap? (r : Scanner) : List Char → Option (Scanner × List Char)
  | [] => none
  | c :: cs => (r.step c).bind fun q => if q.place = .gap then some (q, cs) else q.toGap? cs

variable {r q : Scanner} {c : Char} {cs rest acc : List Char} {m n k : ℕ}

lemma toGap?_stay (hs : r.step c = some q) (hq : q.place ≠ .gap) (cs : List Char) :
    r.toGap? (c :: cs) = q.toGap? cs := by
  rw [toGap?, hs, Option.bind_some, if_neg hq]

lemma toGap?_end (hs : r.step c = some q) (hq : q.place = .gap) (cs : List Char) :
    r.toGap? (c :: cs) = some (q, cs) := by
  rw [toGap?, hs, Option.bind_some, if_pos hq]

lemma run_of_toGap? (h : r.toGap? cs = some (q, rest)) : ∃ used, cs = used ++ rest ∧ r.run used = some q := by
  induction cs generalizing r with
  | nil => cases h
  | cons c cs ih =>
    obtain ⟨p, hp, h⟩ := Option.bind_eq_some_iff.mp h
    split at h
    · obtain ⟨rfl, rfl⟩ := Prod.mk.inj (Option.some.inj h)
      exact ⟨[c], rfl, by rw [run_cons, hp]; rfl⟩
    · obtain ⟨used, rfl, hused⟩ := ih h
      exact ⟨c :: used, rfl, by rw [run_cons, hp, Option.bind_some, hused]⟩

def codeOf? (n : ℕ) (cs : List Char) : Option ℕ := cs.foldlM (fun n c => (Text.hexValue? c).map (16 * n + ·)) n

lemma codeOf?_hexText : ∀ n < 0xA0, codeOf? 0 (hexText n) = some n := by decide +kernel

lemma toGap?_code (h : codeOf? m cs = some k) (hr : r.place = .code acc m) (rest : List Char) :
    r.toGap? (cs ++ rest) = { r with place := .code acc k }.toGap? rest := by
  induction cs generalizing r m with
  | nil =>
    obtain rfl := Option.some.inj h
    rw [← hr]
    rfl
  | cons c cs ih =>
    obtain ⟨d, hd, h⟩ := Option.bind_eq_some_iff.mp (List.foldlM_cons.symm.trans h)
    obtain ⟨v, hv, rfl⟩ := Option.map_eq_some_iff.mp hd
    have hne : c ≠ ';' := by
      rintro rfl
      have hnone : Text.hexValue? ';' = none := by decide
      rw [hnone] at hv
      cases hv
    have hstep : r.step c = some { r with place := .code acc (16 * m + v) } := by
      simp only [step, hr, if_neg hne, hv, Option.map_some]
    rw [List.cons_append, toGap?_stay hstep (by simp), ih h rfl]

lemma step_backslash (hr : r.place = .text acc) : r.step '\\' = some { r with place := .escape acc } := by
  rw [step, hr]
  rfl

lemma toGap?_escape {d : Char} (he : ∀ acc, escaped? acc d = some (.text (c :: acc))) (hr : r.place = .text acc)
    (rest : List Char) : r.toGap? ('\\' :: d :: rest) = { r with place := .text (c :: acc) }.toGap? rest := by
  have hstep : ({ r with place := .escape acc } : Scanner).step d = some { r with place := .text (c :: acc) } := by
    simp only [step, he, Option.map_some]
  rw [toGap?_stay (step_backslash hr) (by simp), toGap?_stay hstep (by simp)]

lemma control_lt (hc : Text.isControl c = true) : c.toNat < 0xA0 := by
  simp only [Text.isControl, Text.inRanges, Text.controlRanges, List.any_cons, List.any_nil, Bool.or_false,
    Bool.or_eq_true, Bool.and_eq_true, decide_eq_true_eq] at hc
  omega

lemma toGap?_controlCode (hc : Text.isControl c = true) (hr : r.place = .text acc) (rest : List Char) :
    r.toGap? ('\\' :: 'x' :: (hexText c.toNat ++ ';' :: rest)) =
      { r with place := .text (c :: acc) }.toGap? rest := by
  have hopen : ({ r with place := .escape acc } : Scanner).step 'x' = some { r with place := .code acc 0 } := rfl
  have hclose : ({ r with place := .code acc c.toNat } : Scanner).step ';' =
      some { r with place := .text (c :: acc) } := by
    simp only [step, if_true, Char.ofNat_toNat]
  rw [toGap?_stay (step_backslash hr) (by simp), toGap?_stay hopen (by simp),
    toGap?_code (codeOf?_hexText c.toNat (control_lt hc)) rfl, toGap?_stay hclose (by simp)]

end Scanner

open Scanner

variable {r : Scanner} {c d : Char} {acc rest : List Char}

lemma quoteChar_cases (c : Char) :
    (∃ d, quoteChar c = ['\\', d] ∧ Text.isControl d = false ∧ ∀ acc, escaped? acc d = some (.text (c :: acc))) ∨
      (Text.isControl c = true ∧ quoteChar c = '\\' :: 'x' :: (hexText c.toNat ++ [';'])) ∨
      (Text.isControl c = false ∧ c ≠ '"' ∧ c ≠ '\\' ∧ quoteChar c = [c]) := by
  rw [quoteChar]
  split
  · exact .inl ⟨'\\', rfl, by decide, fun _ => by rw [‹c = '\\'›]; rfl⟩
  split
  · exact .inl ⟨'"', rfl, by decide, fun _ => by rw [‹c = '"'›]; rfl⟩
  split
  · exact .inl ⟨'n', rfl, by decide, fun _ => by rw [‹c = '\n'›]; rfl⟩
  split
  · exact .inl ⟨'t', rfl, by decide, fun _ => by rw [‹c = '\t'›]; rfl⟩
  split
  · exact .inl ⟨'r', rfl, by decide, fun _ => by rw [‹c = '\r'›]; rfl⟩
  split
  · exact .inr (.inl ⟨‹_›, rfl⟩)
  · exact .inr (.inr ⟨Bool.not_eq_true _ ▸ ‹_›, ‹_›, ‹_›, rfl⟩)

lemma toGap?_quoteChar (c : Char) (hr : r.place = .text acc) (rest : List Char) :
    r.toGap? (quoteChar c ++ rest) = { r with place := .text (c :: acc) }.toGap? rest := by
  obtain ⟨d, hq, -, he⟩ | ⟨hc, hq⟩ | ⟨-, hquote, hslash, hq⟩ := quoteChar_cases c
  · rw [hq]
    exact toGap?_escape he hr rest
  · rw [hq, List.cons_append, List.cons_append, List.append_assoc]
    exact toGap?_controlCode hc hr rest
  · have hstep : r.step c = some { r with place := .text (c :: acc) } := by
      simp only [step, hr, if_neg hquote, if_neg hslash]
    rw [hq]
    exact toGap?_stay hstep (by simp) rest

lemma toGap?_quoteChars (cs : List Char) (hr : r.place = .text acc) (rest : List Char) :
    r.toGap? (cs.flatMap quoteChar ++ rest) = { r with place := .text (cs.reverse ++ acc) }.toGap? rest := by
  induction cs generalizing r acc with
  | nil =>
    rw [List.reverse_nil, List.nil_append, ← hr]
    rfl
  | cons c cs ih =>
    rw [List.flatMap_cons, List.append_assoc, toGap?_quoteChar c hr, ih rfl, List.reverse_cons, List.append_assoc]
    rfl

lemma toGap?_quote (hr : r.place = .gap) (s : String) (rest : List Char) :
    r.toGap? ((quote s).toList ++ rest) = some (r.push (.str s), rest) := by
  have hopen : r.step '"' = some { r with place := .text [] } := Reads.step_gap hr '"'
  have hclose : ({ r with place := .text (s.toList.reverse ++ []) } : Scanner).step '"' = some (r.push (.str s)) := by
    simp [step, push]
  rw [quote, String.toList_ofList, quoteChars, List.cons_append, List.append_assoc, toGap?_stay hopen (by simp),
    toGap?_quoteChars s.toList rfl]
  exact toGap?_end hclose rfl rest

lemma Reads.str (s : String) : Reads (quote s).toList [.str s] := by
  apply Passes.reads
  intro r hr
  obtain ⟨used, hused, hrun⟩ := run_of_toGap? (toGap?_quote hr s [])
  rw [List.append_nil, List.append_nil] at hused
  rwa [hused]

def readString? (s : String) : Option (String × String) :=
  match toGap? {} s.toList with
  | some ({ items := [.str t], .. }, rest) => some (t, String.ofList rest)
  | _ => none

lemma readString?_quote (s rest : String) : readString? (quote s ++ rest) = some (s, rest) := by
  rw [readString?, String.toList_append, toGap?_quote rfl]
  exact congrArg (fun rest => some (s, rest)) String.ofList_toList

lemma hexText_plain (hc : Text.isControl c = true) (hd : d ∈ hexText c.toNat) :
    Text.isControl d = false ∧ d ≠ '\\' ∧ d ≠ '"' := by
  have hall : ∀ n < 0xA0, (hexText n).all (fun d => !Text.isControl d && d != '\\' && d != '"') = true := by
    decide +kernel
  simpa [and_assoc] using List.all_eq_true.mp (hall c.toNat (control_lt hc)) d hd

lemma not_control_of_mem_quoteChar (hd : d ∈ quoteChar c) : Text.isControl d = false := by
  obtain ⟨e, hq, he, -⟩ | ⟨hc, hq⟩ | ⟨hc, -, -, hq⟩ := quoteChar_cases c
  · rw [hq, List.mem_pair] at hd
    rcases hd with rfl | rfl
    · decide
    · exact he
  · rw [hq, List.mem_cons, List.mem_cons, List.mem_append, List.mem_singleton] at hd
    rcases hd with rfl | rfl | hd | rfl
    · decide
    · decide
    · exact (hexText_plain hc hd).1
    · decide
  · rw [hq, List.mem_singleton] at hd
    exact hd ▸ hc

lemma not_control_of_mem_quote {s : String} (hc : c ∈ (quote s).toList) : Text.isControl c = false := by
  rw [quote, String.toList_ofList, quoteChars, List.mem_cons, List.mem_append, List.mem_singleton] at hc
  rcases hc with rfl | hc | rfl
  · decide
  · obtain ⟨d, -, hd⟩ := List.mem_flatMap.mp hc
    exact not_control_of_mem_quoteChar hd
  · decide

section Escapes

/-- Whether a backslash stands at the end and takes what follows, being not taken itself. -/
def takesNext (cs : List Char) : Bool := cs.foldl (fun taken c => c = '\\' && !taken) false

variable {cs before after : List Char}

lemma takesNext_append (h : takesNext before = false) (cs : List Char) : takesNext (before ++ cs) = takesNext cs := by
  rw [takesNext, List.foldl_append, ← takesNext, h, ← takesNext]

lemma takesNext_plain (h : ∀ c ∈ cs, c ≠ '\\') : takesNext cs = false := by
  induction cs with
  | nil => rfl
  | cons c cs ih =>
    obtain ⟨hc, hcs⟩ := List.forall_mem_cons.mp h
    rw [takesNext, List.foldl_cons, decide_eq_false hc, Bool.false_and]
    exact ih hcs

lemma takesNext_quoteChar (c : Char) : takesNext (quoteChar c) = false := by
  obtain ⟨d, hq, -⟩ | ⟨hc, hq⟩ | ⟨-, -, hslash, hq⟩ := quoteChar_cases c
  · rw [hq]
    exact Bool.and_false _
  · have hopen : takesNext ['\\', 'x'] = false := by decide
    have hcode : ∀ d ∈ hexText c.toNat ++ [';'], d ≠ '\\' := by
      intro d hd
      rcases List.mem_append.mp hd with hd | hd
      · exact (hexText_plain hc hd).2.1
      · obtain rfl := List.mem_singleton.mp hd
        decide
    rw [hq]
    exact (takesNext_append hopen _).trans (takesNext_plain hcode)
  · rw [hq]
    exact takesNext_plain (List.forall_mem_singleton.mpr hslash)

lemma takesNext_quoteChars (cs : List Char) : takesNext (cs.flatMap quoteChar) = false := by
  induction cs with
  | nil => rfl
  | cons c cs ih => rw [List.flatMap_cons, takesNext_append (takesNext_quoteChar c), ih]

lemma takesNext_of_quoteChar (h : quoteChar c = before ++ '"' :: after) : takesNext before = true := by
  have hmem : '"' ∈ quoteChar c := h ▸ List.mem_append_cons_self
  obtain ⟨d, hq, -⟩ | ⟨hc, hq⟩ | ⟨-, hquote, -, hq⟩ := quoteChar_cases c
  · rw [hq, List.cons_eq_append_iff] at h
    obtain ⟨-, h⟩ | ⟨before, rfl, h⟩ := h
    · cases h
    · rw [List.singleton_eq_append_iff] at h
      obtain ⟨rfl, -⟩ | ⟨-, h⟩ := h
      · rfl
      · cases h
  · have hcode : '"' ∈ hexText c.toNat := by simpa [hq] using hmem
    exact absurd rfl (hexText_plain hc hcode).2.2
  · rw [hq] at hmem
    exact absurd (List.mem_singleton.mp hmem).symm hquote

lemma takesNext_of_quoteChars (cs : List Char) (h : cs.flatMap quoteChar = before ++ '"' :: after) :
    takesNext before = true := by
  induction cs generalizing before with
  | nil => simp at h
  | cons c cs ih =>
    rw [List.flatMap_cons, List.append_eq_append_iff] at h
    obtain ⟨inner, rfl, h⟩ | ⟨inner, hq, h⟩ := h
    · rw [takesNext_append (takesNext_quoteChar c), ih h]
    · cases inner with
      | nil =>
        have htaken : takesNext [] = true := ih h.symm
        cases htaken
      | cons d inner =>
        obtain ⟨rfl, -⟩ := List.cons.inj h
        exact takesNext_of_quoteChar hq

end Escapes

theorem quoted_strings_read_back :
    (∀ s rest : String, readString? (quote s ++ rest) = some (s, rest)) ∧
    (∀ s : String, ∃ inner, (quote s).toList = '"' :: (inner ++ ['"']) ∧ takesNext inner = false ∧
      ∀ before after, inner = before ++ '"' :: after → takesNext before = true) ∧
    (∀ s : String, ∀ c ∈ (quote s).toList, Text.isControl c = false) ∧ Function.Injective quote := by
  refine ⟨readString?_quote, fun s => ⟨s.toList.flatMap quoteChar, String.toList_ofList, takesNext_quoteChars s.toList,
    fun before after => takesNext_of_quoteChars s.toList⟩, fun s c => not_control_of_mem_quote, fun s t hst => ?_⟩
  have hs := readString?_quote s ""
  rw [hst, readString?_quote t ""] at hs
  exact (Prod.mk.inj (Option.some.inj hs)).1.symm

example : readString? (quote "a\"b\\n\u0007f" ++ " 1)") = some ("a\"b\\n\u0007f", " 1)") := rfl

end BlockStudio.Yail
