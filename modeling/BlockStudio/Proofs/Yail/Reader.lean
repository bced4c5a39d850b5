import BlockStudio.Text.Numeral
import Mathlib.Data.List.Basic

/-! A reader of YAIL text: a machine that goes over the characters once. -/

namespace BlockStudio

inductive Datum where
  | atom (s : String)
  | str (s : String)
  | quoted (d : Datum)
  | list (items : List Datum)
deriving Repr

def Datum.marked : ℕ → Datum → Datum
  | 0, d => d
  | n + 1, d => marked n (.quoted d)

namespace Yail

def specialChars : List Char := ['(', ')', '\'', '"', ';', '|', '\\']

def isAtomChar (c : Char) : Bool := !(Text.isBlank c || specialChars.contains c)

/-- What the reader is in, with the characters of it so far, the last one first. -/
inductive Place where
  | gap
  | hash
  | atom (cs : List Char)
  | text (cs : List Char)
  | escape (cs : List Char)
  | code (cs : List Char) (n : ℕ)
  | line
  | comment
  | bar
deriving Repr, DecidableEq

structure Scanner where
  place : Place := .gap
  marks : ℕ := 0
  /-- The data of the open list, the last one first. -/
  items : List Datum := []
  outer : List (ℕ × List Datum) := []
deriving Repr

namespace Scanner

def push (r : Scanner) (d : Datum) : Scanner :=
  { r with place := .gap, marks := 0, items := d.marked r.marks :: r.items }

def enter (r : Scanner) : Scanner := { outer := (r.marks, r.items) :: r.outer }

def leave? (r : Scanner) : Option Scanner :=
  match r.marks, r.outer with
  | 0, (marks, items) :: outer => some (push { marks, items, outer } (.list r.items.reverse))
  | _, _ => none

def begin (r : Scanner) (c : Char) : Option Scanner :=
  if Text.isBlank c then some r
  else if c = '(' then some r.enter
  else if c = ')' then r.leave?
  else if c = '\'' then some { r with marks := r.marks + 1 }
  else if c = '"' then some { r with place := .text [] }
  else if c = ';' then some { r with place := .line }
  else if c = '#' then some { r with place := .hash }
  else if isAtomChar c then some { r with place := .atom [c] }
  else none

def escaped? (cs : List Char) : Char → Option Place
  | '\\' => some (.text ('\\' :: cs))
  | '"' => some (.text ('"' :: cs))
  | 'n' => some (.text ('\n' :: cs))
  | 't' => some (.text ('\t' :: cs))
  | 'r' => some (.text ('\r' :: cs))
  | 'x' => some (.code cs 0)
  | _ => none

def pushAtom (r : Scanner) (cs : List Char) : Scanner := r.push (.atom (String.ofList cs.reverse))

def atomStep (r : Scanner) (cs : List Char) (c : Char) : Option Scanner :=
  if isAtomChar c then some { r with place := .atom (c :: cs) } else (r.pushAtom cs).begin c

def step (r : Scanner) (c : Char) : Option Scanner :=
  match r.place with
  | .gap => r.begin c
  | .hash => if c = '|' then some { r with place := .comment } else r.atomStep ['#'] c
  | .atom cs => r.atomStep cs c
  | .text cs =>
    if c = '"' then some (r.push (.str (String.ofList cs.reverse)))
    else if c = '\\' then some { r with place := .escape cs }
    else some { r with place := .text (c :: cs) }
  | .escape cs => (escaped? cs c).map fun place => { r with place }
  | .code cs n =>
    if c = ';' then some { r with place := .text (Char.ofNat n :: cs) }
    else (Text.hexValue? c).map fun d => { r with place := .code cs (16 * n + d) }
  | .line => some { r with place := if c = '\n' then .gap else .line }
  | .comment => some { r with place := if c = '|' then .bar else .comment }
  | .bar => some { r with place := if c = '#' then .gap else if c = '|' then .bar else .comment }

def run (r : Scanner) (cs : List Char) : Option Scanner := cs.foldlM step r

def settle? (r : Scanner) : Option Scanner :=
  match r.place with
  | .gap => some r
  | .hash => some (r.pushAtom ['#'])
  | .atom cs => some (r.pushAtom cs)
  | .line => some { r with place := .gap }
  | _ => none

end Scanner

def read? (s : String) : Option (List Datum) := do
  let r ← (Scanner.run {} s.toList).bind Scanner.settle?
  if r.outer.isEmpty && r.marks = 0 then some r.items.reverse else none

namespace Scanner

variable {r q : Scanner} {c : Char} {cs cs' : List Char} {d : Datum} {ds ds' : List Datum}

lemma run_append (r : Scanner) (cs cs' : List Char) : r.run (cs ++ cs') = (r.run cs).bind fun q => q.run cs' :=
  List.foldlM_append

lemma run_cons (r : Scanner) (c : Char) (cs : List Char) : r.run (c :: cs) = (r.step c).bind fun q => q.run cs :=
  List.foldlM_cons

lemma run_line (h : '\n' ∉ cs) (hr : r.place = .line) : r.run cs = some r := by
  induction cs with
  | nil => rfl
  | cons c cs ih =>
    obtain ⟨hc, hcs⟩ : '\n' ≠ c ∧ '\n' ∉ cs := by simpa using h
    have hstep : r.step c = some r := by
      rw [step, hr]
      simp [Ne.symm hc, ← hr]
    rw [run_cons, hstep, Option.bind_some, ih hcs]

def pushAll (r : Scanner) (ds : List Datum) : Scanner := ds.foldl push r

lemma pushAll_append (r : Scanner) (ds ds' : List Datum) : r.pushAll (ds ++ ds') = (r.pushAll ds).pushAll ds' :=
  List.foldl_append

lemma place_pushAll (h : r.place = .gap) : (r.pushAll ds).place = .gap := by
  induction ds generalizing r with
  | nil => exact h
  | cons d ds ih => exact ih rfl

lemma outer_pushAll : (r.pushAll ds).outer = r.outer := by
  induction ds generalizing r with
  | nil => rfl
  | cons d ds ih => exact ih

lemma marks_pushAll (h : r.marks = 0) : (r.pushAll ds).marks = 0 := by
  induction ds generalizing r with
  | nil => exact h
  | cons d ds ih => exact ih rfl

lemma items_pushAll (h : r.marks = 0) : (r.pushAll ds).items = ds.reverse ++ r.items := by
  induction ds generalizing r with
  | nil => rfl
  | cons d ds ih =>
    have hd : (r.push d).items = d :: r.items := by simp [push, h, Datum.marked]
    rw [pushAll, List.foldl_cons, ← pushAll, ih rfl, hd]
    simp

end Scanner

def Passes (cs : List Char) (ds : List Datum) : Prop := ∀ r : Scanner, r.place = .gap → r.run cs = some (r.pushAll ds)

def Reads (cs : List Char) (ds : List Datum) : Prop :=
  ∀ r : Scanner, r.place = .gap → ∃ q, r.run cs = some q ∧ q.place ≠ .line ∧ q.settle? = some (r.pushAll ds)

section Parts

open Scanner

variable {r q t : Scanner} {c : Char} {cs cs' : List Char} {d : Datum} {ds ds' : List Datum}

namespace Passes

lemma nil : Passes [] [] := fun _ _ => rfl

lemma append (h : Passes cs ds) (h' : Passes cs' ds') : Passes (cs ++ cs') (ds ++ ds') := by
  intro r hr
  rw [run_append, h r hr, Option.bind_some, h' _ (place_pushAll hr), pushAll_append]

lemma append_reads (h : Passes cs ds) (h' : Reads cs' ds') : Reads (cs ++ cs') (ds ++ ds') := by
  intro r hr
  obtain ⟨q, hq, hl, hs⟩ := h' (r.pushAll ds) (place_pushAll hr)
  exact ⟨q, by rw [run_append, h r hr, Option.bind_some, hq], hl, by rw [hs, pushAll_append]⟩

lemma reads (h : Passes cs ds) : Reads cs ds := by
  intro r hr
  have hp : (r.pushAll ds).place = .gap := place_pushAll hr
  exact ⟨r.pushAll ds, h r hr, by simp [hp], by rw [settle?, hp]⟩

end Passes

namespace Reads

lemma begin_of_settle (hl : q.place ≠ .line) (hs : q.settle? = some t) (hc : isAtomChar c = false) (hbar : c ≠ '|') :
    q.step c = t.begin c := by
  cases hp : q.place with
  | gap =>
    rw [settle?, hp] at hs
    rw [step, hp, Option.some.inj hs]
  | hash =>
    rw [settle?, hp] at hs
    simp only [step, hp, if_neg hbar, atomStep, hc, Option.some.inj hs]
    rfl
  | atom cs =>
    rw [settle?, hp] at hs
    simp only [step, hp, atomStep, hc, Option.some.inj hs]
    rfl
  | line => exact absurd hp hl
  | text | escape | code | comment | bar => simp [settle?, hp] at hs

lemma isAtomChar_of_isBlank (hc : Text.isBlank c = true) : isAtomChar c = false := by
  simp [isAtomChar, hc]

lemma step_gap (hr : r.place = .gap) (c : Char) : r.step c = r.begin c := by
  rw [step, hr]

lemma blank (h : Reads cs ds) (hc : Text.isBlank c = true) : Passes (cs ++ [c]) ds := by
  intro r hr
  obtain ⟨q, hq, hl, hs⟩ := h r hr
  have hbar : c ≠ '|' := by
    rintro rfl
    exact absurd hc (by decide)
  rw [run_append, hq, Option.bind_some, run_cons, begin_of_settle hl hs (isAtomChar_of_isBlank hc) hbar, begin,
    if_pos hc]
  rfl

lemma list (h : Reads cs ds) : Reads ('(' :: (cs ++ [')'])) [.list ds] := by
  apply Passes.reads
  intro r hr
  obtain ⟨q, hq, hl, hs⟩ := h r.enter rfl
  have hopen : r.step '(' = some r.enter := step_gap hr '('
  have hclose : q.step ')' = some (r.push (.list ds)) := by
    rw [begin_of_settle hl hs (by decide) (by decide)]
    have hm : (r.enter.pushAll ds).marks = 0 := marks_pushAll rfl
    have ho : (r.enter.pushAll ds).outer = (r.marks, r.items) :: r.outer := outer_pushAll
    have hi : (r.enter.pushAll ds).items.reverse = ds := by
      rw [items_pushAll rfl]
      simp [enter]
    show (r.enter.pushAll ds).leave? = _
    rw [leave?, hm, ho, hi]
    rfl
  rw [run_cons, hopen, Option.bind_some, run_append, hq, Option.bind_some, run_cons, hclose]
  rfl

lemma quoted (h : Reads cs [d]) : Reads ('\'' :: cs) [.quoted d] := by
  intro r hr
  obtain ⟨q, hq, hl, hs⟩ := h { r with marks := r.marks + 1 } hr
  have hmark : r.step '\'' = some { r with marks := r.marks + 1 } := step_gap hr '\''
  exact ⟨q, by rw [run_cons, hmark, Option.bind_some, hq], hl, hs⟩

lemma run_atom (h : ∀ c ∈ cs', isAtomChar c = true) (hr : r.place = .atom cs) :
    r.run cs' = some { r with place := .atom (cs'.reverse ++ cs) } := by
  induction cs' generalizing r cs with
  | nil => rw [List.reverse_nil, List.nil_append, ← hr]; rfl
  | cons c cs' ih =>
    have hstep : r.step c = some { r with place := .atom (c :: cs) } := by
      rw [step, hr]
      exact if_pos (h c List.mem_cons_self)
    rw [run_cons, hstep, Option.bind_some, ih (fun c hc => h c (List.mem_cons_of_mem _ hc)) rfl]
    simp

lemma begin_atom (hc : isAtomChar c = true) (hash : c ≠ '#') : r.begin c = some { r with place := .atom [c] } := by
  have hblank : Text.isBlank c = false := by
    simp only [isAtomChar, Bool.not_eq_true', Bool.or_eq_false_iff] at hc
    exact hc.1
  have hne : ∀ d ∈ specialChars, c ≠ d := by
    rintro d hd rfl
    simp [isAtomChar, hd] at hc
  rw [begin, hblank]
  simp only [specialChars, List.forall_mem_cons] at hne
  simp [hne, hash, hc]

/-- An atom may start with `#` because no bar can follow it. -/
lemma atom (hne : cs ≠ []) (h : ∀ c ∈ cs, isAtomChar c = true) : Reads cs [.atom (String.ofList cs)] := by
  intro r hr
  obtain ⟨c, cs, rfl⟩ := List.exists_cons_of_ne_nil hne
  have hc := h c List.mem_cons_self
  have hcs : ∀ d ∈ cs, isAtomChar d = true := fun d hd => h d (List.mem_cons_of_mem c hd)
  have hend : r.push (.atom (String.ofList (c :: cs))) = r.pushAtom (cs.reverse ++ [c]) := by simp [pushAtom]
  by_cases hash : c = '#'
  · subst hash
    have hmark : r.step '#' = some { r with place := .hash } := step_gap hr '#'
    cases cs with
    | nil => exact ⟨{ r with place := .hash }, by rw [run_cons, hmark]; rfl, nofun, rfl⟩
    | cons d cs =>
      have hd := hcs d List.mem_cons_self
      have hbar : d ≠ '|' := by
        rintro rfl
        exact absurd hd (by decide)
      have hsecond : ({ r with place := .hash } : Scanner).step d = some { r with place := .atom [d, '#'] } := by
        simp only [step, if_neg hbar, atomStep, hd, if_true]
      refine ⟨{ r with place := .atom (cs.reverse ++ [d, '#']) }, ?_, nofun, ?_⟩
      · rw [run_cons, hmark, Option.bind_some, run_cons, hsecond, Option.bind_some,
          run_atom (fun e he => hcs e (List.mem_cons_of_mem d he)) rfl]
      · rw [pushAll, List.foldl_cons, List.foldl_nil, hend]
        simp [settle?, pushAtom, push]
  · refine ⟨{ r with place := .atom (cs.reverse ++ [c]) }, ?_, nofun, ?_⟩
    · rw [run_cons, step_gap hr, begin_atom hc hash, Option.bind_some, run_atom hcs rfl]
    · rw [pushAll, List.foldl_cons, List.foldl_nil, hend]
      rfl

end Reads

end Parts

lemma read?_of_reads {s : String} {ds : List Datum} (h : Reads s.toList ds) : read? s = some ds := by
  obtain ⟨q, hq, -, hs⟩ := h {} rfl
  have hm : (Scanner.pushAll {} ds).marks = 0 := Scanner.marks_pushAll rfl
  have ho : (Scanner.pushAll {} ds).outer = [] := Scanner.outer_pushAll
  have hi : (Scanner.pushAll {} ds).items.reverse = ds := by
    rw [Scanner.items_pushAll rfl]
    simp
  simp [read?, hq, hs, hm, ho, hi]

example : read? "(f 'x \"a\\n\") #| ) |# ; (" = some [.list [.atom "f", .quoted (.atom "x"), .str "a\n"]] := rfl

example : read? "(f ')" = none := rfl

end Yail

end BlockStudio
