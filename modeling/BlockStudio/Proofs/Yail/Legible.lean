import BlockStudio.Proofs.Yail.Number
import BlockStudio.Proofs.Yail.Quoted
import BlockStudio.Yail.Template

namespace BlockStudio

namespace Form

mutual

def data : Form → List Datum
  | word s => if s.toList = [] then [] else [.atom s]
  | str s => [.str s]
  | quoted f => (data f).map .quoted
  | list items => [.list (dataAll items)]

def dataAll : List Form → List Datum
  | [] => []
  | f :: rest => data f ++ dataAll rest

end

mutual

def Legible : Form → Prop
  | word s => ∀ c ∈ s.toList, Yail.isAtomChar c = true
  | str _ => True
  | quoted f => Legible f ∧ f.isBlank = false
  | list items => LegibleAll items

def LegibleAll : List Form → Prop
  | [] => True
  | f :: rest => Legible f ∧ LegibleAll rest

end

lemma legibleAll_iff {forms : List Form} : LegibleAll forms ↔ ∀ f ∈ forms, f.Legible := by
  induction forms with
  | nil => simp [LegibleAll]
  | cons f forms ih => simp [LegibleAll, ih]

lemma legible_list {forms : List Form} : (list forms).Legible ↔ ∀ f ∈ forms, f.Legible := by
  rw [Legible, legibleAll_iff]

lemma isBlank_word {s : String} : (word s).isBlank = true ↔ s.toList = [] := by
  simp [isBlank]

lemma data_singleton (f : Form) (hl : f.Legible) (h : f.isBlank = false) : ∃ d, f.data = [d] := by
  induction f using Form.rec (motive_2 := fun _ => True) with
  | word s =>
    refine ⟨.atom s, ?_⟩
    rw [data, if_neg]
    exact fun hs => by simp [isBlank_word.mpr hs] at h
  | str s => exact ⟨.str s, rfl⟩
  | quoted f ih =>
    obtain ⟨d, hd⟩ := ih hl.1 hl.2
    exact ⟨.quoted d, by rw [data, hd]; rfl⟩
  | list items _ => exact ⟨.list (dataAll items), rfl⟩
  | nil => trivial
  | cons => trivial

open Yail

mutual

lemma reads_render (f : Form) (h : f.Legible) : Reads f.render.toList f.data :=
  match f, h with
  | word s, h => by
    rw [render, data]
    split
    · rename_i hs
      rw [hs]
      exact Passes.nil.reads
    · rename_i hs
      simpa using Reads.atom hs h
  | str s, _ => .str s
  | quoted f, h => by
    obtain ⟨d, hd⟩ := data_singleton f h.1 h.2
    have hf := reads_render f h.1
    rw [hd] at hf
    rw [render, data, hd, String.toList_append]
    exact hf.quoted
  | list items, h => by
    rw [render, data, String.toList_append, String.toList_append]
    exact (reads_renderAll items h).list

lemma reads_renderAll (forms : List Form) (h : LegibleAll forms) :
    Reads (Text.spaced (renderAll forms)).toList (dataAll forms) :=
  match forms, h with
  | [], _ => Passes.nil.reads
  | [f], h => by
    rw [renderAll, renderAll, Text.spaced, String.intercalate_singleton, dataAll, dataAll, List.append_nil]
    exact reads_render f h.1
  | f :: g :: rest, h => by
    have hfirst : Passes (f.render.toList ++ [' ']) f.data := (reads_render f h.1).blank (by decide)
    have hrest := hfirst.append_reads (reads_renderAll (g :: rest) h.2)
    rw [renderAll, Text.spaced] at hrest
    rw [renderAll, renderAll, Text.spaced, String.intercalate_cons_cons, String.toList_append, String.toList_append,
      dataAll]
    exact hrest

end

lemma read?_render {f : Form} (h : f.Legible) : f.render = "" ∨ ∃ d, read? f.render = some [d] := by
  cases hb : f.isBlank with
  | true =>
    cases f with
    | word s => exact .inl (by simpa [isBlank, render] using hb)
    | str | quoted | list => cases hb
  | false =>
    obtain ⟨d, hd⟩ := data_singleton f h hb
    exact .inr ⟨d, by rw [read?_of_reads (reads_render f h), hd]⟩

section Parts

variable {op name : String} {args forms : List Form} {names : List String}

lemma legible_word (h : IsToken name) : (word name).Legible := h.chars

lemma legible_blank : blank.Legible := by
  intro c hc
  cases hc

lemma legible_call (hop : IsToken op) (h : ∀ f ∈ args, f.Legible) : (call op args).Legible :=
  legible_list.mpr (List.forall_mem_cons.mpr ⟨legible_word hop, h⟩)

lemma isBlank_token (h : IsToken name) : (word name).isBlank = false := by
  rw [← Bool.not_eq_true, isBlank_word]
  exact h.ne_nil

lemma legible_symbol (h : IsToken name) : (symbol name).Legible := ⟨legible_word h, isBlank_token h⟩

lemma legible_words (h : ∀ n ∈ names, IsToken n) : ∀ f ∈ words names, f.Legible := by
  intro f hf
  obtain ⟨n, hn, rfl⟩ := List.mem_map.mp hf
  exact legible_word (h n hn)

lemma legible_present (h : ∀ f ∈ forms, f.Legible) : ∀ f ∈ present forms, f.Legible :=
  fun f hf => h f (List.mem_filter.mp hf).1

end Parts

end Form

namespace Yail

open Form

variable {name value component property type : String} {names : List String} {forms : List Form} {f : Form}

lemma legible_null : null.Legible := legible_word (by decide)

lemma legible_truth : truth.Legible := legible_word (by decide)

lemma legible_falsity : falsity.Legible := legible_word (by decide)

lemma legible_typeList (h : ∀ n ∈ names, IsToken n) : (typeList names).Legible :=
  ⟨legible_list.mpr (legible_words h), rfl⟩

lemma legible_noCoercion : noCoercion.Legible := legible_symbol (by decide)

lemma legible_runtimeList (h : ∀ f ∈ forms, f.Legible) : (runtimeList forms).Legible := legible_call (by decide) h

lemma legible_begin (h : ∀ f ∈ forms, f.Legible) : (begin forms).Legible := legible_call (by decide) (legible_present h)

lemma legible_defineGlobal (hn : IsToken name) (h : f.Legible) : (defineGlobal name f).Legible :=
  legible_call (by decide) (by simp [legible_word hn, h])

lemma legible_defineProcedure (hn : IsToken name) (hs : ∀ n ∈ names, IsToken n) (h : f.Legible) :
    (defineProcedure name names f).Legible := by
  have hhead : (Form.list (words (name :: names))).Legible :=
    legible_list.mpr (legible_words (List.forall_mem_cons.mpr ⟨hn, hs⟩))
  exact legible_call (by decide) (by simp [hhead, h])

lemma legible_defineEvent (hc : IsToken component) (hn : IsToken name) (hs : ∀ n ∈ names, IsToken n)
    (h : ∀ f ∈ forms, f.Legible) : (defineEvent component name names forms).Legible := by
  have hparams : (Form.list (words names)).Legible := legible_list.mpr (legible_words hs)
  have hthis : setThisForm.Legible := legible_call (by decide) (by simp)
  refine legible_call (by decide) ?_
  simp only [List.forall_mem_cons]
  exact ⟨legible_word hc, legible_word hn, hparams, hthis, legible_present h⟩

lemma legible_setProperty (hc : IsToken component) (hp : IsToken property) (ht : IsToken type) (h : f.Legible) :
    (setProperty component property f type).Legible :=
  legible_call (by decide) (by simp [legible_symbol hc, legible_symbol hp, legible_symbol ht, h])

lemma legible_getProperty (hc : IsToken component) (hp : IsToken property) : (getProperty component property).Legible :=
  legible_call (by decide) (by simp [legible_symbol hc, legible_symbol hp])

lemma legible_str (s : String) : (Form.str s).Legible := trivial

lemma legible_report (id : ℕ) (h : f.Legible) : (report id f).Legible :=
  legible_call (by decide) (by simp [legible_str, h])

lemma legible_renameComponent (old new : String) : (renameComponent old new).Legible :=
  legible_call (by decide) (by simp [legible_str])

lemma legible_propertyValue (h : type = "component" → value = "" ∨ IsToken value) :
    (propertyValue type value).Legible := by
  rw [propertyValue]
  split
  · split
    · exact legible_word (isToken_numberLiteral ‹_›)
    · exact legible_str value
  split
  · split
    · exact legible_truth
    · split
      · exact legible_falsity
      · exact legible_str value
  split
  · split
    · exact legible_str ""
    · rename_i hcomp hne
      exact legible_call (by decide) (by simpa using legible_word ((h hcomp).resolve_left hne))
  · exact legible_str value

end Yail

end BlockStudio
