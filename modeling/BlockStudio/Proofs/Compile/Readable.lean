import BlockStudio.Proofs.Compile.Blocks
import BlockStudio.Proofs.Compile.Roots
import BlockStudio.Proofs.Workspace.Reached

/-! If all names are tokens, the text of a unit is one datum, and the text of a program is a list of data. -/

namespace BlockStudio

open Yail Form

namespace Line

variable {name : String} {l : Line} {lines : List Line}

def data : Line → List Datum
  | form f => f.data
  | _ => []

def Legible : Line → Prop
  | comment name => '\n' ∉ name.toList
  | form f => f.Legible
  | _ => True

lemma passes_comment (h : '\n' ∉ name.toList) : Passes ((";;; " ++ name).toList ++ ['\n']) [] := by
  intro r hr
  obtain ⟨place, marks, items, outer⟩ := r
  obtain rfl : place = .gap := hr
  have hopen : Scanner.run ⟨.gap, marks, items, outer⟩ ";;; ".toList = some ⟨.line, marks, items, outer⟩ := rfl
  rw [String.toList_append, List.append_assoc, Scanner.run_append, hopen, Option.bind_some, Scanner.run_append,
    Scanner.run_line h rfl]
  rfl

lemma passes_line (h : l.Legible) : Passes (l.text.toList ++ ['\n']) l.data := by
  cases l with
  | blank => exact Passes.nil.reads.blank (by decide)
  | header =>
    intro r hr
    obtain ⟨place, marks, items, outer⟩ := r
    obtain rfl : place = .gap := hr
    rfl
  | comment name => exact passes_comment h
  | form f => exact (reads_render f h).blank (by decide)

end Line

namespace Assembly

variable {rules : LinkRules} {t root : Component} {package : String} {walk : List Component} {code : BlockCode}
  {lines : List Line}

lemma read?_text (h : ∀ l ∈ lines, l.Legible) : read? (text lines) = some (lines.flatMap Line.data) := by
  have key : Passes (text lines).toList (lines.flatMap Line.data) := by
    induction lines with
    | nil => exact Passes.nil
    | cons l lines ih =>
      obtain ⟨hl, hlines⟩ := List.forall_mem_cons.mp h
      rw [text, List.map_cons, String.join_cons, String.toList_append, String.toList_append, List.flatMap_cons]
      exact (Line.passes_line hl).append (ih hlines)
  exact read?_of_reads key.reads

lemma lines_error {tree : ComponentTree} {live : Bool} {e : BuildError}
    (h : Assembly.lines rules package tree code live = .error e) : tree.root? = none ∧ e = .noRootForm := by
  rw [Assembly.lines] at h
  split at h
  · cases h
    exact ⟨‹_›, rfl⟩
  · split at h
    · cases h
    · cases h

section Named

variable (hr : rules.Named)

include hr

lemma legible_propertySetters (ht : t.Named rules) : ∀ f ∈ propertySetters rules t, f.Legible := by
  intro f hf
  obtain ⟨⟨property, value⟩, he, rfl⟩ := List.mem_map.mp hf
  exact legible_setProperty ht.name (ht.property _ he) (hr.propertyType t.genus property)
    (legible_propertyValue (ht.value _ he))

lemma legible_addComponent (ht : t.Named rules) : (addComponent rules t).Legible := by
  have hparent : IsToken (t.parent.getD sessionForm) := by
    cases hp : t.parent with
    | none => decide
    | some parent => exact ht.parent parent hp
  refine legible_call (by decide) ?_
  simp only [List.forall_mem_cons]
  exact ⟨legible_word hparent, legible_word ht.genus, legible_word ht.name, legible_propertySetters hr ht⟩

lemma legible_creation (ht : t.Named rules) : ∀ f ∈ creation rules t, f.Legible := by
  intro f hf
  rw [creation] at hf
  split at hf
  · rw [formProperties] at hf
    split at hf
    · cases hf
    · obtain rfl := List.mem_singleton.mp hf
      exact legible_call (by decide) (legible_propertySetters hr ht)
  · obtain rfl := List.mem_singleton.mp hf
    exact legible_addComponent hr ht

variable (hwalk : ∀ t ∈ walk, t.Named rules) (hcode : ∀ owner, ∀ f ∈ code.under owner, f.Legible)

include hwalk hcode

lemma legible_appLines (hroot : root.Named rules) (hp : IsToken package) :
    ∀ l ∈ appLines rules package root walk code, l.Legible := by
  have hdot : IsToken (package ++ ".") := hp.append (by decide : IsToken ".").chars
  have hpath : IsToken (package ++ "." ++ root.name) := hdot.append hroot.name.chars
  have hdefine : (call "define-form" [.word (package ++ "." ++ root.name), .word root.name]).Legible :=
    legible_call (by decide) (by simp [legible_word hpath, legible_word hroot.name])
  have hcomment : ∀ t ∈ walk, '\n' ∉ t.name.toList := fun t ht hc =>
    absurd ((hwalk t ht).name.chars '\n' hc) (by decide)
  have hrequire : (call "require" [.word "<com.google.youngandroid.runtime>"]).Legible :=
    legible_call (by decide) (by simpa using legible_word (by decide))
  have hblank : ∀ l ∈ (if code.globals.isEmpty then [] else [Line.blank]), l.Legible := by
    intro l hl
    split at hl
    · cases hl
    · obtain rfl := List.mem_singleton.mp hl
      trivial
  simp only [appLines, List.forall_mem_append, List.forall_mem_cons, List.forall_mem_map, List.forall_mem_flatMap]
  refine ⟨⟨⟨⟨⟨trivial, trivial, hdefine, hrequire, nofun⟩, fun t ht => ?_⟩, hblank⟩, hcode none⟩,
    legible_call (by decide) (by simp), nofun⟩
  exact ⟨⟨trivial, hcomment t ht, trivial, nofun⟩, legible_creation hr (hwalk t ht), hcode (some t.name)⟩

lemma legible_liveLines : ∀ l ∈ liveLines rules root walk code, l.Legible := by
  intro l hl
  obtain ⟨f, hf, rfl⟩ := List.mem_map.mp hl
  show f.Legible
  simp only [List.mem_append, List.mem_flatMap, List.mem_singleton] at hf
  rcases hf with ((((rfl | hf) | ⟨t, ht, hf⟩) | hf) | ⟨t, ht, hf⟩) | rfl
  · exact legible_call (by decide) (by simp)
  · split at hf
    · cases hf
    · obtain rfl := List.mem_singleton.mp hf
      exact legible_renameComponent sessionForm root.name
  · exact legible_creation hr (hwalk t ht) f hf
  · exact hcode none f hf
  · exact hcode (some t.name) f hf
  · refine legible_call (by decide) fun f hf => ?_
    obtain ⟨t, ht, rfl⟩ := List.mem_map.mp hf
    exact legible_symbol (hwalk t ht).name

end Named

end Assembly

namespace ComponentTree

variable {t : ComponentTree} {x y : Component} {name : String} {n : ℕ}

lemma mem_list_of_get? (h : t.get? name = some x) : x ∈ t.list := NameMap.mem_values_of_get? h

lemma mem_list_of_mem_childrenOf (h : x ∈ t.childrenOf name) : x ∈ t.list := by
  rw [childrenOf] at h
  split at h
  · obtain ⟨child, -, hx⟩ := List.mem_filterMap.mp h
    exact mem_list_of_get? hx
  · cases h

lemma mem_list_of_mem_walkFrom (hx : x ∈ t.list) (h : y ∈ t.walkFrom n x) : y ∈ t.list := by
  induction n generalizing x with
  | zero => cases h
  | succ n ih =>
    rcases List.mem_cons.mp h with rfl | h
    · exact hx
    · obtain ⟨child, hchild, h⟩ := List.mem_flatMap.mp h
      exact ih (mem_list_of_mem_childrenOf hchild) h

lemma mem_list_of_root? (h : t.root? = some x) : x ∈ t.list := by
  obtain ⟨name, -, h⟩ := Option.bind_eq_some_iff.mp h
  exact mem_list_of_get? h

lemma mem_list_of_mem_walk (h : x ∈ t.walk) : x ∈ t.list := by
  rw [walk] at h
  split at h
  · exact mem_list_of_mem_walkFrom (mem_list_of_root? ‹_›) h
  · cases h

end ComponentTree

namespace Compilation

variable {c : Compilation} {id : BlockId} {f : Form} {package : String} {live : Bool} {lines : List Line}

lemma tracked_all (c : Compilation) : c.Tracked (fun _ => True) (fun _ => True) fun _ => True := by
  constructor <;> intros <;> trivial

namespace Named

variable (h : c.Named)

include h

lemma legible_unit (hf : (c.unit id).1 = some f) : f.Legible := by
  rw [Compilation.unit] at hf
  split at hf
  · rename_i form ho
    obtain rfl := Option.some.inj hf
    exact (c.tracked_all.clumpForm fun _ _ => trivial).value form ho h
  · cases hf

lemma legible_under (owner : Option String) : ∀ f ∈ c.program.1.under owner, f.Legible := by
  intro f hf
  rw [under_program] at hf
  obtain ⟨res, hres, hf⟩ := List.mem_filterMap.mp hf
  exact h.legible_unit (unit_of_form (List.mem_filter.mp hres).1 hf).1

lemma legible_lines (hp : IsToken package)
    (hl : Assembly.lines c.rules package c.workspace.components c.program.1 live = .ok lines) :
    ∀ l ∈ lines, l.Legible := by
  have hwalk : ∀ t ∈ c.workspace.components.walk, t.Named c.rules := fun t ht =>
    h.components t (ComponentTree.mem_list_of_mem_walk ht)
  rw [Assembly.lines] at hl
  split at hl
  · cases hl
  · rename_i root hroot
    split at hl
    · obtain rfl := Except.ok.inj hl
      exact Assembly.legible_liveLines h.rules hwalk h.legible_under
    · obtain rfl := Except.ok.inj hl
      exact Assembly.legible_appLines h.rules hwalk h.legible_under
        (h.components root (ComponentTree.mem_list_of_root? hroot)) hp

end Named

theorem text_reads (h : c.Named) (hp : IsToken package) :
    (∀ id f, (c.unit id).1 = some f → f.render = "" ∨ ∃ d, read? f.render = some [d]) ∧
    ∀ live, (c.workspace.components.root? = none ∧
        Assembly.program c.rules package c.workspace.components c.program.1 live = .error .noRootForm) ∨
      ∃ lines text, Assembly.lines c.rules package c.workspace.components c.program.1 live = .ok lines ∧
        Assembly.program c.rules package c.workspace.components c.program.1 live = .ok text ∧
        read? text = some (lines.flatMap Line.data) := by
  refine ⟨fun id f hf => read?_render (h.legible_unit hf), fun live => ?_⟩
  cases hl : Assembly.lines c.rules package c.workspace.components c.program.1 live with
  | ok lines =>
    have htext := Assembly.read?_text (h.legible_lines hp hl)
    exact .inr ⟨lines, Assembly.text lines, rfl, by rw [Assembly.program, hl]; rfl, htext⟩
  | error e =>
    obtain ⟨hroot, rfl⟩ := Assembly.lines_error hl
    exact .inl ⟨hroot, by rw [Assembly.program, hl]; rfl⟩

def notes : Language :=
  (({} : Language).addGenus
    { name := "global", kind := .globalDef, initialLabel := "note",
      sockets := [{ label := "initialize to", kind := .typed "text" }] }).addGenus
    { name := "text", kind := .text, initialLabel := "", plug := some (.typed "text") }

def awkwardTexts : Compilation where
  lang := notes
  rules :=
    { knownTypes := .empty, kinds := [], genera := [], propertyTypes := [], methodParams := [], methodReturns := [] }
  workspace := (Workspace.new "Screen1").edited
    [.addBlock notes "global" "note", .addBlock notes "text" "\") ; #|\\", .graph (.connect 1 "initialize to" 2),
      .tree (.setProperty "Screen1" "Title" "|# (\n'")]
  live := false

theorem text_reads_awkwardTexts :
    ∃ (lines : List Line) (text : String),
      Assembly.program awkwardTexts.rules "my.app" awkwardTexts.workspace.components awkwardTexts.program.1 false =
        .ok text ∧
      read? text = some (lines.flatMap Line.data) ∧ (lines.flatMap Line.data).length = 5 := by
  have hnamed : awkwardTexts.Named := by decide +kernel
  rcases (text_reads hnamed (by decide : IsToken "my.app")).2 false with ⟨hroot, -⟩ | ⟨lines, text, hlines, htext, hread⟩
  · cases hroot
  · refine ⟨lines, text, htext, hread, ?_⟩
    obtain rfl := Except.ok.inj hlines
    rfl

end Compilation

end BlockStudio
