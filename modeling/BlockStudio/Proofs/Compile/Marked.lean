import BlockStudio.Compile.Assembly
import Mathlib.Data.List.Nodup
import Mathlib.Tactic.Lemma

/-! The lines of a program with what they are there for, and which of them stand above which. -/

namespace BlockStudio

inductive Role where
  | frame
  | creation (component : String)
  | handler (component : String)
  | global
  | start
deriving DecidableEq

def Line.isFrame : Line → Bool
  | form (.list (.word op :: _)) => op ∈ ["define-form", "require", "clear-current-form", "rename-component"]
  | form _ => false
  | _ => true

abbrev Marked := Role × Line

namespace Marked

def forms (r : Role) (fs : List Form) : List Marked := fs.map fun f => (r, .form f)

def frames (ls : List Line) : List Marked := ls.map fun l => (.frame, l)

def linesOf (r : Role) (ls : List Marked) : List Line := (ls.filter (·.1 = r)).map Prod.snd

def Framed (ls : List Marked) : Prop := ∀ x ∈ ls, x.1 = .frame → x.2.isFrame = true

def Without (r : Role) (ls : List Marked) : Prop := ∀ x ∈ ls, x.1 ≠ r

def Before (r s : Role) (ls : List Marked) : Prop := ls.Pairwise fun x y => ¬ (x.1 = s ∧ y.1 = r)

variable {r s : Role} {ls ms : List Marked} {fs : List Form}

@[simp] lemma map_snd_forms : (forms r fs).map Prod.snd = fs.map .form := by
  rw [forms, List.map_map]
  rfl

@[simp] lemma map_snd_frames (l : List Line) : (frames l).map Prod.snd = l := by
  rw [frames, List.map_map]
  exact List.map_id l

@[simp] lemma linesOf_append : linesOf r (ls ++ ms) = linesOf r ls ++ linesOf r ms := by
  rw [linesOf, List.filter_append, List.map_append]
  rfl

@[simp] lemma linesOf_forms : linesOf r (forms s fs) = if s = r then fs.map .form else [] := by
  rw [linesOf, forms, List.filter_map]
  by_cases h : s = r
  · rw [if_pos h, List.filter_eq_self.mpr (by simp [h]), List.map_map]
    rfl
  · rw [if_neg h, List.filter_eq_nil_iff.mpr (by simp [h])]
    rfl

@[simp] lemma linesOf_frames (h : r ≠ .frame) (l : List Line) : linesOf r (frames l) = [] := by
  rw [linesOf, frames, List.filter_map, List.filter_eq_nil_iff.mpr (by simp [h.symm])]
  rfl

lemma linesOf_flatMap {α : Type} (f : α → List Marked) (l : List α) :
    linesOf r (l.flatMap f) = l.flatMap fun a => linesOf r (f a) := by
  induction l with
  | nil => rfl
  | cons a l ih => rw [List.flatMap_cons, linesOf_append, ih, List.flatMap_cons]

@[simp] lemma without_append : Without r (ls ++ ms) ↔ Without r ls ∧ Without r ms := List.forall_mem_append

@[simp] lemma without_forms (h : s ≠ r) : Without r (forms s fs) := by
  intro x hx
  obtain ⟨f, -, rfl⟩ := List.mem_map.mp hx
  exact h

@[simp] lemma without_frames (h : r ≠ .frame) (l : List Line) : Without r (frames l) := by
  intro x hx
  obtain ⟨f, -, rfl⟩ := List.mem_map.mp hx
  exact h.symm

@[simp] lemma without_flatMap {α : Type} {f : α → List Marked} {l : List α} :
    Without r (l.flatMap f) ↔ ∀ a ∈ l, Without r (f a) := List.forall_mem_flatMap

@[simp] lemma framed_append : Framed (ls ++ ms) ↔ Framed ls ∧ Framed ms := List.forall_mem_append

@[simp] lemma framed_forms (h : r ≠ .frame) : Framed (forms r fs) := fun x hx hf => absurd hf (without_forms h x hx)

lemma framed_frames {l : List Line} : Framed (frames l) ↔ ∀ x ∈ l, x.isFrame = true := by
  simp [Framed, frames]

@[simp] lemma framed_flatMap {α : Type} {f : α → List Marked} {l : List α} :
    Framed (l.flatMap f) ↔ ∀ a ∈ l, Framed (f a) := List.forall_mem_flatMap

lemma linesOf_of_without (h : Without r ls) : linesOf r ls = [] := by
  rw [linesOf, List.filter_eq_nil_iff.mpr fun x hx => by simp [h x hx], List.map_nil]

lemma before_append (hl : Without s ls) (hm : Without r ms) : Before r s (ls ++ ms) :=
  List.pairwise_append.mpr ⟨List.pairwise_of_forall_mem_list fun x hx _ _ h => hl x hx h.1,
    List.pairwise_of_forall_mem_list fun _ _ y hy h => hm y hy h.2, fun x hx _ _ h => hl x hx h.1⟩

end Marked

namespace Assembly

variable (rules : LinkRules) (package : String) (root : Component) (code : BlockCode) (live : Bool)

open Marked

def head : List Marked :=
  if live then
    frames ((.call "clear-current-form" [] ::
      (if root.name = sessionForm then [] else [Yail.renameComponent sessionForm root.name])).map .form)
  else
    frames [.header, .blank, .form (.call "define-form" [.word (package ++ "." ++ root.name), .word root.name]),
      .form (.call "require" [.word "<com.google.youngandroid.runtime>"])]

def body (c : Component) : List Marked :=
  if live then forms (.creation c.name) (creation rules c)
  else
    frames [.blank, .comment c.name, .blank] ++ forms (.creation c.name) (creation rules c) ++
      forms (.handler c.name) (handlers code c)

def tail (walk : List Component) : List Marked :=
  if live then
    forms .global code.globals ++ walk.flatMap fun c => forms (.handler c.name) (handlers code c)
  else frames (if code.globals.isEmpty then [] else [.blank]) ++ forms .global code.globals

def startForm (walk : List Component) : Form :=
  if live then .call "call-Initialize-of-components" (walk.map fun c => .symbol c.name) else .call "init-runtime" []

def marked (walk : List Component) : List Marked :=
  head package root live ++ walk.flatMap (body rules code live) ++ tail code live walk ++
    forms .start [startForm live walk]

variable {rules package root code live} {walk : List Component}

lemma map_snd_marked : (marked rules package root code live walk).map Prod.snd =
    if live then liveLines rules root walk code else appLines rules package root walk code := by
  cases live with
  | true => simp [marked, head, body, tail, startForm, liveLines, List.map_flatMap]
  | false => simp [marked, head, body, tail, startForm, appLines, List.map_flatMap]

lemma flatMap_named {β : Type} (hn : (walk.map (·.name)).Nodup) {c : Component} (hc : c ∈ walk) (g : Component → List β) :
    (walk.flatMap fun d => if d.name = c.name then g d else []) = g c := by
  induction walk with
  | nil => cases hc
  | cons d walk ih =>
    obtain ⟨hd, hn⟩ := List.nodup_cons.mp hn
    rw [List.flatMap_cons]
    obtain rfl | hc := List.mem_cons.mp hc
    · have hrest : (walk.flatMap fun d => if d.name = c.name then g d else []) = [] :=
        List.flatMap_eq_nil_iff.mpr fun e he => if_neg fun heq => hd (List.mem_map.mpr ⟨e, he, heq⟩)
      rw [if_pos rfl, hrest, List.append_nil]
    · rw [if_neg fun heq => hd (List.mem_map.mpr ⟨c, hc, heq.symm⟩), ih hn hc, List.nil_append]

lemma linesOf_creation (name : String) : linesOf (.creation name) (marked rules package root code live walk) =
    walk.flatMap fun c => if c.name = name then (creation rules c).map .form else [] := by
  cases live with
  | true => simp [marked, head, body, tail, linesOf_flatMap]
  | false => simp [marked, head, body, tail, linesOf_flatMap]

lemma linesOf_handler (name : String) : linesOf (.handler name) (marked rules package root code live walk) =
    walk.flatMap fun c => if c.name = name then (code.handlersOf c.name).map .form else [] := by
  cases live with
  | true => simp [marked, head, body, tail, linesOf_flatMap, handlers]
  | false => simp [marked, head, body, tail, linesOf_flatMap, handlers]

lemma linesOf_global : linesOf .global (marked rules package root code live walk) = code.globals.map .form := by
  cases live with
  | true => simp [marked, head, body, tail, linesOf_of_without]
  | false => simp [marked, head, body, tail, linesOf_of_without]

lemma linesOf_start :
    linesOf .start (marked rules package root code live walk) = [.form (startForm live walk)] := by
  cases live with
  | true => simp [marked, head, body, tail, linesOf_of_without]
  | false => simp [marked, head, body, tail, linesOf_of_without]

lemma framed_head : Framed (head package root live) := by
  cases live with
  | true =>
    refine framed_frames.mpr ?_
    split
    · simp [Line.isFrame, Form.call]
    · simp [Line.isFrame, Form.call, Yail.renameComponent]
  | false => exact framed_frames.mpr (by simp [Line.isFrame, Form.call])

lemma framed_body (c : Component) : Framed (body rules code live c) := by
  cases live with
  | true => simp [body]
  | false => simp [body, framed_frames, Line.isFrame]

lemma framed_tail : Framed (tail code live walk) := by
  cases live with
  | true => simp [tail]
  | false =>
    refine framed_append.mpr ⟨framed_frames.mpr ?_, framed_forms nofun⟩
    split
    · simp
    · simp [Line.isFrame]

lemma framed_marked : Framed (marked rules package root code live walk) := by
  simp only [marked, framed_append]
  exact ⟨⟨⟨framed_head, framed_flatMap.mpr fun c _ => framed_body c⟩, framed_tail⟩, framed_forms nofun⟩

lemma without_body {r : Role} {c : Component} (hc : r ≠ .creation c.name) (hh : r ≠ .handler c.name) (hf : r ≠ .frame) :
    Without r (body rules code live c) := by
  cases live with
  | true => simp [body, hc.symm]
  | false => simp [body, hc.symm, hh.symm, hf]

lemma ne_of_cut {l₁ l₂ : List Component} (hn : ((l₁ ++ l₂).map (·.name)).Nodup) {c d : Component} (hc : c ∈ l₁)
    (hd : d ∈ l₂) : c.name ≠ d.name := by
  rw [List.map_append, List.nodup_append] at hn
  exact hn.2.2 _ (List.mem_map_of_mem hc) _ (List.mem_map_of_mem hd)

lemma without_head {r : Role} (hr : r ≠ .frame) : Without r (head package root live) := by
  cases live with
  | true => exact without_frames hr _
  | false => exact without_frames hr _

lemma before_cut {r s : Role} {l₁ l₂ : List Component} (hw : walk = l₁ ++ l₂) (hs : s ≠ .frame)
    (h₁ : ∀ c ∈ l₁, Without s (body rules code live c)) (h₂ : ∀ c ∈ l₂, Without r (body rules code live c))
    (ht : Without r (tail code live walk)) (hr : .start ≠ r) : Before r s (marked rules package root code live walk) := by
  have hcut : marked rules package root code live walk =
      (head package root live ++ l₁.flatMap (body rules code live)) ++
        (l₂.flatMap (body rules code live) ++ tail code live walk ++ forms .start [startForm live walk]) := by
    rw [marked, hw, List.flatMap_append]
    simp only [List.append_assoc]
  rw [hcut]
  refine before_append (without_append.mpr ⟨without_head hs, without_flatMap.mpr h₁⟩) ?_
  exact without_append.mpr ⟨without_append.mpr ⟨without_flatMap.mpr h₂, ht⟩, without_forms hr⟩

lemma creation_before_handler {l₁ l₂ : List Component} {c : Component} (hw : walk = l₁ ++ c :: l₂)
    (hn : (walk.map (·.name)).Nodup) :
    Before (.creation c.name) (.handler c.name) (marked rules package root code false walk) := by
  subst hw
  have hcut : marked rules package root code false (l₁ ++ c :: l₂) =
      (head package root false ++ l₁.flatMap (body rules code false) ++ frames [.blank, .comment c.name, .blank] ++
        forms (.creation c.name) (creation rules c)) ++
      (forms (.handler c.name) (handlers code c) ++ l₂.flatMap (body rules code false) ++
        tail code false (l₁ ++ c :: l₂) ++ forms .start [startForm false (l₁ ++ c :: l₂)]) := by
    simp [marked, body, List.append_assoc]
  have habove : ∀ e ∈ l₁, Without (.handler c.name) (body rules code false e) := fun e he =>
    without_body nofun (fun heq => ne_of_cut hn he List.mem_cons_self (Role.handler.inj heq).symm) nofun
  have hn' : ((l₁ ++ [c] ++ l₂).map (·.name)).Nodup := by simpa using hn
  have hbelow : ∀ e ∈ l₂, Without (.creation c.name) (body rules code false e) := fun e he =>
    without_body (fun heq => ne_of_cut hn' (by simp) he (Role.creation.inj heq)) nofun nofun
  rw [hcut]
  refine before_append ?_ ?_
  · simpa [without_head] using habove
  · simpa [tail] using hbelow

lemma handler_before_next {l₁ l₂ : List Component} {c d : Component} {r : Role} (hw : walk = l₁ ++ c :: l₂)
    (hn : (walk.map (·.name)).Nodup) (hd : d ∈ l₂) (hr : r = .creation d.name ∨ r = .handler d.name) :
    Before (.handler c.name) r (marked rules package root code false walk) := by
  have hw' : walk = (l₁ ++ [c]) ++ l₂ := by simp [hw]
  rw [hw'] at hn
  refine before_cut hw' ?_ (fun e he => ?_) (fun e he => without_body nofun ?_ nofun) (by simp [tail]) nofun
  · obtain rfl | rfl := hr
    · nofun
    · nofun
  · have hne := ne_of_cut hn he hd
    obtain rfl | rfl := hr
    · exact without_body (fun heq => hne (Role.creation.inj heq).symm) nofun nofun
    · exact without_body nofun (fun heq => hne (Role.handler.inj heq).symm) nofun
  · exact fun heq => ne_of_cut hn (by simp) he (Role.handler.inj heq)

lemma creation_before_tail {name : String} {r : Role} (hr : ∀ name, r ≠ .creation name) (hf : r ≠ .frame) :
    Before (.creation name) r (marked rules package root code true walk) := by
  have hcut : walk = walk ++ [] := (List.append_nil walk).symm
  refine before_cut hcut hf (fun c _ => ?_) nofun (by simp [tail]) nofun
  exact without_forms (hr c.name).symm

lemma global_before_handler {name : String} :
    Before .global (.handler name) (marked rules package root code true walk) := by
  have hcut : marked rules package root code true walk =
      (head package root true ++ walk.flatMap (body rules code true) ++ forms .global code.globals) ++
      (walk.flatMap (fun c => forms (.handler c.name) (handlers code c)) ++ forms .start [startForm true walk]) := by
    simp [marked, tail, List.append_assoc]
  rw [hcut]
  refine before_append ?_ ?_
  · simp [without_head, body]
  · simp

lemma before_start {r : Role} (hr : r ≠ .start) : Before r .start (marked rules package root code live walk) := by
  refine before_append ?_ (without_forms hr.symm)
  cases live with
  | true => simp [without_head, body, tail]
  | false => simp [without_head, body, tail]

end Assembly

end BlockStudio
