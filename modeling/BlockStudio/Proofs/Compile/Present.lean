import BlockStudio.Proofs.Compile.Roots
import BlockStudio.Proofs.Compile.Scoping
import BlockStudio.Proofs.Links.Pruned

/-! The generator comes to its end, and meets no block that is not there. -/

namespace BlockStudio

namespace Compilation

open Gen

/-- The code of a block, where `spent` answers when the depth runs out and `lost` where there is no block. -/
def formOr (c : Compilation) (spent lost : Scope → BlockId → Gen Form) : Nat → Scope → BlockId → Gen Form
  | 0, scope, id => spent scope id
  | n + 1, scope, id =>
    match c.block? id with
    | none => lost scope id
    | some b =>
      match c.lang.genus? b.genus with
      | none => do
        c.note id (.unknownGenus b.genus)
        return .blank
      | some genus => c.genusForm (formOr c spent lost n) genus b scope

def clumpWith (c : Compilation) (gen : Scope → BlockId → Gen Form) (root : BlockId) : Gen Form :=
  match c.workspace.blocks.stack root with
  | first :: second :: rest => return Yail.begin (← stackForms gen [] (first :: second :: rest))
  | _ => gen [] root

variable {c : Compilation} {spent spent' lost lost' gen gen' : Scope → BlockId → Gen Form} {b : Block}
  {d : Diagnostic} {id r x y : BlockId} {s : Socket} {label : String} {n m : ℕ}

lemma blockForm_eq_formOr (n : ℕ) : c.blockForm n = c.formOr (fun _ _ => pure .blank)
    (fun _ id => do c.note id .missingBlock; return .blank) n := by
  induction n with
  | zero => rfl
  | succ n ih =>
    funext scope id
    rw [blockForm, ih]
    rfl

lemma clumpWith_congr (h : ∀ y ∈ c.workspace.blocks.stack r, gen' [] y = gen [] y) :
    c.clumpWith gen' r = c.clumpWith gen r := by
  rw [clumpWith, clumpWith]
  split
  · rename_i he
    rw [stackForms_congr fun y hy => h y (he ▸ hy)]
  · exact h r (BlockGraph.mem_stack_self _ r)

section Linked

variable (h : c.workspace.Linked)

include h

lemma contains_of_held (hb : c.block? x = some b) (hs : b.socket? label = some s) (hid : s.block = some id)
    (hy : y ∈ c.workspace.blocks.stack id) : c.workspace.blocks.contains y = true :=
  BlockGraph.contains_of_mem_stack h.sound
    (BlockGraph.contains_of_mem_children h.sound hb (Block.mem_children_of_socket? hs hid)) hy

lemma formOr_eq (hx : c.workspace.blocks.contains x = true) (hn : c.workspace.blocks.size < n + h.sound.depth x)
    (hm : c.workspace.blocks.size < m + h.sound.depth x) (scope : Scope) :
    c.formOr spent lost n scope x = c.formOr spent' lost' m scope x := by
  induction n generalizing m x scope with
  | zero =>
    have hd := BlockGraph.depth_le_size h.sound x
    omega
  | succ n ih =>
    obtain ⟨m, rfl⟩ : ∃ k, m = k + 1 := by
      have hd := BlockGraph.depth_le_size h.sound x
      exact Nat.exists_eq_add_one.mpr (by omega)
    obtain ⟨b, hb⟩ := BlockGraph.contains_iff.mp hx
    have hb' : c.block? x = some b := hb
    simp only [formOr, hb']
    split
    · rfl
    · rename_i genus _
      have hbeside : Beside c (sameRun c.live) (c.formOr spent lost n) (c.formOr spent' lost' m) genus b scope := by
        refine ⟨fun label s id hs hid y hy => ?_, fun _ _ _ _ => rfl, fun _ _ => rfl⟩
        have hdeep := BlockGraph.depth_lt_of_mem_stack h.sound hb (Block.mem_children_of_socket? hs hid) hy
        exact ih (contains_of_held h hb hs hid hy) (by omega) (by omega) _
      exact hbeside.genusForm

lemma formOr_code (hx : c.workspace.blocks.contains x = true) (hn : c.depth ≤ n) (scope : Scope) :
    c.formOr spent lost n scope x = c.code scope x := by
  rw [depth] at hn
  rw [code, blockForm_eq_formOr]
  exact formOr_eq h hx (by omega) (by rw [depth]; omega) scope

lemma not_isStale (hb : c.block? x = some b) : c.isStale b = false := by
  cases hd : b.declaringParent with
  | none => rw [isStale, hd, Option.any_none]
  | some d =>
    obtain ⟨definition, hin⟩ := BlockGraph.contains_iff.mp (h.declared x b d hb hd)
    have hin' : c.block? d = some definition := hin
    rw [isStale, hd, Option.any_some, hin', Option.isNone_some]

lemma unbound_of_isAround (hr : c.workspace.blocks.contains r = true) (hd : d ∈ (c.unit r).2)
    (hp : d.problem.isAround = true) : ∃ name, d.problem = .unbound name := by
  refine reported_of_mem_unit (R := fun _ p => ∃ name, p = .unbound name) (fun y hy => ?_) hd hp
  refine blockForm_rel (c := c) (K := reporting _ c.live) (fun _ x => c.workspace.blocks.contains x = true) ?_ ?_
    (BlockGraph.contains_of_mem_stack h.sound hr hy)
  · intro scope x hx hnone
    obtain ⟨b, hb⟩ := BlockGraph.contains_iff.mp hx
    cases hnone.symm.trans hb
  · intro n scope x b genus _ hb _ ih
    refine ⟨fun label s id hs hid y hy => ih _ y (contains_of_held h hb hs hid hy),
      fun _ _ _ _ => .stop fun _ => ⟨b.label, rfl⟩, fun _ hstale => ?_⟩
    rw [not_isStale h hb] at hstale
    cases hstale

lemma not_dangling_of_mem_unit (hr : c.workspace.blocks.contains r = true) (hd : d ∈ (c.unit r).2) :
    d.problem ≠ .staleCall ∧ d.problem ≠ .missingBlock := by
  have hp := unbound_of_isAround h hr hd
  constructor
  · intro he
    simp [he, Problem.isAround] at hp
  · intro he
    simp [he, Problem.isAround] at hp

lemma contains_of_mem_roots (hr : r ∈ c.workspace.blocks.roots) : c.workspace.blocks.contains r = true :=
  ((BlockGraph.mem_roots_iff h.own_id).mp hr).1

lemma not_dangling_of_mem_program (hd : d ∈ c.program.2) : d.problem ≠ .staleCall ∧ d.problem ≠ .missingBlock := by
  obtain ⟨res, hres, hd⟩ := List.mem_flatMap.mp hd
  rcases result_of_mem hres with he | ⟨p, he, hp⟩
  · rw [he] at hd
    exact not_dangling_of_mem_unit h (contains_of_mem_roots h (root_mem_of_mem hres)) hd
  · rw [he] at hd
    obtain rfl := List.mem_singleton.mp hd
    rcases hp with rfl | ⟨decl, rfl⟩
    · exact ⟨nofun, nofun⟩
    · cases decl <;> exact ⟨nofun, nofun⟩

end Linked

theorem no_dangling_reference_compiled (hw : c.workspace.Reached) :
    (∀ x b, c.block? x = some b → ∀ y ∈ b.named, c.workspace.blocks.contains y = true) ∧
    (∀ r, c.workspace.blocks.contains r = true →
      (∃ l, Chain c.workspace.blocks.links.after r l ∧ c.workspace.blocks.stack r = r :: l) ∧
      (∀ spent lost n, c.depth ≤ n → c.clumpWith (c.formOr spent lost n) r = c.clumpForm r) ∧
      ∀ d ∈ (c.unit r).2, d.problem ≠ .staleCall ∧ d.problem ≠ .missingBlock) ∧
    (∀ r ∈ c.workspace.blocks.roots, c.workspace.blocks.contains r = true) ∧
    ∀ d ∈ c.program.2, d.problem ≠ .staleCall ∧ d.problem ≠ .missingBlock := by
  have h := hw.linked
  refine ⟨fun x b hb y hy => h.inOrder.named_present x b y hb hy, fun r hr => ⟨?_, fun spent lost n hn => ?_, ?_⟩,
    fun r hr => contains_of_mem_roots h hr, fun d hd => not_dangling_of_mem_program h hd⟩
  · obtain ⟨l, hl⟩ := BlockGraph.after_ends h.sound r
    exact ⟨l, hl, BlockGraph.stack_eq h.sound hl⟩
  · show _ = c.clumpWith c.code r
    exact clumpWith_congr fun y hy => formOr_code h (BlockGraph.contains_of_mem_stack h.sound hr hy) hn []
  · exact fun d hd => not_dangling_of_mem_unit h hr hd

def calling : Language :=
  ((({} : Language).addGenus
    { name := GenusName.procedure, kind := .procedureDef,
      sockets := [{ label := "do", kind := .typed "cmd", command := true }] }).addGenus
    { name := GenusName.argument, kind := .argument, plug := some (.typed "argument") }).addGenus
    { name := GenusName.callerCommand, kind := .procedureCall, command := true }

def callsBack : Compilation where
  lang := calling
  rules :=
    { knownTypes := .empty, kinds := [], genera := [], propertyTypes := [], methodParams := [], methodReturns := [] }
  workspace := (Workspace.new "Screen1").edited
    [.addProcedure calling "again" [] false, .addProcedure calling "help" [] false,
      .addProcedureCall calling 2, .graph (.connect 1 "do" 3),
      .addProcedureCall calling 1, .graph (.setNext 3 4), .graph (.removeBlock 2)]
  live := true

theorem no_dangling_reference_compiled_callsBack :
    callsBack.workspace.Reached ∧ callsBack.workspace.blocks.contains 3 = false ∧
    callsBack.workspace.blocks.contains 1 = true ∧ callsBack.workspace.blocks.contains 4 = true ∧
    (∀ d ∈ (callsBack.unit 1).2, d.problem ≠ .staleCall ∧ d.problem ≠ .missingBlock) ∧
    ∀ d ∈ callsBack.program.2, d.problem ≠ .staleCall ∧ d.problem ≠ .missingBlock := by
  have hw : callsBack.workspace.Reached := ⟨_, _, rfl⟩
  have hthere : callsBack.workspace.blocks.contains 1 = true := by decide
  obtain ⟨-, hunit, -, hprogram⟩ := no_dangling_reference_compiled hw
  exact ⟨hw, by decide, hthere, by decide, (hunit 1 hthere).2.2, hprogram⟩

end Compilation

end BlockStudio
