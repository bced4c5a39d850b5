import BlockStudio.Proofs.Compile.Definitions
import BlockStudio.Proofs.Sync.Agreement

namespace BlockStudio

namespace BlockGraph

variable {g : BlockGraph} {id : BlockId} {b : Block}

lemma topOfClump_of_get? (hb : g.get? id = some b) (hup : b.up = none) : g.topOfClump id = id := by
  rw [topOfClump]
  cases g.size with
  | zero => rfl
  | succ n => rw [climb, hb, Option.bind_some, hup]

lemma stack_of_get? (hb : g.get? id = some b) (ha : b.after = none) : g.stack id = [id] := by
  rw [stack, stackFrom, if_neg List.not_mem_nil, hb, Option.bind_some, ha]

end BlockGraph

namespace Planner

variable {p : Planner} {w : Workspace} {id : BlockId} {b : Block} {d : Declaration}

def offForm (d : Declaration) : Form := if d.isHandler then d.nullForm else Yail.null

lemma offForm_keys : d.key ∈ (offForm d).keys ↔ d.isHandler = true := by
  cases hd : d.isHandler with
  | true => simp [offForm, hd, Declaration.keys_nullForm]
  | false => simp [offForm, hd, Yail.null, Form.keys]

lemma render_call_ne_null (op : String) (args : List Form) : (Form.call op args).render ≠ Yail.null.render := by
  intro h
  have hfirst := congrArg (fun s => s.toList.head?) h
  simp [Form.call, Form.render, Yail.null, String.toList_append] at hfirst

lemma offForm_render : (offForm d).render = d.nullForm.render ↔ d.isHandler = true := by
  cases d with
  | event component name params => exact iff_of_true rfl rfl
  | global name => exact iff_of_false (fun h => render_call_ne_null _ _ h.symm) nofun
  | procedure name params => exact iff_of_false (fun h => render_call_ne_null _ _ h.symm) nofun

lemma isBlank_offForm : (offForm d).isBlank = false := by
  cases d <;> rfl

theorem switched_off_undone_iff (hb : w.blocks.get? id = some b) (hup : b.up = none) (hone : b.after = none)
    (hd : declarationOf? p.lang w id = some d) (ha : b.active = false) (hbad : b.bad = false) :
    ∃ s, p.plan w (.blockChanged id) = .ok s ∧
      s.plan.units = [{ code := (offForm d).render, purpose := .block, origin := some id }] ∧
      ((offForm d).render = d.nullForm.render ↔ d.isHandler = true) ∧
      (d.key ∈ (offForm d).keys ↔ d.isHandler = true) := by
  have hb' : (p.compilation w).block? id = some b := hb
  have hd' : declarationOf? (p.compilation w).lang (p.compilation w).workspace id = some d := hd
  have hcode : (p.compilation w).code [] id = pure (offForm d) := Compilation.code_off hb' hd' hbad ha []
  have hstack : (p.compilation w).workspace.blocks.stack id = [id] := BlockGraph.stack_of_get? hb hone
  have hunit : ((p.compilation w).unit id).1 = some (offForm d) := by
    rw [Compilation.unit, Compilation.clumpForm, hstack]
    simp only [hcode]
    rfl
  refine ⟨_, rfl, ?_, offForm_render, offForm_keys⟩
  simp only [planChanged, BlockGraph.topOfClump_of_get? hb hup, hd, step, compileInto, hunit, unitsOf, isBlank_offForm,
    List.nil_append, Bool.false_eq_true, if_false]

def totalOff : Workspace :=
  (Workspace.new "Screen1").edited
    [.addBlock globals "global" "", .addBlock globals "true" "", .graph (.connect 1 "initialize to" 2),
      .graph (.setActive 1 false)]

theorem switched_off_undone_iff_totalOff :
    ∃ s, globalsPlanner.plan totalOff (.blockChanged 1) = .ok s ∧
      s.plan.units = [{ code := "*the-null-value*", purpose := .block, origin := some 1 }] ∧
      (Declaration.global "total").nullForm.render ≠ "*the-null-value*" := by
  have hb : totalOff.blocks.get? 1 = some _ := rfl
  have hd : declarationOf? globalsPlanner.lang totalOff 1 = some (.global "total") := by decide
  obtain ⟨s, hs, hunits, hcode, -⟩ := switched_off_undone_iff hb rfl rfl hd rfl rfl
  exact ⟨s, hs, hunits, fun h => nomatch hcode.mp h.symm⟩

theorem totalOff_stays_defined :
    ¬ ∀ (p : Planner) (w : Workspace) (id : BlockId) (b : Block) (d : Declaration), w.blocks.get? id = some b →
      b.up = none → w.blocks.stack id = [id] → declarationOf? p.lang w id = some d → b.active = false →
      b.bad = false → ∃ s u, p.plan w (.blockChanged id) = .ok s ∧ s.plan.units = [u] ∧
        u.code = d.nullForm.render := by
  intro h
  obtain ⟨s, u, hs, hunits, hcode⟩ := h globalsPlanner totalOff 1 _ (.global "total") rfl rfl (by decide) (by decide)
    rfl rfl
  obtain rfl := Except.ok.inj hs
  obtain rfl := List.singleton_inj.mp hunits
  have hrun : Yail.null.render = (Declaration.global "total").nullForm.render := hcode
  exact render_call_ne_null _ _ hrun.symm

end Planner

end BlockStudio
