import BlockStudio.Proofs.Compile.Definitions
import BlockStudio.Proofs.Compile.Dropped
import BlockStudio.Proofs.Sync.Agreement

/-! What a device is sent for a declaration that a build of the whole program refuses as a duplicate. -/

namespace BlockStudio.Planner

variable {p : Planner} {w : Workspace} {pre post : List BlockId} {r id : BlockId} {d : Declaration}

theorem refused_duplicate_redefines_iff (hw : w.Reached) (hr : w.blocks.roots = pre ++ r :: post)
    (hd : declarationOf? p.lang w r = some d) (hrefused : (p.compilation w).Refused pre r)
    (hid : w.blocks.encloses r id = true) :
    ((p.compilation w).rootResults [] w.blocks.roots).filter (fun res => res.root = r) =
      [(p.compilation w).onlyNote r (Compilation.duplicateProblem d)] ∧
    (∃ s form, p.plan w (.blockChanged id) = .ok s ∧ s.plan.units = declarationUnits r form ∧
      ((∃ f, form = some f ∧ d.key ∈ f.keys) ↔ ((p.compilation w).unit r).1.isSome = true ∧
        ∃ x ∈ w.blocks.stack r, ((p.compilation w).written? x).isSome = true ∧
          (p.compilation w).issued? x = some d.key)) ∧
    ∀ w', ∃ s, p.plan w' (.blockDeleted d) = .ok s ∧
      s.plan.units = [{ code := d.nullForm.render, purpose := .block }] ∧ d.key ∈ d.nullForm.keys := by
  have h := hw.linked
  have hmem : r ∈ w.blocks.roots := hr ▸ List.mem_append_right pre List.mem_cons_self
  have hn : (pre ++ r :: post).Nodup := hr ▸ BlockGraph.nodup_roots h.own_id
  obtain ⟨k, hk, q, hq, hkq⟩ := hrefused
  have hkey : (p.compilation w).key? r = some d.key := by
    rw [Compilation.key?]
    exact congrArg _ hd
  obtain rfl := Option.some.inj (hkey.symm.trans hk)
  refine ⟨?_, ⟨_, _, rfl, units_planChanged h hmem hd hid, Compilation.mem_keys_unitResult r⟩, fun w' => ?_⟩
  · have hres := Compilation.results_of_declared (c := p.compilation w) hn hd
    rw [hr, hres, Compilation.declaredResult, if_pos ⟨q, hq, hkq⟩]
  · exact ⟨_, rfl, rfl, by simp [Declaration.keys_nullForm]⟩

def totals : Language :=
  globals.addGenus { name := "false", kind := .falsity, initialLabel := "false", plug := some (.typed "value") }

def rivalTotals : Workspace :=
  (Workspace.new "Screen1").edited
    [.addBlock totals "global" "", .addBlock totals "true" "", .graph (.connect 1 "initialize to" 2),
      .addBlock totals "global" "", .addBlock totals "false" "", .graph (.connect 3 "initialize to" 4)]

def totalsPlanner : Planner := { globalsPlanner with lang := totals }

theorem refused_duplicate_redefines_iff_rivalTotals :
    ∃ (s : Step) (f : Form), totalsPlanner.plan rivalTotals (.blockChanged 4) = .ok s ∧
      s.plan.units = [{ code := f.render, purpose := .block, origin := some 3 }] ∧ "total" ∈ f.keys := by
  have hw : rivalTotals.Reached := ⟨_, _, rfl⟩
  have hr : rivalTotals.blocks.roots = [1] ++ 3 :: [] := by decide
  have hd : declarationOf? totalsPlanner.lang rivalTotals 3 = some (.global "total") := by decide
  have hrefused : (totalsPlanner.compilation rivalTotals).Refused [1] 3 := ⟨"total", by decide, 1, by decide, by decide⟩
  have hid : rivalTotals.blocks.encloses 3 4 = true := by decide
  obtain ⟨-, ⟨s, form, hs, hunits, hkey⟩, -⟩ := refused_duplicate_redefines_iff hw hr hd hrefused hid
  obtain ⟨f, rfl, hf⟩ := hkey.mpr ⟨by decide, 3, by decide, by decide, by decide⟩
  exact ⟨s, f, hs, hunits, hf⟩

theorem rivalTotals_redefined :
    ¬ ∀ (p : Planner) (w : Workspace) (pre post : List BlockId) (r id : BlockId) (d : Declaration) (s : Step),
      w.Reached → w.blocks.roots = pre ++ r :: post → declarationOf? p.lang w r = some d →
      (p.compilation w).Refused pre r → w.blocks.encloses r id = true → p.plan w (.blockChanged id) = .ok s →
      ∀ u ∈ s.plan.units, ∀ f : Form, u.code = f.render → d.key ∉ f.keys := by
  intro h
  have hw : rivalTotals.Reached := ⟨_, _, rfl⟩
  have hrefused : (totalsPlanner.compilation rivalTotals).Refused [1] 3 := ⟨"total", by decide, 1, by decide, by decide⟩
  refine h totalsPlanner rivalTotals [1] [] 3 4 (.global "total") _ hw (by decide) (by decide) hrefused (by decide) rfl
    { code := "(def total #f)", purpose := .block, origin := some 3 } (by decide)
    (Yail.defineGlobal "total" Yail.falsity) (by decide) ?_
  simp [Form.keys_defineGlobal, Declaration.key]

end BlockStudio.Planner
