import BlockStudio.Proofs.Compile.Locality
import BlockStudio.Proofs.Compile.Roots
import BlockStudio.Proofs.Workspace.Reached
import BlockStudio.Sync.Plan

/-! After an edit the device gets for a declaration what a build of the whole program makes of it. -/

namespace BlockStudio

namespace Compilation

variable {c : Compilation} {g : BlockGraph} {root : BlockId}

/-- Declaring blocks are there in every well linked graph, so that they need not be compared. -/
lemma local_of_sameBelow (h : c.workspace.Linked) (h' : g.WellLinked) (hs : c.workspace.blocks.SameBelow g root) :
    c.Local g root := by
  refine ⟨hs, fun x b d hx hb hd => ?_⟩
  obtain ⟨b', hb', hp⟩ := hs.exists_same hx hb
  have hd' : b'.declaringParent = some d := (Block.eq_of_plain (fun _ => rfl) hp).trans hd
  rw [h.declared x b d hb hd, h'.declared x b' d hb' hd']

lemma unit_congr (h : c.workspace.Linked) (h' : g.WellLinked) (hs : c.workspace.blocks.SameBelow g root) :
    (c.withBlocks g).unit root = c.unit root :=
  unit_local h.toWired h'.toWired (local_of_sameBelow h h' hs)

end Compilation

namespace Planner

variable {w : Workspace} {p : Planner} {pre post : List BlockId} {r id : BlockId} {d : Declaration}

def declarationUnits (r : BlockId) (form : Option Form) : List SyncUnit :=
  (form.map fun f => { code := f.render, purpose := .block, origin := some r }).toList

lemma unitsOf_block (r : BlockId) (form : Option Form) :
    unitsOf r .block form = declarationUnits r (form.filter fun f => !f.isBlank) := by
  cases form with
  | none => rfl
  | some f => cases hf : f.isBlank <;> simp [unitsOf, declarationUnits, Option.filter, hf]

lemma units_planChanged (h : w.Linked) (hr : r ∈ w.blocks.roots) (hd : declarationOf? p.lang w r = some d)
    (hid : w.blocks.encloses r id = true) :
    (p.planChanged w id).plan.units = declarationUnits r ((p.compilation w).unitResult r).form := by
  have htop : w.blocks.topOfClump id = r :=
    BlockGraph.topOfClump_of_encloses h.sound (BlockGraph.up_of_mem_roots h.own_id hr) hid
  simp only [planChanged, htop, hd, step, compileInto, List.nil_append, unitsOf_block, Compilation.unitResult]

theorem changed_block_agrees (hw : w.Reached) (p : Planner) :
    (∀ pre r post d id, w.blocks.roots = pre ++ r :: post → declarationOf? p.lang w r = some d →
      w.blocks.encloses r id = true →
      ∃ res, ((p.compilation w).rootResults [] w.blocks.roots).filter (fun res => res.root = r) = [res] ∧
        ((∃ q ∈ pre, (p.compilation w).key? q = some d.key) →
          res = (p.compilation w).onlyNote r (Compilation.duplicateProblem d)) ∧
        ((∀ q ∈ pre, (p.compilation w).key? q ≠ some d.key) →
          (∀ f, res.form = some f → f ∈ (p.compilation w).program.1.under ((p.compilation w).ownerName r)) ∧
          ∃ s, p.plan w (.blockChanged id) = .ok s ∧ s.plan.units = declarationUnits r res.form)) ∧
    ∀ (w' : Workspace) (live : Bool) (root : BlockId), w'.Reached → w'.components = w.components →
      w.blocks.SameBelow w'.blocks root →
      (⟨p.lang, p.rules, w', live⟩ : Compilation).unit root = (⟨p.lang, p.rules, w, live⟩ : Compilation).unit root := by
  have h := hw.linked
  constructor
  · intro pre r post d id hroots hd hid
    have hmem : r ∈ w.blocks.roots := hroots ▸ List.mem_append_right pre List.mem_cons_self
    have hn : (pre ++ r :: post).Nodup := hroots ▸ BlockGraph.nodup_roots h.own_id
    have hres := Compilation.results_of_declared (c := p.compilation w) hn hd
    rw [← hroots] at hres
    refine ⟨_, hres, fun hdup => ?_, fun hfirst => ⟨fun f hf => ?_, _, rfl, ?_⟩⟩
    · rw [Compilation.declaredResult, if_pos hdup]
    · have hin := List.mem_of_mem_filter (hres ▸ List.mem_singleton_self (Compilation.declaredResult _ pre r d))
      rw [Compilation.under_program, List.mem_filterMap]
      refine ⟨_, List.mem_filter.mpr ⟨hin, ?_⟩, hf⟩
      rw [Compilation.root_declaredResult, decide_eq_true_iff]
    · rw [units_planChanged h hmem hd hid, Compilation.declaredResult, if_neg]
      rintro ⟨q, hq, hk⟩
      exact hfirst q hq hk
  · intro w' live root hw' hcomponents hsame
    have hblocks : (⟨p.lang, p.rules, w', live⟩ : Compilation) =
        (⟨p.lang, p.rules, w, live⟩ : Compilation).withBlocks w'.blocks := by
      simp only [Compilation.withBlocks, ← hcomponents]
    rw [hblocks]
    exact Compilation.unit_congr h hw'.linked hsame

def globals : Language :=
  (({} : Language).addGenus
    { name := "global", kind := .globalDef, initialLabel := "total",
      sockets := [{ label := "initialize to", kind := .typed "value" }] }).addGenus
    { name := "true", kind := .truth, initialLabel := "true", plug := some (.typed "value") }

def twoTotals : Workspace :=
  (Workspace.new "Screen1").edited
    [.addBlock globals "global" "", .addBlock globals "true" "", .graph (.connect 1 "initialize to" 2),
      .addBlock globals "global" ""]

def globalsPlanner : Planner where
  lang := globals
  rules :=
    { knownTypes := .empty, kinds := [], genera := [], propertyTypes := [], methodParams := [], methodReturns := [] }

theorem changed_block_agrees_twoTotals :
    ∃ s, globalsPlanner.plan twoTotals (.blockChanged 2) = .ok s ∧
      s.plan.units = [{ code := "(def total #t)", purpose := .block, origin := some 1 }] := by
  have hw : twoTotals.Reached := ⟨_, _, rfl⟩
  obtain ⟨res, hres, -, hkept⟩ := (changed_block_agrees hw globalsPlanner).1 [] 1 [3] (.global "total") 2
    (by decide) (by decide) (by decide)
  obtain ⟨-, s, hs, hu⟩ := hkept fun q hq => absurd hq List.not_mem_nil
  have hform : [res] = [{ root := 1, form := some (Yail.defineGlobal "total" Yail.truth) }] := hres.symm.trans rfl
  obtain rfl := List.head_eq_of_cons_eq hform
  refine ⟨s, hs, hu.trans ?_⟩
  decide

end Planner

end BlockStudio
