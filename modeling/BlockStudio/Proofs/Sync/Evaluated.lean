import BlockStudio.Proofs.Compile.Present
import BlockStudio.Proofs.Sync.Agreement

namespace BlockStudio

open Gen

namespace BlockGraph

variable {g : BlockGraph} {b : Block} {id x y : BlockId} {on : Bool}

def watch (g : BlockGraph) (id : BlockId) (on : Bool) : BlockGraph :=
  g.modify id fun b => { b with shouldReport := on }

lemma sameJoints_watch : g.SameJoints (g.watch id on) := sameJoints_modify fun _ _ => rfl

lemma get?_watch_self (hb : g.get? id = some b) : (g.watch id on).get? id = some (b.shown b.remark on) := by
  rw [watch, get?_modify, if_pos rfl, hb]
  rfl

lemma sameBelow_watch (h : g.encloses y id = false) : g.SameBelow (g.watch id on) y := by
  intro x hx
  have hne : x ≠ id := by
    rintro rfl
    rw [h] at hx
    cases hx
  rw [watch, get?_modify, if_neg hne]

lemma label_watch (x : BlockId) : ((g.watch id on).get? x).map (·.label) = (g.get? x).map (·.label) :=
  map_get?_modify (f := fun b => { b with shouldReport := on }) (p := (·.label)) (fun _ _ => rfl) x

section Sound

variable (h : g.links.Sound)

include h

lemma not_encloses_of_depth_lt (hd : h.depth x < h.depth y) : g.encloses y x = false := by
  rw [Bool.eq_false_iff]
  intro hy
  have hle := depth_le_of_encloses h hy
  omega

lemma not_encloses_child (hb : g.get? id = some b) (hx : x ∈ b.children) (hy : y ∈ g.stack x) : g.encloses y id = false :=
  not_encloses_of_depth_lt h (depth_lt_of_mem_stack h hb hx hy)

lemma not_encloses_of_mem_tail (hy : y ∈ (g.stack x).tail) : g.encloses y x = false := by
  obtain ⟨l, hl⟩ := after_ends h x
  rw [stack_eq h hl, List.tail_cons] at hy
  cases hl with
  | last _ => cases hy
  | link hz hl =>
    have hup := h.depth_up (h.up_of_after hz)
    have hle := h.depth_le_of_mem_after hl hy
    exact not_encloses_of_depth_lt h (by omega)

lemma exists_stack (hb : g.get? id = some b) : ∃ l, g.stack id = id :: l ∧ (l = [] ↔ b.after = none) := by
  obtain ⟨l, hl⟩ := after_ends h id
  have hafter : g.links.after id = b.after := by simp [links, hb]
  refine ⟨l, stack_eq h hl, ?_⟩
  cases hl with
  | last hn => exact iff_of_true rfl (hafter ▸ hn)
  | link hn _ =>
    refine iff_of_false (List.cons_ne_nil _ _) fun ha => ?_
    rw [hafter, ha] at hn
    cases hn

end Sound

lemma WellLinked.watch (h : g.WellLinked) (id : BlockId) (on : Bool) : (g.watch id on).WellLinked := h.same sameJoints_watch

end BlockGraph

namespace Yail

lemma begin_cons (f : Form) (fs : List Form) : begin (if f.isBlank then fs else f :: fs) = begin (f :: fs) := by
  cases hf : f.isBlank with
  | false => rw [if_neg Bool.false_ne_true]
  | true => simp [begin, present, hf]

lemma exists_render_call (op : String) (args : List Form) :
    ∃ rest, (Form.call op args).render.toList = '(' :: (op.toList ++ rest) := by
  cases args with
  | nil => exact ⟨[')'], by simp [Form.call, Form.render, Form.renderAll, Text.spaced]⟩
  | cons f args =>
    refine ⟨' ' :: ((Text.spaced (f.render :: Form.renderAll args)).toList ++ [')']), ?_⟩
    simp [Form.call, Form.render, Form.renderAll, Text.spaced, String.intercalate_cons_cons]

lemma render_begin_ne_report (forms : List Form) (id : BlockId) (code : Form) :
    (begin forms).render ≠ (report id code).render := by
  obtain ⟨rest, hbegin⟩ := exists_render_call "begin" (present forms)
  obtain ⟨rest', hreport⟩ := exists_render_call "report-block-value" [.str (Text.natText id), code]
  intro h
  rw [begin, report, ← String.toList_inj, hbegin, hreport] at h
  simp at h

end Yail

namespace Planner

open BlockGraph Compilation

def alone (p : Planner) (w : Workspace) (id : BlockId) : Gen Form := (p.compilation (watch w id false)).code [] id

def below (p : Planner) (w : Workspace) (id : BlockId) : Gen (List Form) :=
  stackForms (p.compilation w).code [] (w.blocks.stack id).tail

def watched (id : BlockId) (code : Form) : Form := if code.isBlank then code else Yail.report id code

def evaluation (p : Planner) (w : Workspace) (id : BlockId) (b : Block) : Gen Form := do
  let code ← p.alone w id
  if b.after.isNone then return watched id code
  else return Yail.begin (watched id code :: (← p.below w id))

variable {p : Planner} {w : Workspace} {id y : BlockId} {b : Block} {on : Bool}

section Linked

variable (h : w.Linked)

include h

lemma local_watch (hy : w.blocks.encloses y id = false) : (p.compilation w).Local (w.blocks.watch id on) y :=
  local_of_sameBelow h (h.watch id on) (sameBelow_watch hy)

lemma code_watch (hy : w.blocks.encloses y id = false) (scope : Scope) :
    (p.compilation (watch w id on)).code scope y = (p.compilation w).code scope y :=
  code_local h.toWired (h.watch id on).toWired (local_watch h hy) (encloses_self h.sound y) scope

lemma alike_watch (hb : w.blocks.get? id = some b) : (p.compilation w).Alike (w.blocks.watch id on)
    ((p.compilation w).blockForm w.blocks.size) ((p.compilation (watch w id on)).blockForm w.blocks.size) b where
  stack x _ := sameJoints_watch.stack_eq h.sound x
  gen x hx y hy scope := by
    have hd' := depth_lt_of_mem_stack (h.watch id on).sound (get?_watch_self hb) hx hy
    rw [sameJoints_watch.stack_eq h.sound] at hy
    have hd := depth_lt_of_mem_stack h.sound hb hx hy
    have hn : w.blocks.size < w.blocks.size + h.sound.depth y := by omega
    have hm : (w.blocks.watch id on).size < w.blocks.size + (h.watch id on).sound.depth y := by
      rw [sameJoints_watch.size_eq]
      omega
    exact blockForm_local h.toWired (h.watch id on).toWired (local_watch h (not_encloses_child h.sound hb hx hy))
      (encloses_self h.sound y) hn hm scope
  label x _ := label_watch x
  params := by
    have hnew : ((p.compilation w).withBlocks (w.blocks.watch id on)).workspace.blocks.get? id = _ := get?_watch_self hb
    have hold : (p.compilation w).workspace.blocks.get? id = some b := hb
    rw [h.own_id id b hb, Workspace.procedureParams_eq hnew, Workspace.procedureParams_eq hold]
    exact List.filterMap_congr fun x _ => label_watch x
  stale := by
    have hnone : ∀ d, ((w.blocks.watch id on).get? d).isNone = (w.blocks.get? d).isNone := fun d => by
      have hlabel : ((w.blocks.watch id on).get? d).map (·.label) = (w.blocks.get? d).map (·.label) := label_watch d
      have hl := congrArg Option.isNone hlabel
      rwa [Option.isNone_map, Option.isNone_map] at hl
    rw [isStale, isStale]
    exact congrArg (Option.any · b.declaringParent) (funext hnone)

lemma code_watch_self (hb : w.blocks.get? id = some b) (ha : b.active = true) (hbad : b.bad = false) :
    (p.compilation (watch w id on)).code [] id =
      match p.lang.genus? b.genus with
      | none => (p.compilation w).note id (.unknownGenus b.genus) >>= fun _ => pure .blank
      | some genus => Gen.catchInternal true .blank
          ((p.compilation w).kindForm ((p.compilation w).blockForm w.blocks.size) genus b []) >>= fun code =>
        pure (reported (b.shown b.remark on) code) := by
  have hblock : (p.compilation (watch w id on)).block? id = some (b.shown b.remark on) := get?_watch_self hb
  have hdepth : (p.compilation (watch w id on)).depth = w.blocks.size + 1 := congrArg (· + 1) sameJoints_watch.size_eq
  have hlang : (p.compilation (watch w id on)).lang.genus? (b.shown b.remark on).genus = p.lang.genus? b.genus := rfl
  rw [code, hdepth, blockForm, hblock]
  simp only [hlang]
  cases hg : p.lang.genus? b.genus with
  | none => rfl
  | some genus =>
    have hkind : (p.compilation (watch w id on)).kindForm
          ((p.compilation (watch w id on)).blockForm w.blocks.size) genus b [] =
        (p.compilation w).kindForm ((p.compilation w).blockForm w.blocks.size) genus b [] :=
      (alike_watch h hb).kindForm [] genus
    dsimp only
    rw [genusForm, if_neg (by simp [Block.shown, hbad]), if_neg (by simp [Block.shown, ha]), kindForm_shown, hkind]
    rfl

lemma code_of_watched (hb : w.blocks.get? id = some b) (ha : b.active = true) (hbad : b.bad = false) :
    (p.compilation (watch w id true)).code [] id = p.alone w id >>= fun code => pure (watched id code) := by
  have hid : b.id = id := h.own_id id b hb
  have hoff : ∀ code, reported (b.shown b.remark false) code = code := fun code => by simp [reported, Block.shown]
  have hon : ∀ code, reported (b.shown b.remark true) code = watched id code := fun code => by
    cases hc : code.isBlank <;> simp [reported, Block.shown, watched, hc, hid]
  rw [alone, code_watch_self h hb ha hbad, code_watch_self h hb ha hbad]
  cases p.lang.genus? b.genus with
  | none =>
    have hempty : Form.blank.isBlank = true := by decide
    have hblank : watched id .blank = .blank := by rw [watched, if_pos hempty]
    dsimp only
    rw [bind_assoc, pure_bind, hblank]
  | some genus =>
    dsimp only
    simp only [bind_assoc, pure_bind, hoff, hon]

lemma forms_below (l : List BlockId) (hl : ∀ y ∈ l, w.blocks.encloses y id = false) :
    stackForms (p.compilation (watch w id on)).code [] l = stackForms (p.compilation w).code [] l :=
  stackForms_congr fun y hy => code_watch h (hl y hy) []

lemma clumpForm_of_watched (hb : w.blocks.get? id = some b) (ha : b.active = true) (hbad : b.bad = false) :
    (p.compilation (watch w id true)).clumpForm id = p.evaluation w id b := by
  obtain ⟨l, hstack, hl⟩ := exists_stack h.sound hb
  have hstack' : (p.compilation (watch w id true)).workspace.blocks.stack id = id :: l :=
    (sameJoints_watch.stack_eq h.sound id).trans hstack
  have hcode := code_of_watched (p := p) h hb ha hbad
  rw [clumpForm, hstack', evaluation]
  cases l with
  | nil =>
    dsimp only
    rw [hcode, hl.mp rfl]
    rfl
  | cons y l =>
    have hafter : b.after ≠ none := fun hn => List.cons_ne_nil y l (hl.mpr hn)
    have hsome : b.after.isNone = false := Option.isNone_eq_false_iff.mpr (Option.isSome_iff_ne_none.mpr hafter)
    have hbelow : stackForms (p.compilation (watch w id true)).code [] (y :: l) = p.below w id := by
      rw [below, hstack, List.tail_cons]
      refine forms_below h (y :: l) fun z hz => not_encloses_of_mem_tail h.sound ?_
      rwa [hstack, List.tail_cons]
    dsimp only
    rw [stackForms, hbelow, hcode]
    simp only [bind_assoc, pure_bind, hsome, Yail.begin_cons]
    rfl

end Linked

lemma mem_unitsOf {purpose : Purpose} {form : Option Form} {u : SyncUnit} (hu : u ∈ unitsOf id purpose form) :
    ∃ f, form = some f ∧ f.isBlank = false ∧ u = ⟨f.render, purpose, some id⟩ ∧ unitsOf id purpose form = [u] := by
  cases form with
  | none => cases hu
  | some f =>
    cases hf : f.isBlank with
    | true => simp [unitsOf, hf] at hu
    | false =>
      simp only [unitsOf, hf, Bool.false_eq_true, if_false, List.mem_singleton] at hu ⊢
      exact ⟨f, rfl, hf, hu, by rw [hu]⟩

lemma watched_of_not_blank {code : Form} (h : (watched id code).isBlank = false) :
    watched id code = Yail.report id code := by
  rw [watched] at h ⊢
  split_ifs at h ⊢ with hc
  · rw [hc] at h
    cases h
  · rfl

lemma reports_alone_iff {f : Form} (hf : (p.evaluation w id b).outcome = .ok f) (hblank : f.isBlank = false) :
    (∃ e, (p.alone w id).outcome = .ok e ∧ f.render = (Yail.report id e).render) ↔ b.after = none := by
  obtain ⟨code, hcode, hrest⟩ := exists_of_bind_ok hf
  cases ha : b.after with
  | none =>
    simp only [ha, Option.isNone_none, if_true] at hrest
    obtain rfl := Except.ok.inj hrest
    exact iff_of_true ⟨code, hcode, congrArg _ (watched_of_not_blank hblank)⟩ rfl
  | some y =>
    simp only [ha, Option.isNone_some, Bool.false_eq_true, if_false] at hrest
    obtain ⟨fs, -, rfl⟩ := exists_of_bind_pure_ok hrest
    refine iff_of_false ?_ (Option.some_ne_none y)
    rintro ⟨e, -, he⟩
    exact Yail.render_begin_ne_report _ id e he

lemma fst_unit (c : Compilation) (r : BlockId) : (c.unit r).1 = (c.clumpForm r).outcome.toOption := by
  rw [Compilation.unit]
  cases h : (c.clumpForm r).outcome with
  | ok f => rfl
  | error e => rfl

theorem evaluates_block_alone_iff (hw : w.Reached) (p : Planner) (hb : w.blocks.get? id = some b)
    (ha : b.active = true) (hbad : b.bad = false) :
    ∃ s, p.plan w (.doIt id) = .ok s ∧
      s.plan.units = unitsOf id .doIt (p.evaluation w id b).outcome.toOption ∧
      ∀ u ∈ s.plan.units, s.plan.units = [u] ∧ u.purpose = .doIt ∧ u.origin = some id ∧
        ((∃ e, (p.alone w id).outcome = .ok e ∧ u.code = (Yail.report id e).render) ↔ b.after = none) := by
  have hform : ((p.compilation (watch w id true)).unit id).1 = (p.evaluation w id b).outcome.toOption := by
    rw [fst_unit, clumpForm_of_watched hw.linked hb ha hbad]
  have hplan : ∃ s, p.plan w (.doIt id) = .ok s ∧
      s.plan.units = unitsOf id .doIt (p.evaluation w id b).outcome.toOption := by
    rw [plan, planDoIt, BlockGraph.require_eq_ok.mpr hb]
    refine ⟨_, rfl, ?_⟩
    rw [← hform]
    rfl
  obtain ⟨s, hs, hunits⟩ := hplan
  refine ⟨s, hs, hunits, fun u hu => ?_⟩
  obtain ⟨f, hf, hblank, rfl, hone⟩ := mem_unitsOf (hunits ▸ hu)
  have hok : (p.evaluation w id b).outcome = .ok f := by
    cases ho : (p.evaluation w id b).outcome with
    | ok form =>
      rw [ho] at hf
      exact congrArg _ (Option.some.inj hf)
    | error e =>
      rw [ho] at hf
      cases hf
  exact ⟨hunits.trans hone, rfl, rfl, reports_alone_iff hok hblank⟩

def twoCalls : Workspace :=
  (Workspace.new "Screen1").edited
    [.addProcedure calling "help" [] false, .addProcedureCall calling 1, .addProcedureCall calling 1,
      .graph (.setNext 2 3)]

def callsPlanner : Planner where
  lang := calling
  rules := globalsPlanner.rules

theorem evaluates_block_alone_iff_lastCall :
    ∃ s u e, callsPlanner.plan twoCalls (.doIt 3) = .ok s ∧ s.plan.units = [u] ∧
      (callsPlanner.alone twoCalls 3).outcome = .ok e ∧ u.code = (Yail.report 3 e).render := by
  have hw : twoCalls.Reached := ⟨_, _, rfl⟩
  have hlast : ∀ b ∈ twoCalls.blocks.get? 3, b.active = true ∧ b.bad = false ∧ b.after = none ∧
      unitsOf 3 .doIt (callsPlanner.evaluation twoCalls 3 b).outcome.toOption ≠ [] := by
    decide +kernel
  obtain ⟨b, hb⟩ : ∃ b, twoCalls.blocks.get? 3 = some b := ⟨_, rfl⟩
  obtain ⟨ha, hbad, hafter, hsent⟩ := hlast b hb
  obtain ⟨s, hs, hunits, hone⟩ := evaluates_block_alone_iff hw callsPlanner hb ha hbad
  obtain ⟨u, hu⟩ := List.exists_mem_of_ne_nil _ (hunits ▸ hsent)
  obtain ⟨honly, -, -, hiff⟩ := hone u hu
  obtain ⟨e, he, hcode⟩ := hiff.mpr hafter
  exact ⟨s, u, e, hs, honly, he, hcode⟩

theorem call_below_sent_too : twoCalls.Reached ∧
    ∃ s u e, callsPlanner.plan twoCalls (.doIt 2) = .ok s ∧ s.plan.units = [u] ∧
      (callsPlanner.alone twoCalls 2).outcome = .ok e ∧
      u.code = "(begin (report-block-value \"2\" ((get-var help))) ((get-var help)))" ∧
      u.code ≠ (Yail.report 2 e).render := by
  refine ⟨⟨_, _, rfl⟩, _, _, _, rfl, rfl, rfl, by decide +kernel, by decide +kernel⟩

end Planner

end BlockStudio
