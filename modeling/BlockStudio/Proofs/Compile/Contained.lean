import BlockStudio.Proofs.Compile.Blocks
import BlockStudio.Proofs.Compile.Modes
import BlockStudio.Proofs.Workspace.Reached

/-! Which faults of the language or the graph get past the block at which they are found. -/

namespace BlockStudio

lemma Problem.isInternal_of_severity {p : Problem} {live : Bool} (h : p.severity live = .internal) :
    p.isInternal = true := by
  cases p <;> cases live <;> first | rfl | cases h

namespace Compilation

open Gen

variable {c : Compilation} {gen : Scope → BlockId → Gen Form} {genus : Genus} {b : Block} {scope : Scope} {x : BlockId}
  {e : Fault} {pre post l : List BlockId} {n : ℕ}

def Unheard (c : Compilation) (x : BlockId) : Prop :=
  ∃ b genus, c.block? x = some b ∧ c.lang.genus? b.genus = some genus ∧ genus.kind = .componentEvent ∧
    b.bad = false ∧ b.active = false ∧ eventParams? c.lang c.workspace b = none

def Faulty {α : Type} (x : Gen α) : Prop := ∃ e, x.outcome = .error e ∧ e.problem.isInternal = true

structure Clean {α : Type} (x : Gen α) : Prop where
  done : ∃ a, x.outcome = .ok a
  notes : ∀ d ∈ x.notes, d.severity ≠ .error ∧ d.problem.isHole = false

lemma handler_of_params {params : List String} (h : eventParams? c.lang c.workspace b = some params) :
    ∃ f, c.handler gen b none = pure f := by
  obtain ⟨m, hm, -⟩ := Option.bind_eq_some_iff.mp h
  rw [handler, memberOf, hm]
  simp only [h]
  exact ⟨_, rfl⟩

lemma handler_of_none (h : eventParams? c.lang c.workspace b = none) (s : Option Scope) :
    ∃ p, p.isInternal = true ∧ c.handler gen b s = Gen.fault b.id p := by
  rw [handler, memberOf]
  cases hm : b.member? with
  | none => exact ⟨.malformedLabel b.label, rfl, rfl⟩
  | some m =>
    simp only [h]
    exact ⟨.unknownEvent b.label, rfl, rfl⟩

lemma not_faulty_pure {α : Type} (a : α) : ¬ Faulty (pure a : Gen α) := by
  rintro ⟨e, he, -⟩
  cases he

lemma not_faulty_catchInternal {α : Type} {live : Bool} {a : α} (y : Gen α) : ¬ Faulty (catchInternal live a y) := by
  rintro ⟨e, he, hi⟩
  cases hy : y.outcome with
  | ok b =>
    rw [catchInternal_ok hy, hy] at he
    cases he
  | error e' =>
    cases hi' : e'.problem.isInternal with
    | true =>
      rw [catchInternal_internal hy hi'] at he
      cases he
    | false =>
      rw [catchInternal_error hy hi', hy] at he
      cases he
      rw [hi] at hi'
      cases hi'

lemma bind_pure_eq_error_iff {α β : Type} {y : Gen α} {f : α → β} :
    (y >>= fun a => pure (f a)).outcome = .error e ↔ y.outcome = .error e := by
  cases hy : y.outcome with
  | ok a =>
    rw [bind_ok hy]
    exact iff_of_false nofun nofun
  | error e' =>
    rw [bind_error hy]
    exact ⟨fun h => congrArg _ (Except.error.inj h), fun h => congrArg _ (Except.error.inj h)⟩

lemma notes_bind_pure {α β : Type} (y : Gen α) (f : α → β) : (y >>= fun a => pure (f a)).notes = y.notes := by
  cases hy : y.outcome with
  | ok a =>
    rw [bind_ok hy]
    exact List.append_nil _
  | error e => rw [bind_error hy]

lemma faulty_bind_pure_iff {α β : Type} {y : Gen α} {f : α → β} : Faulty (y >>= fun a => pure (f a)) ↔ Faulty y :=
  exists_congr fun _ => and_congr_left' bind_pure_eq_error_iff

lemma not_faulty_note (id : BlockId) (p : Problem) (f : Form) : ¬ Faulty (c.note id p >>= fun _ => pure f) := by
  rintro ⟨e, he, -⟩
  cases he

lemma unheard_of_faulty (h : Faulty (c.genusForm gen genus b scope)) :
    genus.kind = .componentEvent ∧ b.bad = false ∧ b.active = false ∧ eventParams? c.lang c.workspace b = none := by
  rw [genusForm] at h
  split at h
  · exact (not_faulty_note b.id _ _ h).elim
  split at h
  · split at h
    · refine ⟨‹_›, by simpa using ‹¬ b.bad = true›, by simpa using ‹(!b.active) = true›, ?_⟩
      cases hp : eventParams? c.lang c.workspace b with
      | none => rfl
      | some params =>
        obtain ⟨f, hf⟩ : ∃ f, c.handler gen b none = pure f := handler_of_params hp
        exact (not_faulty_pure f (hf ▸ h)).elim
    · exact (not_faulty_pure _ h).elim
  · exact (not_faulty_catchInternal _ (faulty_bind_pure_iff.mp h)).elim

lemma blockForm_of_unheard (h : c.Unheard x) (n : ℕ) (scope : Scope) :
    ∃ b p, c.block? x = some b ∧ p.isInternal = true ∧ c.blockForm (n + 1) scope x = Gen.fault b.id p := by
  obtain ⟨b, genus, hb, hg, hk, hbad, hactive, hp⟩ := h
  obtain ⟨p, hi, hf⟩ : ∃ p, p.isInternal = true ∧ c.handler (c.blockForm n) b none = Gen.fault b.id p :=
    handler_of_none hp none
  refine ⟨b, p, hb, hi, ?_⟩
  simp only [blockForm, hb, hg]
  simpa [genusForm, hbad, hactive, hk] using hf

lemma faulty_blockForm_iff : Faulty (c.blockForm (n + 1) scope x) ↔ c.Unheard x := by
  constructor
  · rw [blockForm]
    intro h
    cases hb : c.block? x with
    | none =>
      simp only [hb] at h
      exact (not_faulty_note x _ _ h).elim
    | some b =>
      cases hg : c.lang.genus? b.genus with
      | none =>
        simp only [hb, hg] at h
        exact (not_faulty_note x _ _ h).elim
      | some genus =>
        simp only [hb, hg] at h
        exact ⟨b, genus, hb, hg, unheard_of_faulty h⟩
  · intro h
    obtain ⟨b, p, -, hi, hf⟩ := blockForm_of_unheard h n scope
    exact hf ▸ ⟨_, rfl, hi⟩

lemma stackForms_eq_error_iff : (stackForms gen scope l).outcome = .error e ↔
    ∃ pre x post, l = pre ++ x :: post ∧ (gen scope x).outcome = .error e ∧
      ∀ y ∈ pre, ∃ f, (gen scope y).outcome = .ok f := by
  induction l with
  | nil =>
    constructor
    · intro h
      cases h
    · rintro ⟨pre, x, post, hl, -⟩
      simp at hl
  | cons y l ih =>
    rw [stackForms]
    cases hy : (gen scope y).outcome with
    | error e' =>
      rw [bind_error hy]
      constructor
      · exact fun he => ⟨[], y, l, rfl, hy.trans (congrArg _ (Except.error.inj he)), List.forall_mem_nil _⟩
      · rintro ⟨pre, x, post, hl, hx, hpre⟩
        cases pre with
        | nil =>
          obtain ⟨rfl, -⟩ := List.cons_eq_cons.mp hl
          exact congrArg _ (Except.error.inj (hy.symm.trans hx))
        | cons z pre =>
          obtain ⟨rfl, -⟩ := List.cons_eq_cons.mp hl
          obtain ⟨f, hf⟩ := hpre y List.mem_cons_self
          cases hy.symm.trans hf
    | ok form =>
      rw [bind_ok hy]
      refine bind_pure_eq_error_iff.trans (ih.trans ?_)
      constructor
      · rintro ⟨pre, x, post, rfl, hx, hpre⟩
        exact ⟨y :: pre, x, post, rfl, hx, List.forall_mem_cons.mpr ⟨⟨form, hy⟩, hpre⟩⟩
      · rintro ⟨pre, x, post, hl, hx, hpre⟩
        cases pre with
        | nil =>
          obtain ⟨rfl, -⟩ := List.cons_eq_cons.mp hl
          cases hy.symm.trans hx
        | cons z pre =>
          obtain ⟨rfl, rfl⟩ := List.cons_eq_cons.mp hl
          exact ⟨pre, x, post, rfl, hx, fun w hw => hpre w (List.mem_cons_of_mem y hw)⟩

lemma notes_stackForms (hp : ∀ y ∈ pre, ∃ f, (gen scope y).outcome = .ok f) (hx : (gen scope x).outcome = .error e) :
    (stackForms gen scope (pre ++ x :: post)).notes =
      pre.flatMap (fun y => (gen scope y).notes) ++ (gen scope x).notes := by
  induction pre with
  | nil =>
    rw [List.nil_append, stackForms, bind_error hx]
    rfl
  | cons y pre ih =>
    obtain ⟨f, hf⟩ := hp y List.mem_cons_self
    rw [List.cons_append, stackForms, bind_ok hf, List.flatMap_cons, List.append_assoc,
      ← ih fun z hz => hp z (List.mem_cons_of_mem y hz)]
    exact congrArg _ (notes_bind_pure _ _)

lemma faulty_stackForms_iff : Faulty (stackForms (c.blockForm (n + 1)) scope l) ↔
    ∃ pre x post, l = pre ++ x :: post ∧ c.Unheard x ∧
      ∀ y ∈ pre, ∃ f, (c.blockForm (n + 1) scope y).outcome = .ok f := by
  constructor
  · rintro ⟨e, he, hi⟩
    obtain ⟨pre, x, post, hl, hx, hpre⟩ := stackForms_eq_error_iff.mp he
    exact ⟨pre, x, post, hl, faulty_blockForm_iff.mp ⟨e, hx, hi⟩, hpre⟩
  · rintro ⟨pre, x, post, hl, hx, hpre⟩
    obtain ⟨e, he, hi⟩ := faulty_blockForm_iff.mpr hx
    exact ⟨e, stackForms_eq_error_iff.mpr ⟨pre, x, post, hl, he, hpre⟩, hi⟩

lemma exists_clumpForm (c : Compilation) (r : BlockId) :
    (∃ f : List Form → Form,
      c.clumpForm r = stackForms c.code [] (c.workspace.blocks.stack r) >>= fun fs => pure (f fs)) ∨
      c.workspace.blocks.stack r = [r] ∧ c.clumpForm r = c.code [] r := by
  rw [clumpForm]
  split
  · rename_i first second rest he
    exact .inl ⟨Yail.begin, by rw [he]⟩
  · rename_i hne
    have hself := BlockGraph.mem_stack_self c.workspace.blocks r
    cases hs : c.workspace.blocks.stack r with
    | nil => simp [hs] at hself
    | cons first rest =>
      cases rest with
      | nil => exact .inr ⟨by simp_all, rfl⟩
      | cons second rest => exact (hne first second rest hs).elim

lemma clumpForm_eq_error_iff {r : BlockId} : (c.clumpForm r).outcome = .error e ↔
    (stackForms c.code [] (c.workspace.blocks.stack r)).outcome = .error e := by
  obtain ⟨f, hf⟩ | ⟨hs, hf⟩ := exists_clumpForm c r
  · rw [hf, bind_pure_eq_error_iff]
  · rw [hf, hs]
    exact bind_pure_eq_error_iff.symm

lemma notes_clumpForm (r : BlockId) :
    (c.clumpForm r).notes = (stackForms c.code [] (c.workspace.blocks.stack r)).notes := by
  obtain ⟨f, hf⟩ | ⟨hs, hf⟩ := exists_clumpForm c r
  · rw [hf, notes_bind_pure]
  · rw [hf, hs]
    exact (notes_bind_pure _ _).symm

lemma tracked_told (c : Compilation) :
    c.Tracked (fun _ => True) (fun e => e.problem.isHole = true ∨ e.problem.severity c.live ≠ .warning)
      fun _ => True where
  below _ _ _ _ _ _ _ _ := trivial
  met _ _ _ := trivial
  note _ _ _ _ _ := trivial
  fault _ _ _ _ _ hp := .inr hp
  nameless _ _ _ _ _ _ _ _ := .inl rfl
  said _ _ := trivial

lemma clumpForm_fault {r : BlockId} (h : (c.clumpForm r).outcome = .error e) :
    e.problem.isHole = true ∨ e.problem.severity c.live ≠ .warning := by
  have hsat : (c.clumpForm r).Sat _ _ _ := (tracked_told c).clumpForm fun _ _ => trivial
  exact hsat.fault e h

lemma isInternal_of_clean (h : (c.clumpForm x).outcome = .error e) (hs : e.problem.severity c.live ≠ .error)
    (hh : e.problem.isHole = false) : e.problem.isInternal = true := by
  obtain hole | hw := clumpForm_fault h
  · rw [hh] at hole
    cases hole
  · refine Problem.isInternal_of_severity (?_ : e.problem.severity c.live = .internal)
    cases hsev : e.problem.severity c.live with
    | warning => exact (hw hsev).elim
    | error => exact (hs hsev).elim
    | internal => rfl

lemma unit_of_error {r : BlockId} (h : (c.clumpForm r).outcome = .error e) :
    c.unit r = (none, (c.clumpForm r).notes ++ [e.diagnostic c.live]) := by
  rw [Compilation.unit]
  simp only [h]

lemma exists_error_of_unit {r : BlockId} (h : (c.unit r).1 = none) : ∃ e, (c.clumpForm r).outcome = .error e := by
  rw [Compilation.unit] at h
  cases ho : (c.clumpForm r).outcome with
  | ok f => simp [ho] at h
  | error e => exact ⟨e, rfl⟩

lemma unit_silently_none_iff (c : Compilation) (r : BlockId) :
    ((c.unit r).1 = none ∧ ∀ d ∈ (c.unit r).2, d.severity ≠ .error ∧ d.problem.isHole = false) ↔
      ∃ pre x post, c.workspace.blocks.stack r = pre ++ x :: post ∧ c.Unheard x ∧ ∀ y ∈ pre, Clean (c.code [] y) := by
  constructor
  · rintro ⟨hnone, hclean⟩
    obtain ⟨e, he⟩ := exists_error_of_unit hnone
    rw [unit_of_error he] at hclean
    obtain ⟨hs, hh⟩ := hclean (e.diagnostic c.live) (by simp)
    obtain ⟨pre, x, post, hstack, hx, hpre⟩ := stackForms_eq_error_iff.mp (clumpForm_eq_error_iff.mp he)
    have hunheard := faulty_blockForm_iff.mp ⟨e, hx, isInternal_of_clean he hs hh⟩
    refine ⟨pre, x, post, hstack, hunheard, fun y hy => ⟨hpre y hy, fun d hd => ?_⟩⟩
    refine hclean d (List.mem_append_left _ ?_)
    rw [notes_clumpForm, hstack, notes_stackForms hpre hx]
    exact List.mem_append_left _ (List.mem_flatMap.mpr ⟨y, hy, hd⟩)
  · rintro ⟨pre, x, post, hstack, hx, hpre⟩
    obtain ⟨b, p, -, hi, hf⟩ := blockForm_of_unheard hx c.workspace.blocks.size []
    have hcode : c.code [] x = Gen.fault b.id p := hf
    have hdone : ∀ y ∈ pre, ∃ f, (c.code [] y).outcome = .ok f := fun y hy => (hpre y hy).done
    have he : (c.code [] x).outcome = .error ⟨b.id, p⟩ := by rw [hcode]; rfl
    have hclump := clumpForm_eq_error_iff.mpr (stackForms_eq_error_iff.mpr ⟨pre, x, post, hstack, he, hdone⟩)
    rw [unit_of_error hclump, notes_clumpForm, hstack, notes_stackForms hdone he]
    refine ⟨rfl, fun d hd => ?_⟩
    rcases List.mem_append.mp hd with hd | hd
    · rcases List.mem_append.mp hd with hd | hd
      · obtain ⟨y, hy, hd⟩ := List.mem_flatMap.mp hd
        exact (hpre y hy).notes d hd
      · rw [hcode] at hd
        cases hd
    · obtain rfl := List.mem_singleton.mp hd
      refine ⟨?_, Problem.isHole_of_isInternal hi⟩
      rw [Fault.diagnostic, Problem.severity_of_isInternal hi]
      intro h
      cases h

def HoldsUnheard (c : Compilation) (b : Block) (id : BlockId) : Prop :=
  ∃ first ∈ b.children, ∃ y ∈ c.workspace.blocks.stack first, c.Unheard y ∧ ∃ d, c.block? y = some d ∧ d.id = id

lemma block_of_faulty (he : (c.blockForm n scope x).outcome = .error e) (hi : e.problem.isInternal = true) :
    c.Unheard x ∧ ∃ d, c.block? x = some d ∧ d.id = e.block := by
  cases n with
  | zero => cases he
  | succ n =>
    have hx := faulty_blockForm_iff.mp ⟨e, he, hi⟩
    obtain ⟨d, p, hd, -, hf⟩ := blockForm_of_unheard hx n scope
    rw [hf] at he
    obtain rfl := Except.error.inj he
    exact ⟨hx, d, hd, rfl⟩

lemma blockForm_of_caught (hb : c.block? x = some b) (hg : c.lang.genus? b.genus = some genus) (hbad : b.bad = false)
    (hactive : b.active = true) (he : (c.kindForm (c.blockForm n) genus b scope).outcome = .error e)
    (hi : e.problem.isInternal = true) : c.blockForm (n + 1) scope x =
      { outcome := .ok .blank
        notes := (c.kindForm (c.blockForm n) genus b scope).notes ++ [e.diagnostic c.live] } := by
  simp only [blockForm, hb, hg]
  rw [genusForm, if_neg (by simp [hbad]), if_neg (by simp [hactive]), catchInternal_internal he hi, bind_ok rfl]
  have hblank : reported b .blank = .blank := by
    have hb : Form.blank.isBlank = true := by decide
    simp [reported, hb]
  rw [hblank]
  simp [pure_def]

lemma block_of_kindForm (hb : c.block? x = some b) (hg : c.lang.genus? b.genus = some genus)
    (he : (c.kindForm (c.blockForm n) genus b scope).outcome = .error e) (hi : e.problem.isInternal = true) :
    e.block = b.id ∨ c.HoldsUnheard b e.block := by
  have haround : c.Around (fun _ => True)
      (fun e => e.problem.isInternal = true → e.block = b.id ∨ c.HoldsUnheard b e.block)
      (c.blockForm n) genus b :=
    { mem := BlockGraph.mem_list.mpr ⟨x, hb⟩
      genus_eq := hg
      gen := fun first hfirst y hy scope =>
        { note := fun _ _ => trivial
          fault := fun e he hi => .inr ⟨first, hfirst, y, hy, block_of_faulty he hi⟩
          value := ((tracked_told c).blockForm n scope trivial).value }
      note := fun _ => trivial
      fault := fun _ _ _ => .inl rfl
      nameless := fun _ _ _ => .inl rfl
      said := fun _ _ => trivial }
  exact (haround.kindForm scope).fault e he hi

theorem internal_fault_stops_unit_iff (c : Compilation) :
    (∀ n scope x, Faulty (c.blockForm (n + 1) scope x) ↔ c.Unheard x) ∧
    (∀ n scope l, Faulty (stackForms (c.blockForm (n + 1)) scope l) ↔
      ∃ pre x post, l = pre ++ x :: post ∧ c.Unheard x ∧
        ∀ y ∈ pre, ∃ f, (c.blockForm (n + 1) scope y).outcome = .ok f) ∧
    (∀ root, ((c.unit root).1 = none ∧ ∀ d ∈ (c.unit root).2, d.severity ≠ .error ∧ d.problem.isHole = false) ↔
      ∃ pre x post, c.workspace.blocks.stack root = pre ++ x :: post ∧ c.Unheard x ∧
        ∀ y ∈ pre, Clean (c.code [] y)) ∧
    ∀ n scope x b genus e, c.block? x = some b → c.lang.genus? b.genus = some genus → b.bad = false → b.active = true →
      (c.kindForm (c.blockForm n) genus b scope).outcome = .error e → e.problem.isInternal = true →
      (c.blockForm (n + 1) scope x).outcome = .ok .blank ∧
        e.diagnostic c.live ∈ (c.blockForm (n + 1) scope x).notes ∧
        (e.block = b.id ∨ c.HoldsUnheard b e.block) := by
  refine ⟨fun _ _ _ => faulty_blockForm_iff, fun _ _ _ => faulty_stackForms_iff, c.unit_silently_none_iff, ?_⟩
  intro n scope x b genus e hb hg hbad hactive he hi
  rw [blockForm_of_caught hb hg hbad hactive he hi]
  exact ⟨rfl, List.mem_append_right _ List.mem_cons_self, block_of_kindForm hb hg he hi⟩

def clicks : Language :=
  ({} : Language).addGenus { name := "component_event", kind := .componentEvent, initialLabel := "Click" }

def unheardClick : Compilation where
  lang := clicks
  rules :=
    { knownTypes := .empty, kinds := [], genera := [], propertyTypes := [], methodParams := [], methodReturns := [] }
  workspace := (Workspace.new "Screen1").edited [.addBlock clicks "component_event" "", .graph (.setActive 1 false)]
  live := true

theorem unheardClick_stops_unit :
    ¬ ∀ (c : Compilation) (root : BlockId), c.workspace.Reached → (c.unit root).1 = none →
      ∃ d ∈ (c.unit root).2, d.severity = .error ∨ d.problem.isHole = true := by
  intro h
  have hw : unheardClick.workspace.Reached := ⟨_, _, rfl⟩
  obtain ⟨d, hd, hs⟩ := h unheardClick 1 hw (by decide)
  have hinternal : ∀ d ∈ (unheardClick.unit 1).2, ¬ (d.severity = .error ∨ d.problem.isHole = true) := by decide
  exact hinternal d hd hs

end Compilation

end BlockStudio
