import BlockStudio.Proofs.Compile.Lockstep

namespace BlockStudio

namespace Problem

def isHole : Problem → Bool
  | emptySocket _ => true
  | _ => false

lemma severity_of_isHole {p : Problem} (h : p.isHole = false) (live live' : Bool) :
    p.severity live = p.severity live' := by
  cases p <;> first | rfl | cases h

lemma isHole_of_isInternal {p : Problem} (h : p.isInternal = true) : p.isHole = false := by
  cases p <;> first | rfl | cases h

end Problem

def Diagnostic.warnsOfHole (d : Diagnostic) : Bool := d.severity = .warning && d.problem.isHole

namespace Fault

lemma diagnostic_of_isHole {e : Fault} (h : e.problem.isHole = false) (live live' : Bool) :
    e.diagnostic live = e.diagnostic live' := by
  rw [diagnostic, diagnostic, Problem.severity_of_isHole h live live']

lemma not_warnsOfHole {e : Fault} (h : e.problem.isHole = false) (live : Bool) :
    (e.diagnostic live).warnsOfHole = false := by
  simp [Diagnostic.warnsOfHole, diagnostic, h]

end Fault

namespace Gen

variable {α β : Type} {x y : Gen α} {f g : α → Gen β} {e : Fault} {l m : List Diagnostic}

def withoutHoles (l : List Diagnostic) : List Diagnostic := l.filter fun d => !d.warnsOfHole

lemma withoutHoles_append : withoutHoles (l ++ m) = withoutHoles l ++ withoutHoles m := List.filter_append l m

lemma withoutHoles_fault (h : e.problem.isHole = false) (live live' : Bool) :
    withoutHoles [e.diagnostic live] = [e.diagnostic live'] := by
  rw [withoutHoles, List.filter_singleton, Fault.not_warnsOfHole h, Fault.diagnostic_of_isHole h live live']
  rfl

structure Refines (x y : Gen α) : Prop where
  value : ∀ a, x.outcome = .ok a → y.outcome = .ok a ∧ x.notes = withoutHoles y.notes
  fault : ∀ e, x.outcome = .error e → y.outcome = .error e ∧ x.notes = withoutHoles y.notes ∨
    e.problem.isHole = true ∧ ∃ d ∈ y.notes, d.warnsOfHole = true

lemma mem_notes_catchInternal {live : Bool} {a : α} {d : Diagnostic} (hd : d ∈ x.notes) :
    d ∈ (catchInternal live a x).notes := by
  cases hx : x.outcome with
  | ok b => rwa [catchInternal_ok hx]
  | error e =>
    cases hi : e.problem.isInternal with
    | true =>
      rw [catchInternal_internal hx hi]
      exact List.mem_append_left _ hd
    | false => rwa [catchInternal_error hx hi]

namespace Refines

lemma pure (a : α) : (pure a : Gen α).Refines (pure a) where
  value _ ha := ⟨ha, rfl⟩
  fault _ he := nomatch he

lemma stop (id : BlockId) (p : Problem) : (Gen.fault id p : Gen α).Refines (Gen.fault id p) where
  value _ ha := nomatch ha
  fault _ he := .inl ⟨he, rfl⟩

lemma bind (h : x.Refines y) (hf : ∀ a, x.outcome = .ok a → (f a).Refines (g a)) : (x >>= f).Refines (y >>= g) := by
  cases hx : x.outcome with
  | ok a =>
    obtain ⟨hy, hnotes⟩ := h.value a hx
    have ha := hf a hx
    rw [bind_ok hx, bind_ok hy]
    constructor
    · intro b hb
      obtain ⟨hb', hrest⟩ := ha.value b hb
      exact ⟨hb', by rw [withoutHoles_append, hnotes, hrest]⟩
    · intro e he
      rcases ha.fault e he with ⟨he', hrest⟩ | ⟨hhole, d, hd, hw⟩
      · exact .inl ⟨he', by rw [withoutHoles_append, hnotes, hrest]⟩
      · exact .inr ⟨hhole, d, List.mem_append_right _ hd, hw⟩
  | error e =>
    rw [bind_error hx]
    refine ⟨fun _ hb => (nomatch hb), fun e' he' => ?_⟩
    obtain rfl := Except.error.inj he'
    rcases h.fault e hx with ⟨hy, hnotes⟩ | ⟨hhole, d, hd, hw⟩
    · rw [bind_error hy]
      exact .inl ⟨rfl, hnotes⟩
    · refine .inr ⟨hhole, d, ?_, hw⟩
      -- What was warned of stays, however the other run goes on.
      cases hy : y.outcome with
      | ok a =>
        rw [bind_ok hy]
        exact List.mem_append_left _ hd
      | error _ => rwa [bind_error hy]

lemma hole (id : BlockId) (label : String) (optional : Bool) :
    (Gen.hole true id label optional).Refines (Gen.hole false id label optional) := by
  cases optional with
  | true => exact ⟨fun _ ha => ⟨ha, rfl⟩, fun _ he => nomatch he⟩
  | false =>
    refine ⟨fun _ ha => (nomatch ha), fun e he => .inr ?_⟩
    obtain rfl := Except.error.inj he
    exact ⟨rfl, _, List.mem_cons_self, rfl⟩

lemma noted {id : BlockId} {p : Problem} (h : p.isHole = false) :
    (note (Fault.diagnostic true ⟨id, p⟩)).Refines (note (Fault.diagnostic false ⟨id, p⟩)) where
  value _ ha := ⟨ha, (withoutHoles_fault h false true).symm⟩
  fault _ he := nomatch he

lemma catchInternal (h : x.Refines y) (a : α) :
    (Gen.catchInternal true a x).Refines (Gen.catchInternal false a y) := by
  cases hx : x.outcome with
  | ok b =>
    obtain ⟨hy, -⟩ := h.value b hx
    rwa [catchInternal_ok hx, catchInternal_ok hy]
  | error e =>
    cases hi : e.problem.isInternal with
    | true =>
      have hhole := Problem.isHole_of_isInternal hi
      rcases h.fault e hx with ⟨hy, hnotes⟩ | ⟨hstopped, -⟩
      · rw [catchInternal_internal hx hi, catchInternal_internal hy hi]
        refine ⟨fun b hb => ⟨hb, ?_⟩, fun _ he => nomatch he⟩
        rw [withoutHoles_append, hnotes, withoutHoles_fault hhole false true]
      · rw [hhole] at hstopped
        cases hstopped
    | false =>
      rw [catchInternal_error hx hi]
      refine ⟨fun _ hb => (nomatch hx.symm.trans hb), fun e' he' => ?_⟩
      obtain rfl := Except.error.inj (hx.symm.trans he')
      rcases h.fault e hx with ⟨hy, hnotes⟩ | ⟨hhole, d, hd, hw⟩
      · rw [catchInternal_error hy hi]
        exact .inl ⟨hy, hnotes⟩
      · exact .inr ⟨hhole, d, mem_notes_catchInternal hd, hw⟩

end Refines

def refinement : Lockstep true false where
  rel := Refines
  pure := .pure
  bind := .bind
  fault id p _ := .stop id p
  note _ _ hp _ := .noted (hp.elim (fun h => h ▸ rfl) Problem.isHole_of_isInternal)
  hole := .hole
  catchInternal a h := h.catchInternal a

end Gen

namespace Compilation

open Gen

variable (c : Compilation)

lemma blockForm_refines (n : ℕ) (scope : Scope) (id : BlockId) :
    ((c.inMode true).blockForm n scope id).Refines ((c.inMode false).blockForm n scope id) := by
  refine blockForm_rel (c := c.inMode true) (K := refinement) (fun _ _ => True) (fun _ _ _ _ => .noted rfl) ?_ trivial
  exact fun n scope id b genus _ _ _ ih =>
    ⟨fun label s x _ _ y _ => ih _ y trivial, fun _ _ _ _ => .stop _ _, fun _ _ => .stop _ _⟩

lemma clumpForm_refines (root : BlockId) : ((c.inMode true).clumpForm root).Refines ((c.inMode false).clumpForm root) :=
  clumpForm_rel (c := c.inMode true) (K := refinement) fun y _ => c.blockForm_refines _ [] y

theorem live_unit_refines (root : BlockId) :
    (∀ f, ((c.inMode true).unit root).1 = some f → ((c.inMode false).unit root).1 = some f ∧
      ((c.inMode true).unit root).2 = ((c.inMode false).unit root).2.filter fun d => !d.warnsOfHole) ∧
    (((c.inMode true).unit root).1 = none → ((c.inMode false).unit root).1 = none ∨
      ∃ d ∈ ((c.inMode false).unit root).2, d.warnsOfHole = true) := by
  have h := c.clumpForm_refines root
  rw [unit, unit]
  cases hx : ((c.inMode true).clumpForm root).outcome with
  | ok form =>
    obtain ⟨hy, hnotes⟩ := h.value form hx
    simp only [hy]
    exact ⟨fun f hf => ⟨hf, hnotes⟩, fun hn => by cases hn⟩
  | error e =>
    refine ⟨fun f hf => (by cases hf), fun _ => ?_⟩
    rcases h.fault e hx with ⟨hy, -⟩ | ⟨-, d, hd, hw⟩
    · simp only [hy, true_or]
    · refine .inr ⟨d, ?_, hw⟩
      cases ((c.inMode false).clumpForm root).outcome with
      | ok _ => exact hd
      | error _ => exact List.mem_append_left _ hd

end Compilation

end BlockStudio
