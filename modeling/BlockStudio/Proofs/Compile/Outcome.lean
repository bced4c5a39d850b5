import BlockStudio.Compile.Generate
import Mathlib.Tactic.Lemma

namespace BlockStudio

namespace Problem

variable {p : Problem} {live : Bool}

lemma severity_of_isInternal (h : p.isInternal = true) : p.severity live = .internal := by
  cases p <;> first | rfl | cases h

lemma not_warning_of_isInternal (h : p.isInternal = true) : p.severity live ≠ .warning := by
  rw [severity_of_isInternal h]
  decide

lemma not_warning_of_error (h : p.severity live = .error) : p.severity live ≠ .warning := by
  rw [h]
  decide

end Problem

namespace Gen

variable {α β : Type} {N : Diagnostic → Prop} {F : Fault → Prop} {P : α → Prop} {Q : β → Prop} {x : Gen α}
  {f : α → Gen β} {a : α}

section Run

variable {live : Bool} {e : Fault}

lemma bind_ok (h : x.outcome = .ok a) : x >>= f = { outcome := (f a).outcome, notes := x.notes ++ (f a).notes } := by
  show Gen.bind x f = _
  rw [Gen.bind, h]

lemma bind_error (h : x.outcome = .error e) : x >>= f = { outcome := .error e, notes := x.notes } := by
  show Gen.bind x f = _
  rw [Gen.bind, h]

lemma exists_of_bind_ok {b : β} (h : (x >>= f).outcome = .ok b) : ∃ a, x.outcome = .ok a ∧ (f a).outcome = .ok b := by
  cases hx : x.outcome with
  | ok a =>
    rw [bind_ok hx] at h
    exact ⟨a, rfl, h⟩
  | error e =>
    rw [bind_error hx] at h
    cases h

lemma exists_of_bind_pure_ok {f : α → β} {b : β} (h : (x >>= fun a => pure (f a)).outcome = .ok b) :
    ∃ a, x.outcome = .ok a ∧ f a = b := by
  obtain ⟨a, ha, hb⟩ := exists_of_bind_ok h
  exact ⟨a, ha, Except.ok.inj hb⟩

lemma bind_pure_self (x : Gen α) : (x >>= fun a => pure a) = x := by
  cases hx : x.outcome with
  | ok a =>
    rw [bind_ok hx]
    simp only [pure_def, List.append_nil, ← hx]
  | error e => rw [bind_error hx, ← hx]

instance : LawfulMonad Gen := .mk' Gen bind_pure_self (fun a f => rfl) fun x f g => by
  cases hx : x.outcome with
  | error e => rw [bind_error hx, bind_error hx, bind_error rfl]
  | ok a =>
    rw [bind_ok hx, bind_ok hx]
    cases hf : (f a).outcome with
    | error e => rw [bind_error hf, bind_error rfl]
    | ok b => rw [bind_ok hf, bind_ok rfl, List.append_assoc]

lemma catchInternal_ok {b : α} (h : x.outcome = .ok b) : catchInternal live a x = x := by
  rw [catchInternal, h]

lemma catchInternal_internal (h : x.outcome = .error e) (hi : e.problem.isInternal = true) :
    catchInternal live a x = { outcome := .ok a, notes := x.notes ++ [e.diagnostic live] } := by
  simp only [catchInternal, h, hi, if_true]

lemma catchInternal_error (h : x.outcome = .error e) (hi : e.problem.isInternal = false) :
    catchInternal live a x = x := by
  simp [catchInternal, h, hi]

end Run

structure Sat (N : Diagnostic → Prop) (F : Fault → Prop) (P : α → Prop) (x : Gen α) : Prop where
  note : ∀ d ∈ x.notes, N d
  fault : ∀ e, x.outcome = .error e → F e
  value : ∀ a, x.outcome = .ok a → P a

namespace Sat

lemma pure (h : P a) : (pure a : Gen α).Sat N F P where
  note _ hd := nomatch hd
  fault _ he := nomatch he
  value _ hb := Except.ok.inj hb ▸ h

lemma stop {id : BlockId} {p : Problem} (h : F ⟨id, p⟩) : (Gen.fault id p : Gen α).Sat N F P where
  note _ hd := nomatch hd
  fault _ he := Except.error.inj he ▸ h
  value _ hb := nomatch hb

lemma noted {d : Diagnostic} (h : N d) : (Gen.note d).Sat N F fun _ => True where
  note e he := by
    obtain rfl := List.mem_singleton.mp he
    exact h
  fault _ he := nomatch he
  value _ _ := trivial

lemma bind (h : x.Sat N F P) (hf : ∀ a, P a → (f a).Sat N F Q) : (x >>= f).Sat N F Q := by
  cases hx : x.outcome with
  | error e =>
    rw [bind_error hx]
    exact ⟨h.note, fun _ he => Except.error.inj he ▸ h.fault e hx, fun _ hb => nomatch hb⟩
  | ok a =>
    have hy := hf a (h.value a hx)
    rw [bind_ok hx]
    refine ⟨fun d hd => ?_, hy.fault, hy.value⟩
    rcases List.mem_append.mp hd with hd | hd
    · exact h.note d hd
    · exact hy.note d hd

lemma mono {P' : α → Prop} (h : x.Sat N F P) (hp : ∀ a, P a → P' a) : x.Sat N F P' :=
  ⟨h.note, h.fault, fun a ha => hp a (h.value a ha)⟩

lemma catchInternal {live : Bool} (h : x.Sat N F P) (hn : ∀ e, F e → N (e.diagnostic live)) (ha : P a) :
    (Gen.catchInternal live a x).Sat N F P := by
  cases hx : x.outcome with
  | ok b => rwa [catchInternal_ok hx]
  | error e =>
    cases hi : e.problem.isInternal with
    | false => rwa [catchInternal_error hx hi]
    | true =>
      rw [catchInternal_internal hx hi]
      refine ⟨fun d hd => ?_, fun _ he => (nomatch he), fun _ hb => Except.ok.inj hb ▸ ha⟩
      rcases List.mem_append.mp hd with hd | hd
      · exact h.note d hd
      · exact List.mem_singleton.mp hd ▸ hn e (h.fault e hx)

end Sat

end Gen

lemma Compilation.said_of_mem_unit {c : Compilation} {N : Diagnostic → Prop} {F : Fault → Prop} {P : Form → Prop}
    {root : BlockId} {d : Diagnostic} (h : (c.clumpForm root).Sat N F P) (hn : ∀ e, F e → N (e.diagnostic c.live))
    (hd : d ∈ (c.unit root).2) : N d := by
  rw [unit] at hd
  cases ho : (c.clumpForm root).outcome with
  | ok f =>
    simp only [ho] at hd
    exact h.note d hd
  | error e =>
    simp only [ho] at hd
    rcases List.mem_append.mp hd with hd | hd
    · exact h.note d hd
    · exact List.mem_singleton.mp hd ▸ hn e (h.fault e ho)

end BlockStudio
