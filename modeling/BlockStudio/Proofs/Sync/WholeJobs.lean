import BlockStudio.Proofs.Sync.Turns
import BlockStudio.Proofs.Sync.Workers
import Mathlib.Tactic.Lemma

/-! A delivery that nothing interrupts is that of the controller, and its request counts as written if that succeeds. -/

namespace BlockStudio

namespace Controller

variable {σ : Type} {t : Transport σ} {c : Controller σ} {request : String}

def Flagged (r : Except SyncError Unit × Controller σ) : Prop := r.1.isOk = true → r.2.session.happy = true

lemma flagged_reconnect : Flagged (c.reconnect t request) := by
  rw [reconnect]
  split
  · intro h
    cases h
  · dsimp only
    split
    · intro h
      cases h
    · exact fun _ => rfl

lemma flagged_retry {delays : List ℕ} {r : Except SyncError Unit × Controller σ} (h : Flagged r) :
    Flagged (retry t request delays r).2 := by
  induction delays generalizing r with
  | nil =>
    obtain ⟨e | _, c⟩ := r
    · exact h
    · exact h
  | cons delay delays ih =>
    obtain ⟨e | _, c⟩ := r
    · exact ih flagged_reconnect
    · exact h

lemma isOk_deliverAnew :
    (c.deliverAnew t request).result.isOk = (c.deliverAnew t request).controller.session.happy := by
  rw [deliverAnew]
  split
  · rfl
  · let c' := c.onSession .beginReconnect
    have hretry : Flagged (retry t request c'.config.backoff.delaysMs (c'.reconnect t request)).2 :=
      flagged_retry flagged_reconnect
    dsimp only
    split
    · rename_i he
      rw [he] at hretry
      exact (hretry rfl).symm
    · rfl

lemma isOk_deliver : (c.deliver t request).result.isOk = (c.deliver t request).controller.session.happy := by
  rw [deliver]
  split
  · rename_i c' hnow
    rw [writeNow] at hnow
    split at hnow
    · rename_i hhappy
      obtain rfl := (Prod.mk.inj hnow).2
      exact hhappy.symm
    · cases hnow
  · exact isOk_deliverAnew

end Controller

namespace Threads

variable {σ : Type} {t : Transport σ} {s : Threads σ}

lemma afterFailure_ne_idle (request : String) (delays : List ℕ) : afterFailure request delays ≠ .idle := by
  intro h
  cases delays with
  | nil => cases h
  | cons delay delays => cases h

def Trusting (s : Threads σ) : Prop := ∀ request, s.worker = .writing request → s.shared.session.happy = true

lemma workerStep_eq (hne : s.worker ≠ .idle) :
    s.workerStep t = { s with shared := (s.workerStep t).shared, worker := (s.workerStep t).worker } := by
  cases hworker : s.worker with
  | idle => contradiction
  | trying _ _ | connecting _ _ _ =>
    simp only [workerStep, hworker]
    split
    · rfl
    · rfl
  | _ => simp only [workerStep, hworker]

lemma trusting_workerStep (hne : s.worker ≠ .idle) : (s.workerStep t).Trusting := by
  intro request hwriting
  cases hworker : s.worker with
  | idle => contradiction
  | received _ =>
    simp only [workerStep, hworker] at hwriting ⊢
    split at hwriting
    · assumption
    · cases hwriting
  | writing _ | seeking _ =>
    simp only [workerStep, hworker] at hwriting
    split at hwriting
    · cases hwriting
    · cases hwriting
  | starting _ | givingUp =>
    simp only [workerStep, hworker] at hwriting
    cases hwriting
  | trying _ delays | connecting _ _ delays =>
    simp only [workerStep, hworker] at hwriting
    split at hwriting
    · cases delays with
      | nil => cases hwriting
      | cons delay delays => cases hwriting
    · cases hwriting

lemma writes_of_last (hne : s.worker ≠ .idle) (htrust : s.Trusting) (hidle : (s.workerStep t).worker = .idle) :
    s.worker.writes = (s.workerStep t).shared.session.happy := by
  cases hworker : s.worker with
  | idle => contradiction
  | received _ | seeking _ =>
    simp only [workerStep, hworker] at hidle
    split at hidle
    · cases hidle
    · cases hidle
  | writing request =>
    simp only [workerStep, hworker]
    exact (htrust request hworker).symm
  | starting _ =>
    simp only [workerStep, hworker] at hidle
    cases hidle
  | trying request delays =>
    simp only [workerStep, hworker] at hidle
    split at hidle
    · exact absurd hidle (afterFailure_ne_idle request delays)
    · cases hidle
  | connecting device request delays =>
    simp only [workerStep, hworker] at hidle ⊢
    split at hidle
    · exact absurd hidle (afterFailure_ne_idle request delays)
    · rfl
  | givingUp =>
    simp only [workerStep, hworker]
    rfl

lemma after_idle {c : Controller σ} (n : ℕ) :
    ({ shared := c } : Threads σ).after t (List.replicate n .worker) = { shared := c } := by
  induction n with
  | zero => rfl
  | succ n ih => exact ih

end Threads

namespace Workers

variable {σ : Type} {t : Transport σ} {s : Workers σ} {number : ℕ} {request : String}

def delivery (s : Workers σ) : Threads σ := { shared := s.shared, worker := s.current.phase }

def finished (number : ℕ) (c : Controller σ) (s : Workers σ) : Workers σ :=
  { s with
    shared := c
    current := { queue := s.current.queue.finish }
    written := s.written ++ if c.session.happy then [number] else [] }

lemma step_last (hrunning : s.current.queue.running = some (.delivery number request))
    (hidle : (s.delivery.workerStep t).worker = .idle)
    (hwrites : s.current.phase.writes = (s.delivery.workerStep t).shared.session.happy) :
    s.step t .current = s.finished number (s.delivery.workerStep t).shared := by
  have hturn : s.current.step t s.shared = s.current.deliverStep t s.shared number := by rw [Worker.step, hrunning]
  rw [step, hturn, Worker.deliverStep, finished, ← hwrites]
  simp only [delivery] at hidle ⊢
  rw [if_pos hidle]
  split
  · rfl
  · rfl

lemma step_delivering (hrunning : s.current.queue.running = some (.delivery number request))
    (hidle : (s.delivery.workerStep t).worker ≠ .idle) :
    s.step t .current =
      { s with
        shared := (s.delivery.workerStep t).shared
        current := { s.current with phase := (s.delivery.workerStep t).worker } } := by
  have hturn : s.current.step t s.shared = s.current.deliverStep t s.shared number := by rw [Worker.step, hrunning]
  rw [step, hturn, Worker.deliverStep]
  simp only [delivery] at hidle ⊢
  rw [if_neg hidle]
  simp

lemma works_finished (hrunning : s.current.queue.running = some (.delivery number request))
    (hne : s.current.phase ≠ .idle) (htrust : s.delivery.Trusting) {n : ℕ} {c : Controller σ}
    (h : s.delivery.after t (List.replicate n .worker) = { shared := c }) :
    ∃ k, s.after t (List.replicate k .current) = s.finished number c := by
  induction n generalizing s with
  | zero => exact absurd (congrArg Threads.worker h) hne
  | succ n ih =>
    -- the worker is never idle before the end, and trusts its connection whenever it writes
    have hrest : (s.delivery.workerStep t).after t (List.replicate n .worker) = { shared := c } := h
    have hframe : s.delivery.workerStep t =
        { shared := (s.delivery.workerStep t).shared, worker := (s.delivery.workerStep t).worker } :=
      Threads.workerStep_eq hne
    by_cases hidle : (s.delivery.workerStep t).worker = .idle
    · -- what is left of the run does nothing
      rw [hidle] at hframe
      rw [hframe, Threads.after_idle] at hrest
      have hlast := step_last hrunning hidle (Threads.writes_of_last hne htrust hidle)
      exact ⟨1, hlast.trans (congrArg (s.finished number) (congrArg Threads.shared hrest))⟩
    · have hstep := step_delivering hrunning hidle
      have hdelivery : (s.step t .current).delivery = s.delivery.workerStep t := by
        rw [hstep]
        exact hframe.symm
      obtain ⟨k, hk⟩ := ih (s := s.step t .current) (hstep ▸ hrunning) (hstep ▸ hidle)
        (hdelivery ▸ Threads.trusting_workerStep hne) (hdelivery ▸ hrest)
      refine ⟨k + 1, hk.trans ?_⟩
      rw [hstep]
      rfl

theorem after_whole_job (hrunning : s.current.queue.running = some (.delivery number request))
    (hphase : s.current.phase = .received request)
    (hw : (s.shared.writeNow t request).1 = false → s.shared.link.writer = none) :
    ∃ k, s.after t (List.replicate k .current) =
      { s with
        shared := (s.shared.deliver t request).controller
        current := { queue := s.current.queue.finish }
        written := s.written ++ if (s.shared.deliver t request).result.isOk then [number] else [] } := by
  obtain ⟨n, hn⟩ :=
    Threads.after_whole_delivery (t := t) (s := { shared := s.shared, queued := [request] }) rfl rfl hw
  cases n with
  | zero => exact absurd (congrArg Threads.queued hn) (List.cons_ne_nil _ _)
  | succ n =>
    have hdelivery : s.delivery = { shared := s.shared, worker := .received request } := by rw [delivery, hphase]
    rw [Controller.isOk_deliver]
    refine works_finished (n := n) hrunning (by rw [hphase]; exact WorkerPhase.noConfusion) ?_ (hdelivery ▸ hn)
    rw [hdelivery]
    intro _ h
    cases h

end Workers

end BlockStudio
