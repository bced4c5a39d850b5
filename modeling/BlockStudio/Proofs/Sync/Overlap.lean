import BlockStudio.Proofs.Sync.Workers
import BlockStudio.Device.Simulated
import Mathlib.Tactic.Lemma

/-! Deliveries do not overlap, and requests arrive in the order in which they were sent, as long as restarts wait. -/

namespace BlockStudio

namespace Worker

variable {σ : Type} {t : Transport σ} {shared : Controller σ} {w : Worker} {job : Job} {number : ℕ}

lemma jobs_of_running (h : w.queue.running = some job) :
    w.jobs = job :: ({ queue := w.queue.finish } : Worker).jobs := by
  rw [jobs, h]
  rfl

lemma jobs_receive : ({ w with queue := w.queue.receive.getD w.queue } : Worker).jobs = w.jobs := by
  rw [TaskQueue.receive]
  split
  · rename_i hrunning hreceived hwaiting
    simp [jobs, hrunning, hreceived, hwaiting]
  · rfl

lemma jobs_check (hrunning : w.queue.running = none) (phase : WorkerPhase) :
    ({ queue := w.queue.check, phase } : Worker).jobs.Sublist w.jobs := by
  rw [jobs, jobs, TaskQueue.check, hrunning]
  split
  · simp
  · simp

def push (job : Job) (w : Worker) : Worker :=
  { w with queue := { w.queue with waiting := w.queue.waiting ++ [job] } }

lemma numbers_push : (w.push job).numbers = w.numbers ++ job.number?.toList := by
  have hjobs : (w.push job).jobs = w.jobs ++ [job] := by simp [push, jobs]
  rw [numbers, hjobs, List.filterMap_append]
  cases job with
  | delivery number request => rfl
  | call c => rfl

lemma running_receive (hrunning : w.queue.running = none) : (w.queue.receive.getD w.queue).running = none := by
  rw [TaskQueue.receive]
  split
  · exact hrunning
  · exact hrunning

lemma numbers_deliverStep {request : String} (h : w.queue.running = some (.delivery number request)) :
    ((w.deliverStep t shared number).wrote.toList ++ (w.deliverStep t shared number).worker.numbers).Sublist
      w.numbers := by
  have hnumbers : w.numbers = number :: ({ queue := w.queue.finish } : Worker).numbers := by
    rw [numbers, jobs_of_running h]
    exact List.filterMap_cons_some rfl
  rw [deliverStep]
  split
  · split
    · exact hnumbers ▸ List.Sublist.refl _
    · exact hnumbers ▸ List.sublist_cons_self _ _
  · exact List.Sublist.refl _

lemma cancelled_step : (w.step t shared).worker.queue.cancelled = w.queue.cancelled := by
  rw [step]
  split
  · rw [deliverStep]
    split
    · rfl
    · rfl
  · rfl
  · rw [TaskQueue.check]
    split
    · rfl
    · rfl
  · rw [TaskQueue.receive]
    split
    · rfl
    · rfl

lemma numbers_step : ((w.step t shared).wrote.toList ++ (w.step t shared).worker.numbers).Sublist w.numbers := by
  rw [step]
  split
  · rename_i number request hrunning
    exact numbers_deliverStep hrunning
  · rename_i c hrunning
    rw [numbers, numbers, jobs_of_running hrunning, List.filterMap_cons_none rfl]
    exact List.Sublist.refl _
  · rename_i hrunning hreceived
    exact (jobs_check hrunning _).filterMap _
  · rw [numbers, numbers, jobs_receive]
    exact List.Sublist.refl _

lemma idle_step (hd : w.delivering = false) (hc : w.queue.cancelled = true) :
    (w.step t shared).worker.delivering = false ∧ (w.step t shared).wrote = none := by
  rw [step]
  split
  · rename_i number request hrunning
    simp [delivering, hrunning, Job.isDelivery, Job.number?] at hd
  · exact ⟨rfl, rfl⟩
  · rename_i hrunning hreceived
    simp [delivering, TaskQueue.check, hc, hrunning]
  · rename_i hrunning hreceived
    simp [delivering, running_receive hrunning]

end Worker

namespace Workers

variable {σ : Type} {t : Transport σ} {s : Workers σ}

lemma after_append (before rest : List (Move σ)) : s.after t (before ++ rest) = (s.after t before).after t rest :=
  List.foldl_append

lemma submit_cases (job : Job) (s : Workers σ) :
    (∃ e, s.submit job = .error e) ∨ s.submit job = .ok { s with current := s.current.push job } := by
  rw [submit, TaskQueue.submit]
  split
  · exact .inl ⟨_, rfl⟩
  · exact .inr rfl

inductive Stepped (t : Transport σ) (s : Workers σ) : Move σ → Workers σ → Prop
  | none {m : Move σ} : Stepped t s m s
  | others (shared : Controller σ) : Stepped t s (.others shared) { s with shared }
  | send (hr : ¬ s.restarting = true) (request : String) : Stepped t s (.send request)
      { s with current := s.current.push (.delivery s.sent request), sent := s.sent + 1 }
  | call (hr : ¬ s.restarting = true) (c : DeviceCall) :
      Stepped t s (.call c) { s with current := s.current.push (.call c) }
  | cancel (hr : ¬ s.restarting = true) : Stepped t s .cancel
      { s with current := { s.current with queue := s.current.queue.shutdown }, restarting := true }
  | replace (hr : s.restarting = true) : Stepped t s .replace
      { s with current := {}, retired := s.retired ++ [s.current], restarting := false }
  | current : Stepped t s .current
      { s with
        shared := (s.current.step t s.shared).shared
        current := (s.current.step t s.shared).worker
        written := s.written ++ (s.current.step t s.shared).wrote.toList }
  | retired {i : ℕ} {w : Worker} (hw : s.retired[i]? = some w) : Stepped t s (.retired i)
      { s with
        shared := (w.step t s.shared).shared
        retired := s.retired.set i (w.step t s.shared).worker
        written := s.written ++ (w.step t s.shared).wrote.toList }

lemma stepped (t : Transport σ) (s : Workers σ) (m : Move σ) : s.Stepped t m (s.step t m) := by
  cases m with
  | others shared => exact .others shared
  | send request =>
    rw [step]
    split
    · exact .none
    · obtain ⟨e, he⟩ | he := submit_cases (.delivery s.sent request) s
      · rw [he]
        exact .none
      · rw [he]
        exact .send ‹_› request
  | call c =>
    rw [step]
    split
    · exact .none
    · obtain ⟨e, he⟩ | he := submit_cases (.call c) s
      · rw [he]
        exact .none
      · rw [he]
        exact .call ‹_› c
  | cancel =>
    rw [step]
    split
    · exact .none
    · exact .cancel ‹_›
  | replace =>
    rw [step]
    split
    · exact .replace ‹_›
    · exact .none
  | current => exact .current
  | retired i =>
    rw [step]
    split
    · exact .none
    · exact .retired ‹_›

lemma Patient.before {before rest : List (Move σ)} (h : s.Patient t (before ++ rest)) : s.Patient t before :=
  fun before' rest' he => h before' (rest' ++ rest) (by rw [he]; simp)

structure InTurn (s : Workers σ) : Prop where
  ordered : (s.written ++ s.current.numbers).Pairwise (· < ·)
  sent : ∀ n ∈ s.written ++ s.current.numbers, n < s.sent
  cancelled : s.restarting = true → s.current.queue.cancelled = true
  retired : ∀ w ∈ s.retired, w.delivering = false ∧ w.queue.cancelled = true

namespace InTurn

lemma sound (h : s.InTurn) : s.Sound where
  single := by
    have hretired : s.retired.filter (·.delivering) = [] :=
      List.filter_eq_nil_iff.mpr fun w hw => Bool.eq_false_iff.mp (h.retired w hw).1
    rw [deliveries, List.filter_cons, hretired]
    split
    · exact Nat.le_refl 1
    · exact Nat.zero_le 1
  ordered := (List.pairwise_append.mp h.ordered).1

lemma of_sublist (h : s.InTurn) {shared : Controller σ} {current : Worker} {written : List ℕ}
    (hn : (written ++ current.numbers).Sublist (s.written ++ s.current.numbers))
    (hc : s.restarting = true → current.queue.cancelled = true) :
    InTurn { s with shared, current, written } where
  ordered := h.ordered.sublist hn
  sent n hmem := h.sent n (hn.subset hmem)
  cancelled := hc
  retired := h.retired

lemma of_send (h : s.InTurn) (hr : ¬ s.restarting = true) (request : String) :
    InTurn { s with current := s.current.push (.delivery s.sent request), sent := s.sent + 1 } := by
  have hnumbers : s.written ++ (s.current.push (.delivery s.sent request)).numbers =
      (s.written ++ s.current.numbers) ++ [s.sent] := by
    rw [Worker.numbers_push, List.append_assoc]
    rfl
  refine ⟨hnumbers ▸ ?_, fun n hn => ?_, fun hr' => absurd hr' hr, h.retired⟩
  · refine List.pairwise_append.mpr ⟨h.ordered, List.pairwise_singleton _ _, fun n hn m hm => ?_⟩
    exact List.mem_singleton.mp hm ▸ h.sent n hn
  · obtain hn | hn := List.mem_append.mp (hnumbers ▸ hn)
    · exact Nat.lt_succ_of_lt (h.sent n hn)
    · exact List.mem_singleton.mp hn ▸ Nat.lt_succ_self s.sent

lemma of_call (h : s.InTurn) (hr : ¬ s.restarting = true) (c : DeviceCall) :
    InTurn { s with current := s.current.push (.call c) } := by
  refine h.of_sublist ?_ fun hr' => absurd hr' hr
  rw [Worker.numbers_push]
  exact (List.append_nil s.current.numbers).symm ▸ List.Sublist.refl _

lemma of_replace (h : s.InTurn) (hr : s.restarting = true) (hd : s.current.delivering = false) :
    InTurn { s with current := {}, retired := s.retired ++ [s.current], restarting := false } where
  ordered := (List.append_nil s.written).symm ▸ (List.pairwise_append.mp h.ordered).1
  sent n hn := h.sent n (List.mem_append_left _ (List.append_nil s.written ▸ hn))
  cancelled hr' := nomatch hr'
  retired w hw := by
    obtain hw | hw := List.mem_append.mp hw
    · exact h.retired w hw
    · exact List.mem_singleton.mp hw ▸ ⟨hd, h.cancelled hr⟩

lemma of_retired (h : s.InTurn) {i : ℕ} {w : Worker} (hw : s.retired[i]? = some w) :
    InTurn { s with
      shared := (w.step t s.shared).shared
      retired := s.retired.set i (w.step t s.shared).worker
      written := s.written ++ (w.step t s.shared).wrote.toList } := by
  obtain ⟨hd, hc⟩ := h.retired w (List.mem_of_getElem? hw)
  obtain ⟨hidle, hwrote⟩ : (w.step t s.shared).worker.delivering = false ∧ (w.step t s.shared).wrote = none :=
    Worker.idle_step hd hc
  rw [hwrote, Option.toList_none, List.append_nil]
  refine ⟨h.ordered, h.sent, h.cancelled, fun w' hw' => ?_⟩
  obtain hw' | rfl := List.mem_or_eq_of_mem_set hw'
  · exact h.retired w' hw'
  · exact ⟨hidle, Worker.cancelled_step.trans hc⟩

lemma step (h : s.InTurn) (m : Move σ) (hm : m = .replace → s.restarting = true → s.current.delivering = false) :
    (s.step t m).InTurn := by
  have hstep := stepped t s m
  generalize s.step t m = s' at hstep ⊢
  cases hstep with
  | none => exact h
  | others shared => exact h.of_sublist (List.Sublist.refl _) h.cancelled
  | send hr request => exact h.of_send hr request
  | call hr c => exact h.of_call hr c
  | cancel hr => exact ⟨h.ordered, h.sent, fun _ => rfl, h.retired⟩
  | replace hr => exact h.of_replace hr (hm rfl hr)
  | current =>
    refine h.of_sublist ?_ fun hr => Worker.cancelled_step.trans (h.cancelled hr)
    rw [List.append_assoc]
    exact (List.Sublist.refl s.written).append Worker.numbers_step
  | retired hw => exact h.of_retired hw

lemma after (h : s.InTurn) {moves : List (Move σ)} (hp : s.Patient t moves) : (s.after t moves).InTurn := by
  induction moves generalizing s with
  | nil => exact h
  | cons m rest ih =>
    refine ih (h.step m fun hm => ?_) fun before rest' he => ?_
    · subst hm
      exact hp [] rest rfl
    · exact hp (m :: before) rest' (by rw [he]; rfl)

end InTurn

def start (shared : Controller σ) : Workers σ := { shared }

lemma inTurn_start (shared : Controller σ) : (start shared).InTurn where
  ordered := .nil
  sent _ hn := nomatch hn
  cancelled hr := nomatch hr
  retired _ hw := nomatch hw

lemma overlap_of_replace (hr : s.restarting = true) (hd : s.current.delivering = true) :
    ¬ (s.after t ([.replace] ++ [.send "", .current, .current])).Sound := by
  let replaced : Workers σ := { s with current := {}, retired := s.retired ++ [s.current], restarting := false }
  have hreplaced : s.after t [.replace] = replaced := if_pos hr
  have hnew : (replaced.after t [.send "", .current, .current]).current.delivering = true := rfl
  have hold : (replaced.after t [.send "", .current, .current]).retired = s.retired ++ [s.current] := rfl
  intro h
  have hsingle := h.single
  rw [after_append, hreplaced, deliveries, hold, List.filter_cons_of_pos hnew, List.filter_append,
    List.filter_cons_of_pos hd] at hsingle
  simp at hsingle

theorem sound_iff_patient (t : Transport σ) (shared : Controller σ) (moves : List (Move σ)) :
    let s := start shared
    (∀ before rest more, moves = before ++ rest → (s.after t before).Patient t more →
      (s.after t (before ++ more)).Sound) ↔ s.Patient t moves := by
  intro s
  constructor
  · intro h before rest hsplit hr
    cases hd : (s.after t before).current.delivering with
    | false => rfl
    | true =>
      have hmore : (s.after t (before ++ [.replace])).Patient t [.send "", .current, .current] := by
        intro before' rest' he
        have hmem : Move.replace ∈ ([.send "", .current, .current] : List (Move σ)) := by simp [he]
        simp at hmem
      refine absurd (h (before ++ [.replace]) rest _ (by simp [hsplit]) hmore) ?_
      rw [List.append_assoc, after_append]
      exact overlap_of_replace hr hd
  · rintro h before rest more rfl hmore
    rw [after_append]
    exact (((inTurn_start shared).after h.before).after hmore).sound

def waitingDevice : Controller SimDevice :=
  (Controller.new {} { refusals := [(.connect, 1)] }).selectDevice SimDevice.transport (some "d")

/-- The first delivery waits for its second try when a restart gives up on it. The second finds a new worker. -/
def restarted : List (Move SimDevice) :=
  .send "first" :: List.replicate 7 .current ++ [.cancel, .replace, .send "second", .current, .current]

/-- The new worker writes the second request, and then the old one the first. -/
def overtaken : List (Move SimDevice) := List.replicate 5 .current ++ [.retired 0, .retired 0]

theorem overtaken_not_sound :
    let s := (start waitingDevice).after SimDevice.transport restarted
    let s' := s.after SimDevice.transport overtaken
    s.deliveries.length = 2 ∧ s'.written = [1, 0] ∧ s'.shared.link.device.written = "second\nfirst\n" ∧ ¬ s.Sound ∧
      ¬ s'.Sound := by
  refine ⟨rfl, rfl, ?_, fun h => ?_, fun h => ?_⟩
  · decide
  · exact absurd h.single (by decide)
  · exact absurd h.ordered (by decide)

end Workers

end BlockStudio
