import BlockStudio.Proofs.Sync.Threads
import Mathlib.Tactic.Lemma

/-! Runs of the threads of a session, and what the threads do where they take turns without being interrupted. -/

namespace BlockStudio

namespace Link

variable {σ : Type} {t : Transport σ} {l l' : Link σ} {calls : List DeviceCall} {port : ℕ} {request : String}

lemma writer_closeWriter (t : Transport σ) (l : Link σ) : (l.closeWriter t).writer = none := by
  rw [closeWriter]
  split
  · rfl
  · assumption

lemma generation_closeWriter (t : Transport σ) (l : Link σ) : (l.closeWriter t).generation = l.generation := by
  rw [closeWriter]
  split
  · rfl
  · rfl

lemma writer_drop (t : Transport σ) (l : Link σ) : (l.drop t).writer = none := writer_closeWriter t l

lemma generation_drop (t : Transport σ) (l : Link σ) : (l.drop t).generation = l.generation + 1 := rfl

lemma writer_write (t : Transport σ) (request : String) (l : Link σ) : (l.write t request).2.writer = l.writer := by
  rw [write]
  split
  · rfl
  · rfl

lemma generation_write (t : Transport σ) (request : String) (l : Link σ) :
    (l.write t request).2.generation = l.generation := by
  rw [write]
  split
  · rfl
  · rfl

lemma generation_reconnect (t : Transport σ) (calls : List DeviceCall) (port : ℕ) (request : String) (l : Link σ) :
    (l.reconnect t calls port request).2.generation = l.generation + 1 := by
  rw [← generation_drop t l, reconnect]
  split
  · rfl
  · split
    · rfl
    · rfl

lemma writer_reconnect (t : Transport σ) (calls : List DeviceCall) (port : ℕ) (request : String) (l : Link σ) :
    (l.reconnect t calls port request).2.writer = (l.reconnect t calls port request).1.toOption := by
  rw [reconnect]
  split
  · exact writer_drop t l
  · split
    · exact writer_drop t l
    · rfl

end Link

namespace Threads

variable {σ : Type} {t : Transport σ} {s : Threads σ}

lemma after_append (before rest : List (Move σ)) : s.after t (before ++ rest) = (s.after t before).after t rest :=
  List.foldl_append

lemma Along.append {P : Threads σ → Move σ → Prop} {before rest : List (Move σ)} (h : s.Along t P before)
    (hrest : (s.after t before).Along t P rest) : s.Along t P (before ++ rest) := by
  induction before generalizing s with
  | nil => exact hrest
  | cons m before ih => exact ⟨h.1, ih h.2 hrest⟩

lemma Along.before {P : Threads σ → Move σ → Prop} {before rest : List (Move σ)} (h : s.Along t P (before ++ rest)) :
    s.Along t P before := by
  induction before generalizing s with
  | nil => exact trivial
  | cons m before ih => exact ⟨h.1, ih h.2⟩

lemma Along.mono {P Q : Threads σ → Move σ → Prop} (hPQ : ∀ s m, P s m → Q s m) {moves : List (Move σ)}
    (h : s.Along t P moves) : s.Along t Q moves := by
  induction moves generalizing s with
  | nil => exact trivial
  | cons m rest ih => exact ⟨hPQ s m h.1, ih h.2⟩

lemma along_of_forall {P : Threads σ → Move σ → Prop} {moves : List (Move σ)}
    (h : ∀ before m rest, moves = before ++ m :: rest → P (s.after t before) m) : s.Along t P moves := by
  induction moves generalizing s with
  | nil => exact trivial
  | cons m rest ih =>
    exact ⟨h [] m rest rfl, ih fun before m' rest' he => h (m :: before) m' rest' (by rw [he]; rfl)⟩

structure Dated (s : Threads σ) : Prop where
  readers : ∀ r ∈ s.shared.readers, r.generation ≤ s.shared.link.generation
  leaving : ∀ l ∈ s.leaving, l.reader.generation ≤ s.shared.link.generation

namespace Dated

lemma start (config : SyncConfig) (device : σ) : (start config device).Dated where
  readers _ hr := by cases hr
  leaving _ hl := by cases hl

lemma of_shared (h : s.Dated) {shared : Controller σ} {queued : List String} {caller : CallerPhase}
    {worker : WorkerPhase} (hr : shared.readers = s.shared.readers)
    (hg : s.shared.link.generation ≤ shared.link.generation) :
    Dated { s with shared, queued, caller, worker } where
  readers r hmem := Nat.le_trans (h.readers r (hr ▸ hmem)) hg
  leaving l hmem := Nat.le_trans (h.leaving l hmem) hg

lemma begin (h : s.Dated) (m : Move σ) : (s.begin m).Dated := by
  cases m with
  | select serial => exact h.of_shared rfl (Nat.le_refl _)
  | plug => exact h.of_shared rfl (Nat.le_refl _)
  | unplug serial => exact h.of_shared rfl (Nat.le_refl _)
  | send code purpose origin isLoad => cases isLoad <;> exact h.of_shared rfl (Nat.le_refl _)
  | _ => exact h

lemma callerStep (h : s.Dated) : (s.callerStep t).Dated := by
  have hdrop : s.shared.link.generation ≤ (s.shared.link.drop t).generation := Nat.le_succ _
  rw [Threads.callerStep]
  split
  · exact h
  · exact h.of_shared rfl (Nat.le_refl _)
  · exact h.of_shared rfl hdrop
  · exact h.of_shared rfl (Nat.le_refl _)
  · exact h.of_shared rfl hdrop

lemma workerStep (h : s.Dated) : (s.workerStep t).Dated := by
  rw [Threads.workerStep]
  split
  · split
    · exact h
    · exact h.of_shared rfl (Nat.le_refl _)
  · exact h.of_shared rfl (Nat.le_refl _)
  · rename_i request _
    exact h.of_shared rfl (Nat.le_of_eq (Link.generation_write t request s.shared.link).symm)
  · exact h.of_shared rfl (Nat.le_refl _)
  · exact h.of_shared rfl (Nat.le_refl _)
  · split
    · exact h.of_shared rfl (Nat.le_refl _)
    · exact h.of_shared rfl (Nat.le_refl _)
  · rename_i device request delays _
    have hg := Link.generation_reconnect t (Controller.restartCalls s.shared.config device) s.shared.config.port request
      s.shared.link
    split
    · rename_i e link he
      exact h.of_shared rfl (by rw [he] at hg; exact hg ▸ Nat.le_succ _)
    · rename_i connection link he
      have hle : s.shared.link.generation ≤ link.generation := by rw [he] at hg; exact hg ▸ Nat.le_succ _
      refine ⟨fun r hr => ?_, fun l hl => Nat.le_trans (h.leaving l hl) hle⟩
      obtain hr | hr := List.mem_append.mp hr
      · exact Nat.le_trans (h.readers r hr) hle
      · obtain rfl := List.mem_singleton.mp hr
        exact Nat.le_refl _
  · exact h.of_shared rfl (Nat.le_refl _)

lemma leaveStep (h : s.Dated) {r : Reader} (hr : r ∈ s.shared.readers) : (s.leaveStep t r).Dated := by
  have hfilter : ∀ r' ∈ (s.shared.readerFlush r).readers, r'.generation ≤ s.shared.link.generation :=
    fun r' hr' => h.readers r' (List.mem_filter.mp hr').1
  rw [Threads.leaveStep, Controller.readerClose]
  split
  · have hg := Link.generation_closeWriter t s.shared.link
    refine ⟨fun r' hr' => hg ▸ hfilter r' hr', fun l hl => hg ▸ ?_⟩
    obtain hl | hl := List.mem_append.mp hl
    · exact h.leaving l hl
    · exact List.mem_singleton.mp hl ▸ h.readers r hr
  · exact ⟨hfilter, h.leaving⟩

lemma readerStep (h : s.Dated) (i : ℕ) : (s.readerStep i).Dated := by
  rw [Threads.readerStep]
  split
  · exact h
  · rename_i l hl
    split
    · exact ⟨h.readers, fun l' hl' => h.leaving l' (List.mem_of_mem_eraseIdx hl')⟩
    · refine ⟨h.readers, fun l' hl' => ?_⟩
      obtain hl' | rfl := List.mem_or_eq_of_mem_set hl'
      · exact h.leaving l' hl'
      · exact h.leaving l (List.mem_of_getElem? hl)

lemma step (h : s.Dated) (m : Move σ) : (s.step t m).Dated := by
  cases m with
  | device d => exact ⟨h.readers, h.leaving⟩
  | caller => exact h.callerStep
  | worker => exact h.workerStep
  | receive r bytes =>
    simp only [Threads.step]
    split
    · refine ⟨fun r' hr' => ?_, h.leaving⟩
      obtain ⟨r₀, hr₀, rfl⟩ := List.mem_map.mp hr'
      split
      · exact h.readers r₀ hr₀
      · exact h.readers r₀ hr₀
    · exact h
  | leave r =>
    simp only [Threads.step]
    split
    · rename_i hr
      exact h.leaveStep hr
    · exact h
  | reader i => exact h.readerStep i
  | _ =>
    simp only [Threads.step]
    split
    · exact h.begin _
    · exact h

lemma after (h : s.Dated) (moves : List (Move σ)) : (s.after t moves).Dated :=
  List.foldlRecOn moves (Threads.step t) h fun _ hs m _ => hs.step m

end Dated

lemma after_leaves (h : ∀ r ∈ s.shared.readers, s.shared.isCurrent r = false) (connection : Option ConnectionId) :
    s.after t ((connection.bind s.shared.reader?).map .leave).toList =
      { s with shared := s.shared.endReaderOf t connection } := by
  rw [Controller.endReaderOf]
  split
  · rename_i r hr
    obtain ⟨c, -, hfind⟩ := Option.bind_eq_some_iff.mp hr
    have hmem : r ∈ s.shared.readers := List.mem_of_find?_eq_some hfind
    have hcur : (s.shared.readerFlush r).isCurrent r = false := h r hmem
    simp [hr, after, step, hmem, leaveStep, Controller.endReader, Controller.readerClose, hcur]
  · rename_i hr
    rw [hr]
    rfl

def leaves (c : Controller σ) : List (Move σ) := ((c.link.writer.bind c.reader?).map .leave).toList

lemma Dated.after_drop (h : s.Dated) :
    ({ s with shared := { s.shared with link := s.shared.link.drop t } } : Threads σ).after t (leaves s.shared) =
      { s with shared := s.shared.dropLink t } := by
  have hlt : ∀ r ∈ s.shared.readers, r.generation < (s.shared.link.drop t).generation :=
    fun r hr => Nat.lt_succ_of_le (h.readers r hr)
  exact after_leaves (s := { s with shared := { s.shared with link := s.shared.link.drop t } })
    (fun r hr => decide_eq_false (Nat.ne_of_gt (hlt r hr))) s.shared.link.writer

theorem after_whole_select (hidle : s.caller = .idle) (h : s.Dated) (serial : Option String) :
    s.after t ([.select serial, .caller] ++ leaves s.shared ++ [.caller]) =
      { s with shared := s.shared.selectDevice t serial } := by
  let begun : Threads σ := { s with shared := s.shared.onSession (·.select serial), caller := .marking }
  have hbegun : s.after t [.select serial, .caller] =
      { begun with shared := { begun.shared with link := begun.shared.link.drop t } } := by
    simp [after, step, hidle, begin, callerStep, begun]
  have hdrop := (show begun.Dated from h.of_shared rfl (Nat.le_refl _)).after_drop (t := t)
  rw [after_append, after_append, hbegun]
  refine (congrArg (after t [.caller]) hdrop).trans ?_
  simp [after, step, callerStep, begun, Controller.selectDevice, hidle]

theorem after_whole_unplug (hidle : s.caller = .idle) (h : s.Dated) (serial : String)
    (hsel : s.shared.session.selected = some serial) :
    s.after t ([.unplug serial, .caller] ++ leaves s.shared) =
      { s with shared := s.shared.deviceUnplugged t serial } := by
  let begun : Threads σ := { s with shared := s.shared.onSession fun session => (session.unplug serial).1 }
  have hbegun : s.after t [.unplug serial, .caller] =
      { begun with shared := { begun.shared with link := begun.shared.link.drop t } } := by
    simp [after, step, hidle, begin, callerStep, begun, Session.unplug, hsel, Controller.onSession]
  have hdrop := (show begun.Dated from h.of_shared rfl (Nat.le_refl _)).after_drop (t := t)
  rw [after_append, hbegun]
  refine hdrop.trans ?_
  simp [begun, Controller.deviceUnplugged, Session.unplug, hsel, Controller.onSession]

theorem after_whole_exit (hl : s.leaving = []) {r : Reader} (hr : r ∈ s.shared.readers) :
    s.after t [.leave r, .reader 0, .reader 0] = { s with shared := s.shared.endReader t r } := by
  cases hc : (s.shared.readerFlush r).isCurrent r with
  | true => simp [after, step, hr, leaveStep, readerStep, hl, hc, Controller.endReader]
  | false => simp [after, step, hr, leaveStep, readerStep, hl, hc, Controller.endReader, Controller.readerClose]

def Works (t : Transport σ) (s s' : Threads σ) : Prop := ∃ n, s.after t (List.replicate n .worker) = s'

namespace Works

variable {s' s'' : Threads σ}

lemma refl (t : Transport σ) (s : Threads σ) : Works t s s := ⟨0, rfl⟩

lemma step (s' : Threads σ) (h : s.workerStep t = s') (h' : Works t s' s'') : Works t s s'' := by
  obtain ⟨n, hn⟩ := h'
  subst h
  exact ⟨n + 1, hn⟩

lemma trans (h : Works t s s') (h' : Works t s' s'') : Works t s s'' := by
  obtain ⟨n, hn⟩ := h
  obtain ⟨m, hm⟩ := h'
  exact ⟨n + m, by rw [← List.replicate_append_replicate, after_append, hn, hm]⟩

variable {request : String}

lemma of_try {delays : List ℕ} (hworker : s.worker = .trying request delays) (hw : s.shared.link.writer = none) :
    match s.shared.reconnect t request with
    | (.ok _, c) => Works t s { s with shared := c, worker := .idle }
    | (.error _, c) =>
      c.link.writer = none ∧ Works t s { s with shared := c, worker := afterFailure request delays } := by
  cases hsel : s.shared.session.selected with
  | none =>
    simp only [Controller.reconnect, hsel]
    exact ⟨hw, step _ (by simp [workerStep, hworker, hsel]) (refl t _)⟩
  | some device =>
    have hwriter := Link.writer_reconnect t (Controller.restartCalls s.shared.config device) s.shared.config.port
      request s.shared.link
    have hconnecting : s.workerStep t = { s with worker := .connecting device request delays } := by
      simp [workerStep, hworker, hsel]
    rcases he : s.shared.link.reconnect t (Controller.restartCalls s.shared.config device) s.shared.config.port
      request with ⟨e | connection, link⟩
    · rw [he] at hwriter
      simp only [Controller.reconnect, hsel, he, hw, Controller.endReaderOf, Option.bind_none]
      exact ⟨hwriter, step _ hconnecting (step _ (by simp [workerStep, he]) (refl t _))⟩
    · simp only [Controller.reconnect, hsel, he, hw, Controller.endReaderOf, Option.bind_none]
      exact step _ hconnecting (step _ (by simp [workerStep, he]) (refl t _))

def ended (s : Threads σ) : Except SyncError Unit × Controller σ → Threads σ
  | (.ok _, c) => { s with shared := c, worker := .idle }
  | (.error _, c) => { s with shared := c.onSession .markDisconnected, worker := .idle }

lemma of_retry {delays : List ℕ} (hworker : s.worker = .trying request delays) (hw : s.shared.link.writer = none) :
    Works t s (ended s (Controller.retry t request delays (s.shared.reconnect t request)).2) := by
  induction delays generalizing s with
  | nil =>
    have htry := of_try (t := t) hworker hw
    rcases he : s.shared.reconnect t request with ⟨e | _, c⟩
    · rw [he] at htry
      exact htry.2.trans (step _ rfl (refl t _))
    · rw [he] at htry
      exact htry
  | cons delay delays ih =>
    have htry := of_try (t := t) hworker hw
    rcases he : s.shared.reconnect t request with ⟨e | _, c⟩
    · rw [he] at htry
      exact htry.2.trans (ih rfl htry.1)
    · rw [he] at htry
      exact htry

lemma of_seeking (hworker : s.worker = .seeking request) (hw : s.shared.link.writer = none) :
    Works t s { s with shared := (s.shared.deliverAnew t request).controller, worker := .idle } := by
  cases hsel : s.shared.session.selected with
  | none =>
    have hgiving : s.workerStep t = { s with worker := .givingUp } := by
      simp [workerStep, hworker, hsel]
    simp only [Controller.deliverAnew, hsel]
    exact step _ hgiving (step _ rfl (refl t _))
  | some device =>
    let begun := s.shared.onSession .beginReconnect
    let trying : Threads σ := { s with shared := begun, worker := .trying request begun.config.backoff.delaysMs }
    have hstarting : s.workerStep t = { s with worker := .starting request } := by
      simp [workerStep, hworker, hsel]
    have hretry : Works t trying (ended trying
        (Controller.retry t request begun.config.backoff.delaysMs (begun.reconnect t request)).2) :=
      of_retry rfl hw
    refine step _ hstarting (step trying rfl ?_)
    simp only [Controller.deliverAnew, hsel]
    rcases he : Controller.retry t request begun.config.backoff.delaysMs (begun.reconnect t request) with
      ⟨waits, e | _, c⟩
    · rw [he] at hretry
      exact hretry
    · rw [he] at hretry
      exact hretry

end Works

theorem after_whole_delivery {request : String} {queued : List String} (hworker : s.worker = .idle)
    (hqueued : s.queued = request :: queued)
    (hw : (s.shared.writeNow t request).1 = false → s.shared.link.writer = none) :
    Works t s { s with queued, shared := (s.shared.deliver t request).controller, worker := .idle } := by
  have hreceived : s.workerStep t = { s with queued, worker := .received request } := by
    simp [workerStep, hworker, hqueued]
  refine Works.step _ hreceived ?_
  cases hhappy : s.shared.session.happy with
  | false =>
    have hnow : s.shared.writeNow t request = (false, s.shared) := by simp [Controller.writeNow, hhappy]
    have hseeking := Works.of_seeking (t := t) (s := { s with queued, worker := .seeking request }) rfl
      (hw (by rw [hnow]))
    refine Works.step { s with queued, worker := .seeking request } (by simp [workerStep, hhappy]) ?_
    rw [Controller.deliver, hnow]
    exact hseeking
  | true =>
    have hkeep := Link.writer_write t request s.shared.link
    refine Works.step { s with queued, worker := .writing request } (by simp [workerStep, hhappy]) ?_
    rcases he : s.shared.link.write t request with ⟨_ | _, link⟩
    · have hnow : s.shared.writeNow t request = (false, { s.shared with link }) := by
        simp [Controller.writeNow, hhappy, he]
      rw [he] at hkeep
      let seeking : Threads σ := { s with shared := { s.shared with link }, queued, worker := .seeking request }
      have hseeking := Works.of_seeking (t := t) (s := seeking) rfl (hkeep.trans (hw (by rw [hnow])))
      refine Works.step seeking (by simp [workerStep, he, seeking]) ?_
      rw [Controller.deliver, hnow]
      exact hseeking
    · have hnow : s.shared.writeNow t request = (true, { s.shared with link }) := by
        simp [Controller.writeNow, hhappy, he]
      rw [Controller.deliver, hnow]
      exact Works.step _ (by simp [workerStep, he]) (Works.refl t _)

end Threads

end BlockStudio
