import BlockStudio.Device.Simulated
import BlockStudio.Proofs.Sync.Turns

/-! When the flag of a session and its connection agree, whatever the order in which threads take turns. -/

namespace BlockStudio

namespace CallerPhase

def drops : CallerPhase → Bool
  | selecting | unplugging => true
  | _ => false

end CallerPhase

namespace WorkerPhase

def reconnecting : WorkerPhase → Bool
  | trying _ _ | connecting _ _ _ => true
  | _ => false

end WorkerPhase

namespace Threads

variable {σ : Type} {t : Transport σ} {s : Threads σ}

structure InOrder (s : Threads σ) : Prop where
  -- a caller that is still to drop the link sees to the flag, too
  linked : s.shared.link.writer.isSome = true → s.caller ≠ .marking ∧ s.leaving = [] ∧
    (s.caller.drops = true ∨ s.shared.session.selected.isSome = true ∧ s.worker ≠ .givingUp ∧
      (s.shared.session.happy = true ∨ s.worker.reconnecting = true))
  unlinked : s.shared.link.writer = none → s.shared.session.happy = true →
    s.caller = .marking ∨ ∃ l ∈ s.leaving, l.marked = false
  unplugged : s.caller = .unplugging → s.shared.session.happy = false
  reconnecting : s.worker.reconnecting = true → s.shared.session.happy = false

namespace InOrder

lemma start (config : SyncConfig) (device : σ) : (start config device).InOrder where
  linked hw := by cases hw
  unlinked _ hh := by cases hh
  unplugged hc := by cases hc
  reconnecting hr := by cases hr

lemma agrees (h : s.InOrder) (hq : s.Quiet) : s.Agrees := by
  obtain ⟨hcaller, hworker, hleaving⟩ := hq
  constructor
  · intro hhappy
    rw [Option.isSome_iff_ne_none]
    intro hw
    obtain hm | ⟨l, hl, -⟩ := h.unlinked hw hhappy
    · rw [hcaller] at hm
      cases hm
    · rw [hleaving] at hl
      cases hl
  · intro hw
    obtain ⟨-, -, hd | ⟨-, -, hhappy | hr⟩⟩ := h.linked hw
    · rw [hcaller] at hd
      cases hd
    · exact hhappy
    · rw [hworker] at hr
      cases hr

lemma linked_of_drops (h : s.InOrder) (hd : s.caller.drops = false) (hw : s.shared.link.writer.isSome = true) :
    s.leaving = [] ∧ s.shared.session.selected.isSome = true ∧ s.worker ≠ .givingUp ∧
      (s.shared.session.happy = true ∨ s.worker.reconnecting = true) :=
  ⟨(h.linked hw).2.1, (h.linked hw).2.2.resolve_left (hd ▸ Bool.false_ne_true)⟩

lemma of_caller (h : s.InOrder) (hd : s.caller.drops = false) (hm : s.caller ≠ .marking) {shared : Controller σ}
    {queued : List String} {caller : CallerPhase} (hlink : shared.link = s.shared.link)
    (hhappy : shared.session.happy = s.shared.session.happy)
    (hsel : caller.drops = true ∨ shared.session.selected = s.shared.session.selected)
    (hm' : caller ≠ .marking) (hu : caller ≠ .unplugging) : InOrder { s with shared, queued, caller } where
  linked hw := by
    obtain ⟨hl, hrest⟩ := h.linked_of_drops hd (hlink ▸ hw)
    refine ⟨hm', hl, hsel.imp_right fun hsel => ?_⟩
    rw [hsel, hhappy]
    exact hrest
  unlinked hw hh := .inr ((h.unlinked (hlink ▸ hw) (hhappy ▸ hh)).resolve_left hm)
  unplugged hc := absurd hc hu
  reconnecting hr := hhappy.trans (h.reconnecting hr)

lemma begin (h : s.InOrder) (hidle : s.caller = .idle) (m : Move σ) : (s.begin m).InOrder := by
  have hd : s.caller.drops = false := by rw [hidle]; rfl
  have hm : s.caller ≠ .marking := by simp [hidle]
  cases m with
  | select serial => exact h.of_caller hd hm rfl rfl (.inl rfl) (by decide) (by decide)
  | plug => exact ⟨h.linked, h.unlinked, h.unplugged, h.reconnecting⟩
  | unplug serial =>
    have hl (hw : s.shared.link.writer.isSome = true) := (h.linked hw).2.1
    simp only [Threads.begin, Session.unplug]
    split
    · exact ⟨fun hw => ⟨by simp, hl hw, .inl rfl⟩, fun _ hh => (by cases hh), fun _ => rfl, fun _ => rfl⟩
    · exact h.of_caller hd hm rfl rfl (.inr rfl) (by simp) (by simp)
  | send code purpose origin isLoad =>
    cases isLoad with
    | false => exact h.of_caller hd hm rfl rfl (.inr rfl) (by simp) (by simp)
    | true => exact h.of_caller hd hm rfl rfl (.inr rfl) (by simp) (by simp)
  | _ => exact h

lemma callerStep (h : s.InOrder) : (s.callerStep t).InOrder := by
  have hnone := Link.writer_drop t s.shared.link
  cases hc : s.caller with
  | idle =>
    rw [Threads.callerStep, hc]
    exact h
  | sending request =>
    rw [Threads.callerStep, hc]
    exact h.of_caller (by rw [hc]; rfl) (by simp [hc]) rfl rfl (.inr rfl) (by decide) (by decide)
  | selecting =>
    rw [Threads.callerStep, hc]
    exact ⟨fun hw => absurd hw (by simp [hnone]), fun _ _ => .inl rfl, by simp, h.reconnecting⟩
  | marking =>
    rw [Threads.callerStep, hc]
    exact ⟨fun hw => absurd hc (h.linked hw).1, fun _ hh => (by cases hh), by simp, fun _ => rfl⟩
  | unplugging =>
    rw [Threads.callerStep, hc]
    refine ⟨fun hw => absurd hw (by simp [hnone]), fun _ hh => ?_, by simp, h.reconnecting⟩
    cases (h.unplugged hc).symm.trans hh

lemma of_worker (h : s.InOrder) {link : Link σ} {queued : List String} {worker : WorkerPhase}
    (hw : link.writer = s.shared.link.writer) (hr : worker.reconnecting = s.worker.reconnecting)
    (hg : worker = .givingUp → s.shared.link.writer.isSome = true → s.caller.drops = true) :
    InOrder { s with shared := { s.shared with link }, queued, worker } where
  linked hsome := by
    have hsome' : s.shared.link.writer.isSome = true := hw ▸ hsome
    obtain ⟨hm, hl, hrest⟩ := h.linked hsome'
    refine ⟨hm, hl, ?_⟩
    by_cases hd : s.caller.drops = true
    · exact .inl hd
    · obtain ⟨hsel, -, hhappy⟩ := hrest.resolve_left hd
      exact .inr ⟨hsel, fun hgive => hd (hg hgive hsome'), by rw [hr]; exact hhappy⟩
  unlinked hnone := h.unlinked (hw ▸ hnone)
  unplugged := h.unplugged
  reconnecting hrec := h.reconnecting (hr ▸ hrec)

lemma of_failure (h : s.InOrder) (hr : s.worker.reconnecting = true) {link : Link σ} {worker : WorkerPhase}
    (hw : link.writer = none ∨ link = s.shared.link ∧ s.shared.session.selected = none) :
    InOrder { s with shared := { s.shared with link }, worker } := by
  have hsad := h.reconnecting hr
  refine ⟨fun hsome => ?_, fun _ hh => absurd (hsad.symm.trans hh) Bool.false_ne_true, h.unplugged, fun _ => hsad⟩
  obtain hnone | ⟨rfl, hsel⟩ := hw
  · exact absurd hsome (by simp [hnone])
  · obtain ⟨hm, hl, hrest⟩ := h.linked hsome
    exact ⟨hm, hl, .inl (hrest.resolve_right fun hs => by simp [hsel] at hs)⟩

lemma workerStep (h : s.InOrder) (hopen : s.Opens t → s.Orderly) : (s.workerStep t).InOrder := by
  cases hworker : s.worker with
  | idle =>
    rw [Threads.workerStep, hworker]
    cases s.queued with
    | nil => exact h
    | cons request queued => exact h.of_worker rfl (by rw [hworker]; rfl) (by simp)
  | received request =>
    simp only [Threads.workerStep, hworker]
    split
    · exact h.of_worker rfl (by rw [hworker]; rfl) (by simp)
    · exact h.of_worker rfl (by rw [hworker]; rfl) (by simp)
  | writing request =>
    have hw := Link.writer_write t request s.shared.link
    simp only [Threads.workerStep, hworker]
    split
    · exact h.of_worker hw (by rw [hworker]; rfl) (by simp)
    · exact h.of_worker hw (by rw [hworker]; rfl) (by simp)
  | seeking request =>
    simp only [Threads.workerStep, hworker]
    split
    · exact h.of_worker rfl (by rw [hworker]; rfl) (by simp)
    · rename_i hsel
      exact h.of_worker rfl (by rw [hworker]; rfl) fun _ hw =>
        (h.linked hw).2.2.resolve_right fun hs => hsel hs.1
  | starting request =>
    simp only [Threads.workerStep, hworker]
    refine ⟨fun hw => ?_, fun _ hh => (by cases hh), fun _ => rfl, fun _ => rfl⟩
    obtain ⟨hm, hl, hrest⟩ := h.linked hw
    exact ⟨hm, hl, hrest.imp_right fun hs => ⟨hs.1, by simp, .inr rfl⟩⟩
  | trying request delays =>
    have hr : s.worker.reconnecting = true := by rw [hworker]; rfl
    rw [Threads.workerStep, hworker]
    cases hsel : s.shared.session.selected with
    | none => exact h.of_failure hr (.inr ⟨rfl, hsel⟩)
    | some device => exact h.of_worker rfl (by rw [hworker]; rfl) (by simp)
  | connecting device request delays =>
    have hr : s.worker.reconnecting = true := by rw [hworker]; rfl
    have hw := Link.writer_reconnect t (Controller.restartCalls s.shared.config device) s.shared.config.port request
      s.shared.link
    simp only [Threads.workerStep, hworker]
    split
    · rename_i e link he
      exact h.of_failure hr (.inl (by rw [he] at hw; exact hw))
    · rename_i connection link he
      obtain ⟨hl, ho⟩ := hopen ⟨device, request, delays, connection, link, hworker, he⟩
      have hsome : link.writer = some connection := by rw [he] at hw; exact hw
      refine ⟨fun _ => ⟨?_, hl, ?_⟩, fun hnone => ?_, fun hc => ?_, by simp [WorkerPhase.reconnecting]⟩
      · obtain hc | hc := ho
        · simp [hc]
        · exact hc.1
      · exact ho.imp (fun hc => by rw [hc]; rfl) fun hc => ⟨hc.2.2, by simp, .inl rfl⟩
      · cases hsome.symm.trans hnone
      · obtain hc' | hc' := ho
        · cases hc'.symm.trans hc
        · exact absurd hc hc'.2.1
  | givingUp =>
    simp only [Threads.workerStep, hworker]
    refine ⟨fun hw => ?_, fun _ hh => (by cases hh), fun _ => rfl, fun _ => rfl⟩
    obtain ⟨hm, hl, hrest⟩ := h.linked hw
    exact ⟨hm, hl, .inl (hrest.resolve_right fun hs => hs.2.1 hworker)⟩

lemma leaveStep (h : s.InOrder) (r : Reader) : (s.leaveStep t r).InOrder := by
  rw [Threads.leaveStep, Controller.readerClose]
  split
  · have hnone := Link.writer_closeWriter t s.shared.link
    refine ⟨fun hw => absurd hw (by simp [Controller.readerFlush, Controller.report, hnone]), fun _ _ => ?_,
      h.unplugged, h.reconnecting⟩
    exact .inr ⟨{ reader := r }, List.mem_append_right _ (List.mem_singleton.mpr rfl), rfl⟩
  · exact ⟨h.linked, h.unlinked, h.unplugged, h.reconnecting⟩

lemma readerStep (h : s.InOrder) (i : ℕ) : (s.readerStep i).InOrder := by
  rw [Threads.readerStep]
  split
  · exact h
  · rename_i l hl
    -- it could not be on its way out with a connection there
    have hnone : s.shared.link.writer = none := by
      refine Option.not_isSome_iff_eq_none.mp fun hw => ?_
      rw [(h.linked hw).2.1] at hl
      simp at hl
    split
    · rename_i hmarked
      refine ⟨fun hw => absurd hw (by simp [Controller.readerClosed, Controller.report, hnone]), fun hw hh => ?_,
        h.unplugged, h.reconnecting⟩
      obtain hc | ⟨l', hl', hm⟩ := h.unlinked hw hh
      · exact .inl hc
      refine .inr ⟨l', ?_, hm⟩
      obtain ⟨j, hj⟩ := List.mem_iff_getElem?.mp hl'
      refine List.mem_eraseIdx_iff_getElem?.mpr ⟨j, fun hji => ?_, hj⟩
      obtain rfl := Option.some.inj (hl.symm.trans (hji ▸ hj))
      cases hmarked.symm.trans hm
    · exact ⟨fun hw => absurd hw (by simp [Controller.readerUnhappy, Controller.onSession, hnone]),
        fun _ hh => (by cases hh), fun _ => rfl, fun _ => rfl⟩

lemma step (h : s.InOrder) (m : Move σ) (hopen : s.OpensOrderly t m) : (s.step t m).InOrder := by
  cases m with
  | device d => exact ⟨h.linked, h.unlinked, h.unplugged, h.reconnecting⟩
  | caller => exact h.callerStep
  | worker => exact h.workerStep (hopen rfl)
  | receive r bytes =>
    simp only [Threads.step]
    split
    · exact ⟨h.linked, h.unlinked, h.unplugged, h.reconnecting⟩
    · exact h
  | leave r =>
    simp only [Threads.step]
    split
    · exact h.leaveStep r
    · exact h
  | reader i => exact h.readerStep i
  | _ =>
    simp only [Threads.step]
    split
    · rename_i hidle
      exact h.begin hidle _
    · exact h

lemma after (h : s.InOrder) : ∀ moves, s.Along t (OpensOrderly t) moves → (s.after t moves).InOrder := by
  intro moves
  induction moves generalizing s with
  | nil => exact fun _ => h
  | cons m rest ih => exact fun ho => ih (h.step m ho.1) ho.2

end InOrder

lemma InOrder.sound (h : s.InOrder) : s.Sound where
  agrees := h.agrees
  current l hl _ := Option.not_isSome_iff_eq_none.mp fun hw => by
    rw [(h.linked hw).2.1] at hl
    simp at hl

structure Opened (before s : Threads σ) : Prop where
  writer : s.shared.link.writer.isSome = true
  generation : before.shared.link.generation < s.shared.link.generation
  happy : s.shared.session.happy = true
  selected : s.shared.session.selected = before.shared.session.selected
  worker : s.worker = .idle
  caller : s.caller = before.caller
  leaving : s.leaving = before.leaving

lemma opened (h : s.Opens t) : Opened s (s.step t .worker) := by
  obtain ⟨device, request, delays, connection, link, hworker, he⟩ := h
  have hw := Link.writer_reconnect t (Controller.restartCalls s.shared.config device) s.shared.config.port request
    s.shared.link
  have hg := Link.generation_reconnect t (Controller.restartCalls s.shared.config device) s.shared.config.port request
    s.shared.link
  rw [he] at hw hg
  simp only [step, workerStep, hworker, he]
  exact ⟨by rw [hw]; rfl, hg ▸ Nat.lt_succ_self _, rfl, rfl, rfl, rfl, rfl⟩

lemma gives_up {request : String} {queued : List String} (hqueued : s.queued = request :: queued)
    (hworker : s.worker = .idle) (hhappy : s.shared.session.happy = true) (hsel : s.shared.session.selected = none)
    (hbroken : ∀ c, (t.writeRequest c request s.shared.link.device).1 = false) :
    let moves : List (Move σ) := [.worker, .worker, .worker, .worker, .worker]
    s.Along t (OpensNothing t) moves ∧ (s.after t moves).worker = .idle ∧ (s.after t moves).caller = s.caller ∧
      (s.after t moves).leaving = s.leaving ∧ (s.after t moves).shared.session.happy = false ∧
      (s.after t moves).shared.link.writer = s.shared.link.writer := by
  have hwrite : (s.shared.link.write t request).1 = false := by
    rw [Link.write]
    split
    · rfl
    · exact hbroken _
  have hw := Link.writer_write t request s.shared.link
  simp [Along, OpensNothing, Opens, after, step, workerStep, hqueued, hworker, hhappy, hsel, hwrite, hw,
    Controller.onSession, Session.markDisconnected]

def Breaks (t : Transport σ) (s : Threads σ) : Prop :=
  ∃ more : List (Move σ), s.Along t (OpensNothing t) more ∧ ¬ (s.after t more).Sound

lemma Breaks.of_quiet (more : List (Move σ)) (hmore : s.Along t (OpensNothing t) more) (hq : (s.after t more).Quiet)
    (hd : ¬ (s.after t more).Agrees) : s.Breaks t := ⟨more, hmore, fun h => hd (h.agrees hq)⟩

namespace Opened

variable {before : Threads σ}

lemma breaks_of_leaving (h : Opened before s) (hdated : before.Dated) {l : Leaver} (hl : l ∈ before.leaving) :
    s.Breaks t := by
  refine ⟨[], trivial, fun hs => ?_⟩
  have hold : l.reader.generation < s.shared.link.generation := Nat.lt_of_le_of_lt (hdated.leaving l hl) h.generation
  have hnone : s.shared.link.writer = none := hs.current l (h.leaving ▸ hl) hold
  exact absurd h.writer (by simp [hnone])

lemma breaks_of_marking (h : Opened before s) (hl : before.leaving = []) (hc : before.caller = .marking) :
    s.Breaks t := by
  have hc' : s.caller = .marking := h.caller.trans hc
  refine Breaks.of_quiet [.caller] ⟨by simp [OpensNothing], trivial⟩ ?_ ?_
  · simp [after, step, callerStep, hc', Quiet, h.worker, h.leaving, hl]
  · simp [after, step, callerStep, hc', Agrees, Controller.onSession, Session.markUnhappy, h.writer]

lemma breaks_of_unplugging (h : Opened before s) (hl : before.leaving = []) (hc : before.caller = .unplugging) :
    s.Breaks t := by
  have hc' : s.caller = .unplugging := h.caller.trans hc
  refine Breaks.of_quiet [.caller] ⟨by simp [OpensNothing], trivial⟩ ?_ ?_
  · simp [after, step, callerStep, hc', Quiet, h.worker, h.leaving, hl]
  · simp [after, step, callerStep, hc', Agrees, h.happy, Link.writer_drop]

lemma breaks_of_unselected (h : Opened before s) (hl : before.leaving = [])
    (hsel : before.shared.session.selected = none)
    (hc : before.caller = .idle ∨ ∃ request, before.caller = .sending request) (broken : σ)
    (hbroken : ∀ c request, (t.writeRequest c request broken).1 = false) : s.Breaks t := by
  -- the next request finds the session happy, cannot be written, and nothing is selected to connect to again
  let lead : List (Move σ) := [.caller, .send "" .load none false, .caller, .device broken]
  obtain ⟨request, queued, hlead⟩ : ∃ request queued, s.after t lead =
      { s with
        shared := { s.shared with link := { s.shared.link with device := broken } }
        queued := request :: queued
        caller := .idle } := by
    have hne (queued : List String) : ∃ head tail, queued ++ [wrapRequest "" .load none] = head :: tail :=
      List.exists_cons_of_ne_nil (List.concat_ne_nil _ _)
    obtain hc | ⟨r, hc⟩ := hc
    · obtain ⟨head, tail, hq⟩ := hne s.queued
      have hc' := h.caller.trans hc
      exact ⟨head, tail, by simp [lead, after, step, callerStep, begin, hc', hq]⟩
    · obtain ⟨head, tail, hq⟩ := hne (s.queued ++ [r])
      have hc' := h.caller.trans hc
      exact ⟨head, tail, by simp [lead, after, step, callerStep, begin, hc', ← hq]⟩
  have hrest := gives_up (t := t) (s := s.after t lead) (by rw [hlead]) (by rw [hlead]; exact h.worker)
    (by rw [hlead]; exact h.happy) (by rw [hlead]; exact h.selected.trans hsel) (by rw [hlead]; exact (hbroken · _))
  obtain ⟨halong, hworker, hcaller, hleaving, hhappy, hw⟩ := hrest
  have hlead' : s.Along t (OpensNothing t) lead := by simp [lead, Along, OpensNothing]
  refine Breaks.of_quiet _ (hlead'.append halong) ?_ ?_
  · rw [after_append]
    exact ⟨by rw [hcaller, hlead], hworker, by rw [hleaving, hlead]; exact h.leaving.trans hl⟩
  · rw [after_append, Agrees, hhappy, hw, hlead]
    exact fun hiff => Bool.false_ne_true (hiff.mpr h.writer)

end Opened

lemma breaks_of_disorder (hopens : s.Opens t) (hs : s.Dated) (hdis : ¬ s.Orderly) (broken : σ)
    (hbroken : ∀ c request, (t.writeRequest c request broken).1 = false) : (s.step t .worker).Breaks t := by
  have h := opened hopens
  cases hl : s.leaving with
  | cons l leaving => exact h.breaks_of_leaving hs (hl ▸ List.mem_cons_self)
  | nil =>
    cases hc : s.caller with
    | selecting => exact absurd ⟨hl, .inl hc⟩ hdis
    | marking => exact h.breaks_of_marking hl hc
    | unplugging => exact h.breaks_of_unplugging hl hc
    | idle =>
      have hsel : s.shared.session.selected = none := by
        simpa [Orderly, hl, hc] using hdis
      exact h.breaks_of_unselected hl hsel (.inl hc) broken hbroken
    | sending request =>
      have hsel : s.shared.session.selected = none := by
        simpa [Orderly, hl, hc] using hdis
      exact h.breaks_of_unselected hl hsel (.inr ⟨request, hc⟩) broken hbroken

theorem sound_iff_opened_in_order (t : Transport σ) (config : SyncConfig) (device : σ) (moves : List (Move σ)) :
    let s := start config device
    let safe := ∀ before rest more, moves = before ++ rest → (s.after t before).Along t (OpensNothing t) more →
      (s.after t (before ++ more)).Sound
    (s.Along t (OpensOrderly t) moves → safe) ∧
    ((∃ broken, ∀ c request, (t.writeRequest c request broken).1 = false) → safe →
      s.Along t (OpensOrderly t) moves) ∧
    let last := s.after t moves
    ∀ r ∈ last.shared.readers, r.generation ≠ last.shared.link.generation →
      last.step t (.leave r) = { last with shared := last.shared.readerFlush r } := by
  intro s safe
  refine ⟨fun h before rest more hsplit hmore => ?_, ?_, ?_⟩
  · have hbefore : s.Along t (OpensOrderly t) before := (hsplit ▸ h).before
    have hmore : (s.after t before).Along t (OpensOrderly t) more :=
      hmore.mono fun _ _ hm hworker hopens => absurd hopens (hm hworker)
    exact ((InOrder.start config device).after _ (hbefore.append hmore)).sound
  · rintro ⟨broken, hbroken⟩ hsafe
    refine along_of_forall fun before m rest hsplit hm hopens => ?_
    by_cases ho : (s.after t before).Orderly
    · exact ho
    subst hm
    obtain ⟨more, hmore, hbad⟩ := breaks_of_disorder hopens ((Dated.start config device).after before) ho broken hbroken
    have hstep : s.after t (before ++ [.worker]) = (s.after t before).step t .worker := after_append before [.worker]
    refine absurd (hsafe (before ++ [.worker]) rest more ?_ (hstep ▸ hmore)) ?_
    · rw [hsplit, List.append_assoc, List.singleton_append]
    · rw [after_append, hstep]
      exact hbad
  · intro last r hr hg
    have hcur : (last.shared.readerFlush r).isCurrent r = false := decide_eq_false fun h => hg h.symm
    simp [step, hr, leaveStep, Controller.readerClose, hcur]

def reopened : List (Move SimDevice) :=
  [.select (some "d"), .caller, .caller, .send "" .load none false, .caller] ++ List.replicate 6 .worker ++
    [.leave { connection := 0, generation := 2 }, .send "" .load none false, .caller] ++ List.replicate 7 .worker

theorem late_report_not_sound :
    let s := (start {} {}).after SimDevice.transport reopened
    let s' := s.after SimDevice.transport [.reader 0, .reader 0]
    s.leaving.map (·.reader.generation) = [2] ∧ s.shared.link.generation = 3 ∧ s.Agrees ∧ ¬ s.Sound ∧
      s'.Quiet ∧ s'.shared.link.writer = some 1 ∧ s'.shared.session.happy = false ∧ s'.shared.inbox = [.closed] ∧
      ¬ s'.Agrees := by
  refine ⟨rfl, rfl, iff_of_true rfl rfl, fun h => ?_, ⟨rfl, rfl, rfl⟩, rfl, rfl, rfl, fun h => ?_⟩
  · have hnone : some 1 = none := h.current _ (.head _) (by decide)
    cases hnone
  · exact Bool.false_ne_true (h.mpr rfl)

end Threads

end BlockStudio
