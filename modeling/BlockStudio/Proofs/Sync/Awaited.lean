import BlockStudio.Proofs.Sync.Overlap
import BlockStudio.Sync.Inbox
import Mathlib.Data.List.Induction
import Mathlib.Logic.Function.Iterate

/-!
The wait for the answer to a project load. The caller notes it before the load is queued, and ends it when it routes an
answer to a load; the workers, the readers and the rest of what the caller does leave it as it is.
-/

namespace BlockStudio

variable {σ : Type} {t : Transport σ}

inductive Section (σ : Type) where
  | device (d : σ)
  | select (serial : Option String)
  | plug
  | unplug (serial : String)
  | drop
  | unhappy
  | receive (r : Reader) (bytes : List UInt8)
  | flush (r : Reader)
  | close (r : Reader)
  | closed
  | await
  | fetch

namespace Controller

variable {c : Controller σ}

def fetch (c : Controller σ) : Controller σ :=
  match c.inbox with
  | [] => c
  | e :: rest => { c with session := c.session.after e, inbox := rest }

def Replies (c : Controller σ) : Prop := ∃ r rest, c.inbox = .frame r :: rest ∧ r.purpose = .load

lemma fst_drainEvents (events : List ReaderEvent) (s : Session) (w : Workspace) :
    (drainEvents events s w).1 = events.foldl .after s := by
  induction events generalizing s w with
  | nil => rfl
  | cons e rest ih => exact ih (s.after e) (Notice.ofEvent w e).1

lemma iterate_fetch {events : List ReaderEvent} (h : c.inbox = events) :
    fetch^[events.length] c = { c with session := events.foldl .after c.session, inbox := [] } := by
  induction events generalizing c with
  | nil =>
    cases c
    cases h
    rfl
  | cons e rest ih =>
    have hfetch : c.fetch = { c with session := c.session.after e, inbox := rest } := by
      simp only [fetch, h]
    rw [List.length_cons, Function.iterate_succ_apply, ih (by rw [hfetch]), hfetch]
    rfl

theorem fst_drain (c : Controller σ) (w : Workspace) : (c.drain w).1 = fetch^[c.inbox.length] c := by
  rw [iterate_fetch rfl, ← fst_drainEvents c.inbox c.session w]
  rfl

lemma waiting_fetch (c : Controller σ) : c.fetch.session.waiting = true ↔ c.session.waiting = true ∧ ¬ c.Replies := by
  rw [fetch]
  split
  · rename_i he
    simp [Replies, he]
  · rename_i e rest he
    cases e with
    | frame r =>
      by_cases hr : r.purpose = .load
      · simp [Session.after, Session.setWaiting, Replies, he, hr]
      · simp [Session.after, Replies, he, hr]
    | _ => simp [Session.after, Replies, he]

end Controller

namespace Section

variable (t)

def apply (c : Controller σ) : Section σ → Controller σ
  | device d => { c with link := { c.link with device := d } }
  | select serial => c.onSession (·.select serial)
  | plug => c.devicePlugged
  | unplug serial => { c with session := (c.session.unplug serial).1 }
  | drop => { c with link := c.link.drop t }
  | unhappy => c.readerUnhappy
  | receive r bytes => c.receive r bytes
  | flush r => c.readerFlush r
  | close r => c.readerClose t r
  | closed => c.readerClosed
  | await => c.onSession (·.setWaiting true)
  | fetch => c.fetch

variable {t} {c : Controller σ} {x : Section σ}

lemma waiting_apply (ha : x ≠ .await) (hf : x ≠ .fetch) : (x.apply t c).session.waiting = c.session.waiting := by
  cases x with
  | await => exact absurd rfl ha
  | fetch => exact absurd rfl hf
  | unplug serial =>
    rw [apply, Session.unplug]
    split
    · rfl
    · rfl
  | close r =>
    rw [apply, Controller.readerClose]
    split
    · rfl
    · rfl
  | _ => rfl

end Section

namespace Threads

lemma waiting_workerStep (s : Threads σ) : (s.workerStep t).shared.session.waiting = s.shared.session.waiting := by
  rw [workerStep]
  split
  · split
    · rfl
    · rfl
  · rfl
  · rfl
  · rfl
  · rfl
  · split
    · rfl
    · rfl
  · split
    · rfl
    · rfl
  · rfl

end Threads

namespace Worker

variable {w : Worker} {n : ℕ}

lemma waiting_step (w : Worker) (shared : Controller σ) :
    (w.step t shared).shared.session.waiting = shared.session.waiting := by
  rw [step]
  split
  · rw [deliverStep]
    split
    · exact Threads.waiting_workerStep _
    · exact Threads.waiting_workerStep _
  · rfl
  · rfl
  · rfl

lemma notMem_step (h : n ∉ w.numbers) (shared : Controller σ) :
    n ∉ (w.step t shared).wrote.toList ∧ n ∉ (w.step t shared).worker.numbers := by
  have hsub : (w.step t shared).wrote.toList ++ (w.step t shared).worker.numbers ⊆ w.numbers := numbers_step.subset
  exact ⟨fun hn => h (hsub (List.mem_append_left _ hn)), fun hn => h (hsub (List.mem_append_right _ hn))⟩

end Worker

namespace Workers

inductive Act (σ : Type) where
  | aside (x : Section σ)
  | send (request : String)
  | call (c : DeviceCall)
  | cancel
  | replace
  | current
  | retired (i : ℕ)

variable (t)

def Act.move (s : Workers σ) : Act σ → Move σ
  | aside x => .others (x.apply t s.shared)
  | send request => .send request
  | call c => .call c
  | cancel => .cancel
  | replace => .replace
  | current => .current
  | retired i => .retired i

def act (s : Workers σ) (a : Act σ) : Workers σ := s.step t (a.move t s)

def run (acts : List (Act σ)) (s : Workers σ) : Workers σ := acts.foldl (act t) s

def Answered (s : Workers σ) (acts : List (Act σ)) : Prop :=
  ∃ before after, acts = before ++ .aside .fetch :: after ∧ (s.run t before).shared.Replies ∧ .aside .await ∉ after

structure Gone (s : Workers σ) (n : ℕ) : Prop where
  sent : n < s.sent
  unwritten : n ∉ s.written
  current : n ∉ s.current.numbers
  retired : ∀ w ∈ s.retired, n ∉ w.numbers

inductive Fails (s : Workers σ) (request : String) (rest : List (Act σ)) : Prop
  | refused {e : SyncError} (hr : s.restarting = false) (h : s.submit (.delivery s.sent request) = .error e)
  | lost {s' : Workers σ} (hr : s.restarting = false) (h : s.submit (.delivery s.sent request) = .ok s')
      (hg : (s.run t (.send request :: rest)).Gone s.sent)

variable {t} {s : Workers σ} {a : Act σ} {acts rest : List (Act σ)} {n : ℕ} {request : String}

lemma run_append (acts rest : List (Act σ)) : s.run t (acts ++ rest) = (s.run t acts).run t rest := List.foldl_append

lemma run_concat (acts : List (Act σ)) (a : Act σ) : s.run t (acts ++ [a]) = (s.run t acts).act t a := run_append acts [a]

lemma waiting_step {m : Move σ} (hm : ∀ shared, m = .others shared → shared.session.waiting = s.shared.session.waiting) :
    (s.step t m).shared.session.waiting = s.shared.session.waiting := by
  have hstep := stepped t s m
  generalize s.step t m = s' at hstep ⊢
  cases hstep with
  | others shared => exact hm shared rfl
  | current => exact Worker.waiting_step s.current s.shared
  | retired hw => exact Worker.waiting_step _ s.shared
  | _ => rfl

lemma waiting_act (ha : a ≠ .aside .await) (hf : a ≠ .aside .fetch) :
    (s.act t a).shared.session.waiting = s.shared.session.waiting := by
  refine waiting_step fun shared he => ?_
  cases a with
  | aside x =>
    rw [← Move.others.inj he]
    exact Section.waiting_apply (fun hx => ha (hx ▸ rfl)) fun hx => hf (hx ▸ rfl)
  | _ => cases he

lemma answered_concat : s.Answered t (acts ++ [a]) ↔
    a = .aside .fetch ∧ (s.run t acts).shared.Replies ∨ a ≠ .aside .await ∧ s.Answered t acts := by
  constructor
  · rintro ⟨before, after, he, hreply, hlast⟩
    obtain rfl | ⟨after, b, rfl⟩ := List.eq_nil_or_concat after
    · obtain ⟨rfl, ha⟩ := List.append_singleton_inj.mp he
      exact .inl ⟨ha, hreply⟩
    · rw [List.concat_eq_append] at he hlast
      rw [← List.cons_append, ← List.append_assoc] at he
      obtain ⟨rfl, rfl⟩ := List.append_singleton_inj.mp he
      rw [List.mem_append, List.mem_singleton, not_or] at hlast
      exact .inr ⟨Ne.symm hlast.2, before, after, rfl, hreply, hlast.1⟩
  · rintro (⟨rfl, hreply⟩ | ⟨ha, before, after, rfl, hreply, hlast⟩)
    · exact ⟨acts, [], rfl, hreply, List.not_mem_nil⟩
    · refine ⟨before, after ++ [a], by simp, hreply, ?_⟩
      rw [List.mem_append, List.mem_singleton, not_or]
      exact ⟨hlast, Ne.symm ha⟩

lemma waiting_run_iff (s : Workers σ) (acts : List (Act σ)) : (s.run t acts).shared.session.waiting = true ↔
    (s.shared.session.waiting = true ∨ .aside .await ∈ acts) ∧ ¬ s.Answered t acts := by
  induction acts using List.reverseRecOn with
  | nil =>
    have hnone : ¬ s.Answered t [] := by
      rintro ⟨before, after, he, -⟩
      simp at he
    simp [run, hnone]
  | append_singleton acts a ih =>
    rw [run_concat, answered_concat]
    by_cases ha : a = .aside .await
    · subst ha
      have hnew : ((s.run t acts).act t (.aside .await)).shared.session.waiting = true := rfl
      simp [hnew]
    by_cases hf : a = .aside .fetch
    · subst hf
      have hfetch : ((s.run t acts).act t (.aside .fetch)).shared = (s.run t acts).shared.fetch := rfl
      have hmem : (.aside .await : Act σ) ∈ acts ++ [.aside .fetch] ↔ .aside .await ∈ acts := by simp
      rw [hfetch, Controller.waiting_fetch, ih, hmem, not_or, and_assoc]
      simp [and_comm]
    · rw [waiting_act ha hf, ih]
      simp [ha, hf, Ne.symm ha]

lemma Gone.step (h : s.Gone n) (m : Move σ) : (s.step t m).Gone n := by
  have hpush : ∀ job : Job, n ∉ job.number?.toList → n ∉ (s.current.push job).numbers := fun job hjob => by
    rw [Worker.numbers_push, List.mem_append, not_or]
    exact ⟨h.current, hjob⟩
  have hstep := stepped t s m
  generalize s.step t m = s' at hstep ⊢
  cases hstep with
  | none => exact h
  | others shared => exact ⟨h.sent, h.unwritten, h.current, h.retired⟩
  | send hr request =>
    refine ⟨Nat.lt_succ_of_lt h.sent, h.unwritten, hpush _ ?_, h.retired⟩
    exact List.not_mem_cons_of_ne_of_not_mem (Nat.ne_of_lt h.sent) List.not_mem_nil
  | call hr c => exact ⟨h.sent, h.unwritten, hpush _ List.not_mem_nil, h.retired⟩
  | cancel hr => exact ⟨h.sent, h.unwritten, h.current, h.retired⟩
  | replace hr =>
    refine ⟨h.sent, h.unwritten, List.not_mem_nil, fun w hw => ?_⟩
    obtain hw | hw := List.mem_append.mp hw
    · exact h.retired w hw
    · exact List.mem_singleton.mp hw ▸ h.current
  | current =>
    obtain ⟨hwrote, hnumbers⟩ := Worker.notMem_step (t := t) h.current s.shared
    exact ⟨h.sent, fun hn => (List.mem_append.mp hn).elim h.unwritten hwrote, hnumbers, h.retired⟩
  | retired hw =>
    obtain ⟨hwrote, hnumbers⟩ := Worker.notMem_step (t := t) (h.retired _ (List.mem_of_getElem? hw)) s.shared
    refine ⟨h.sent, fun hn => (List.mem_append.mp hn).elim h.unwritten hwrote, h.current, fun w hw => ?_⟩
    obtain hw | rfl := List.mem_or_eq_of_mem_set hw
    · exact h.retired w hw
    · exact hnumbers

lemma Gone.run (h : s.Gone n) (acts : List (Act σ)) : (s.run t acts).Gone n := by
  induction acts generalizing s with
  | nil => exact h
  | cons a acts ih => exact ih (h.step (a.move t s))

lemma act_of_refused {e : SyncError} (h : s.submit (.delivery s.sent request) = .error e) :
    s.act t (.send request) = s := by
  rw [act, Act.move, step, h]
  split
  · rfl
  · rfl

lemma unanswerable_of_fails (h : s.Fails t request rest) : s.act t (.send request) = s ∨
    ∀ more, s.sent ∉ ((s.run t (.send request :: rest)).run t more).written := by
  cases h with
  | refused _ he => exact .inl (act_of_refused he)
  | lost _ _ hg => exact .inr fun more => (hg.run more).unwritten

end Workers

namespace Controller

variable {c : Controller σ} {request : String}

lemma waiting_endReaderOf (connection : Option ConnectionId) (c : Controller σ) :
    (c.endReaderOf t connection).session.waiting = c.session.waiting := by
  rw [endReaderOf]
  split
  · rw [endReader]
    split
    · rw [readerClose]
      split
      · rfl
      · rfl
    · rfl
  · rfl

lemma waiting_reconnect (request : String) (c : Controller σ) :
    (c.reconnect t request).2.session.waiting = c.session.waiting := by
  rw [reconnect]
  split
  · rfl
  · dsimp only
    split
    · exact waiting_endReaderOf _ _
    · exact waiting_endReaderOf _ _

lemma waiting_retry (request : String) (delays : List ℕ) (first : Except SyncError Unit × Controller σ) :
    (retry t request delays first).2.2.session.waiting = first.2.session.waiting := by
  induction delays generalizing first with
  | nil => rcases first with ⟨_ | _, c⟩ <;> rfl
  | cons delay delays ih =>
    rcases first with ⟨_ | _, c⟩
    · rw [retry]
      exact (ih _).trans (waiting_reconnect request c)
    · rfl

lemma waiting_deliverAnew (request : String) (c : Controller σ) :
    (c.deliverAnew t request).controller.session.waiting = c.session.waiting := by
  rw [deliverAnew]
  split
  · rfl
  · have hretry := (waiting_retry (t := t) request (c.onSession .beginReconnect).config.backoff.delaysMs _).trans
      (waiting_reconnect (t := t) request (c.onSession .beginReconnect))
    dsimp only
    split
    · rename_i he
      rw [he] at hretry
      exact hretry
    · rename_i he
      rw [he] at hretry
      exact hretry

lemma waiting_deliver (request : String) (c : Controller σ) :
    (c.deliver t request).controller.session.waiting = c.session.waiting := by
  have hwrite : (c.writeNow t request).2.session.waiting = c.session.waiting := by
    rw [writeNow]
    split
    · rfl
    · rfl
  rw [deliver]
  split
  · rename_i he
    rw [he] at hwrite
    exact hwrite
  · rename_i he
    rw [he] at hwrite
    exact (waiting_deliverAnew request _).trans hwrite

lemma waiting_send (code : String) (purpose : Purpose) (origin : Option BlockId) (c : Controller σ) :
    (c.send t code purpose origin true).controller.session.waiting = true :=
  waiting_deliver (wrapRequest code purpose origin) (c.onSession (·.setWaiting true))

end Controller

theorem failed_load_restores_wait_iff (t : Transport σ) :
    (∀ (c : Controller σ) (code : String) (purpose : Purpose) (origin : Option BlockId) (e : SyncError),
      (c.send t code purpose origin true).result = .error e →
      ((c.send t code purpose origin true).controller.session.waiting = c.session.waiting ↔
        c.session.waiting = true)) ∧
    ∀ (s : Workers σ) (between rest : List (Workers.Act σ)) (request : String),
      let asked := s.run t (.aside .await :: between)
      let acts := .aside .await :: (between ++ .send request :: rest)
      asked.Fails t request rest →
        ((s.run t acts).shared.session.waiting = s.shared.session.waiting ↔
          (s.shared.session.waiting = true ↔ ¬ s.Answered t acts)) ∧
        (asked.act t (.send request) = asked ∨ ∀ more, asked.sent ∉ (s.run t (acts ++ more)).written) := by
  refine ⟨fun c code purpose origin e _ => ?_, fun s between rest request => ?_⟩
  · rw [Controller.waiting_send]
    exact eq_comm
  · intro asked acts h
    have hover : ∀ more, s.run t (acts ++ more) = (asked.run t (.send request :: rest)).run t more := fun more => by
      have hacts : acts ++ more = .aside .await :: between ++ .send request :: rest ++ more := by simp [acts]
      rw [hacts, Workers.run_append, Workers.run_append]
    have hwaiting := Workers.waiting_run_iff (t := t) s acts
    refine ⟨?_, ?_⟩
    · rw [Bool.eq_iff_iff, hwaiting]
      simp [acts, iff_comm]
    · simpa only [hover] using Workers.unanswerable_of_fails h

def unselected : Controller SimDevice := .new {} {}

theorem failed_load_restores_wait_iff_skipped :
    let s : Workers SimDevice := .start unselected
    let acts : List (Workers.Act SimDevice) := [.aside .await, .send "(go)", .cancel, .current, .current]
    ((unselected.send SimDevice.transport "(go)" .load none true).controller.session.waiting ≠
      unselected.session.waiting) ∧
    ¬ s.Answered SimDevice.transport acts ∧
    ∀ more, 0 ∉ (s.run SimDevice.transport (acts ++ more)).written := by
  intro s acts
  obtain ⟨halone, hrun⟩ := failed_load_restores_wait_iff SimDevice.transport
  have hskipped : (s.run SimDevice.transport acts).Gone 0 :=
    ⟨by decide, by decide, by decide, fun w hw => absurd hw List.not_mem_nil⟩
  obtain ⟨hiff, hnever⟩ := hrun s [] [.cancel, .current, .current] "(go)" (.lost rfl rfl hskipped)
  refine ⟨fun he => ?_, ?_, hnever.resolve_left fun he => ?_⟩
  · exact absurd ((halone unselected "(go)" .load none .noDevice rfl).mp he) (by decide)
  · intro hanswered
    exact absurd (hiff.mpr (iff_of_false (by decide) fun hn => hn hanswered)) (by decide)
  · exact absurd (congrArg Workers.sent he) (by decide)

theorem load_without_device_awaited :
    (unselected.loadProject SimDevice.transport "(go)").result = .error .noDevice ∧
      unselected.session.waiting = false ∧
      (unselected.loadProject SimDevice.transport "(go)").controller.session.waiting = true :=
  ⟨rfl, rfl, rfl⟩

end BlockStudio
