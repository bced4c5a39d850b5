import BlockStudio.Proofs.Sync.QueueRun
import Mathlib.Data.List.Nodup
import Mathlib.Tactic.Lemma

/-! In whatever order a queue is used, its jobs run one after another in the order in which they were accepted. -/

namespace BlockStudio

namespace QueueRun

variable {T : Type} {s s' : QueueRun T} {spawned : Bool} {move : Move T} {log : List (Event T)} {e : Event T} {n : ℕ}

attribute [simp] Event.accepted? Event.started? Event.finished? Event.skipped?

@[simp]
lemma accepted_concat : accepted (log ++ [e]) = accepted log ++ e.accepted?.toList := by
  cases e <;> simp [accepted]

@[simp]
lemma started_concat : started (log ++ [e]) = started log ++ e.started?.toList := by
  cases e <;> simp [started]

@[simp]
lemma finished_concat : finished (log ++ [e]) = finished log ++ e.finished?.toList := by
  cases e <;> simp [finished]

@[simp]
lemma skipped_concat : skipped (log ++ [e]) = skipped log ++ e.skipped?.toList := by
  cases e <;> simp [skipped]

lemma mem_finished : n ∈ finished log ↔ ∃ v, .finished n v ∈ log := by
  rw [finished, List.mem_filterMap]
  constructor
  · rintro ⟨e, he, hn⟩
    cases e with
    | finished number v => exact ⟨v, Option.some.inj hn ▸ he⟩
    | _ => cases hn
  · exact fun ⟨v, h⟩ => ⟨_, h, rfl⟩

lemma mem_accepted_of_grown {log' : List (Event T)} (h : log <+: log') (hn : n ∈ accepted log) : n ∈ accepted log' :=
  (h.filterMap _).subset hn

lemma forall_split_concat {α : Type} {P : List α → α → Prop} {l : List α} {a : α}
    (h : ∀ before b rest, l = before ++ b :: rest → P before b) (ha : P l a) :
    ∀ before b rest, l ++ [a] = before ++ b :: rest → P before b := by
  intro before b rest he
  obtain rfl | ⟨rest', c, rfl⟩ := List.eq_nil_or_concat' rest
  · obtain ⟨rfl, hab⟩ := List.append_inj' he rfl
    exact (List.singleton_inj.mp hab) ▸ ha
  · rw [← List.cons_append, ← List.append_assoc] at he
    exact h before b rest' (List.append_inj' he rfl).1

inductive Stepped (s : QueueRun T) : Move T → QueueRun T → Prop
  | none {move : Move T} : Stepped s move s
  | accepted (hfree : s.caller = .free) (hopen : s.queue.closed = false) (hflag : s.queue.cancelled = false)
      (awaited : Bool) : Stepped s (.submit awaited)
        { s with
          queue := { s.queue with waiting := s.queue.waiting ++ [s.submitted] }
          submitted := s.submitted + 1
          replies := if awaited then Function.update s.replies s.submitted (some .awaited) else s.replies
          log := s.log ++ [.accepted s.submitted awaited] }
  | refused (hfree : s.caller = .free) (hshut : s.queue.closed = true ∨ s.queue.cancelled = true) (awaited : Bool) :
      Stepped s (.submit awaited)
        { s with submitted := s.submitted + 1, log := s.log ++ [.refused s.submitted .queueCancelled] }
  | received {n : ℕ} {rest : List ℕ} (hrunning : s.queue.running = none) (hreceived : s.queue.received = none)
      (hwaiting : s.queue.waiting = n :: rest) :
      Stepped s .receive { s with queue := { s.queue with waiting := rest, received := some n } }
  | started {n : ℕ} (hreceived : s.queue.received = some n) (hflag : s.queue.cancelled = false) :
      Stepped s .check
        { s with
          queue := { s.queue with received := none, running := some n }
          log := s.log ++ [.started n] }
  | skipped {n : ℕ} (hreceived : s.queue.received = some n) (hflag : s.queue.cancelled = true) :
      Stepped s .check
        { s.resolve n .dropped with queue := { s.queue with received := none }, log := s.log ++ [.skipped n] }
  | finished {n : ℕ} (hrunning : s.queue.running = some n) (v : T) : Stepped s (.finish v)
      { s.resolve n (.sent v) with queue := { s.queue with running := none }, log := s.log ++ [.finished n v] }
  | left (hstopped : s.queue.isStopped = true) : Stepped s .leave { s with left := true }
  | cancelled (hfree : s.caller = .free) : Stepped s .cancel
      { s with
        queue := { s.queue with cancelled := true }
        caller := .closing
        log := s.log ++ [.shutdown] }
  | closed (hclosing : s.caller = .closing) (hjoinable : s.joinable = true) : Stepped s .close
      { s with queue := { s.queue with closed := true }, joinable := false, caller := .waiting }
  | again (hclosing : s.caller = .closing) (hjoinable : s.joinable = false) : Stepped s .close
      { s with
        queue := { s.queue with closed := true }
        joinable := false
        caller := .free
        log := s.log ++ [.returned true] }
  | stopped (hwaiting : s.caller = .waiting) (hleft : s.left = true) : Stepped s .stopped
      { s with caller := .free, log := s.log ++ [.returned true] }
  | timedOut (hwaiting : s.caller = .waiting) : Stepped s .timedOut
      { s with caller := .free, log := s.log ++ [.returned false] }

lemma stepped (s : QueueRun T) (move : Move T) : s.Stepped move (s.step move) := by
  cases move with
  | submit awaited =>
    rw [step, TaskQueue.submit]
    split
    · rename_i hfree
      split
      · rename_i queue hqueue
        split at hqueue
        · cases hqueue
        · rename_i hshut
          obtain rfl := Except.ok.inj hqueue
          rw [Bool.or_eq_true, not_or, Bool.not_eq_true, Bool.not_eq_true] at hshut
          exact .accepted hfree hshut.1 hshut.2 awaited
      · rename_i e hqueue
        split at hqueue
        · rename_i hshut
          obtain rfl := Except.error.inj hqueue
          exact .refused hfree ((Bool.or_eq_true _ _).mp hshut) awaited
        · cases hqueue
    · exact .none
  | receive =>
    rw [step, TaskQueue.receive]
    split
    · exact .received ‹_› ‹_› ‹_›
    · exact .none
  | check =>
    rw [step]
    split
    · exact .none
    · rename_i n hreceived
      split
      · rename_i hflag
        simpa only [TaskQueue.check, if_pos hflag] using Stepped.skipped hreceived hflag
      · rename_i hflag
        simpa only [TaskQueue.check, if_neg hflag, hreceived] using
          Stepped.started hreceived (Bool.eq_false_iff.mpr hflag)
  | finish v =>
    rw [step]
    split
    · exact .none
    · exact .finished ‹_› v
  | leave =>
    rw [step]
    split
    · exact .left ‹_›
    · exact .none
  | cancel =>
    rw [step]
    split
    · exact .cancelled ‹_›
    · exact .none
  | close =>
    rw [step]
    split
    · dsimp only
      split
      · exact .closed ‹_› ‹_›
      · exact .again ‹_› (Bool.eq_false_iff.mpr ‹_›)
    · exact .none
  | stopped =>
    rw [step]
    split
    · rename_i h
      exact .stopped h.1 h.2
    · exact .none
  | timedOut =>
    rw [step]
    split
    · exact .timedOut ‹_›
    · exact .none

lemma Stepped.log_grows (h : s.Stepped move s') : s.log <+: s'.log := by
  cases h with
  | none | received | left | closed => exact List.prefix_refl _
  | _ => exact List.prefix_append _ _

structure Counted (s : QueueRun T) : Prop where
  accepted : started s.log ++ skipped s.log ++ s.queue.received.toList ++ s.queue.waiting = accepted s.log
  started : finished s.log ++ s.queue.running.toList = started s.log
  unskipped : s.queue.cancelled = false → skipped s.log = []
  idle : ∀ n, s.queue.received = some n → s.queue.running = none
  ascending : (QueueRun.accepted s.log).Pairwise (· < ·)
  submitted : ∀ n ∈ QueueRun.accepted s.log, n < s.submitted
  refused : ∀ n e, .refused n e ∈ s.log → n < s.submitted ∧ n ∉ QueueRun.accepted s.log

namespace Counted

lemma start : (start spawned : QueueRun T).Counted := by
  constructor <;> simp [QueueRun.start, QueueRun.accepted, QueueRun.started, finished, skipped]

lemma noted (h : s.Counted) {cancelled closed : Bool} (hflag : s.queue.cancelled = true → cancelled = true)
    (he : e = .shutdown ∨ ∃ stopped, e = .returned stopped) (caller : Caller) (joinable : Bool) :
    Counted
      { s with queue := { s.queue with cancelled, closed }, caller, joinable, log := s.log ++ [e] } := by
  have hunskipped (hf : cancelled = false) : skipped s.log = [] :=
    h.unskipped (Bool.eq_false_iff.mpr fun ht => Bool.false_ne_true (hf.symm.trans (hflag ht)))
  obtain rfl | ⟨stopped, rfl⟩ := he
  all_goals
    refine ⟨?_, ?_, ?_, h.idle, ?_, ?_, ?_⟩
    · simpa using h.accepted
    · simpa using h.started
    · simpa using hunskipped
    · simpa using h.ascending
    · simpa using h.submitted
    · simpa using h.refused

lemma step (h : s.Counted) (hs : s.Stepped move s') : s'.Counted := by
  have ⟨haccepted, hstarted, hunskipped, hidle, hascending, hsubmitted, hrefused⟩ := h
  cases hs with
  | none | left | closed => exact ⟨haccepted, hstarted, hunskipped, hidle, hascending, hsubmitted, hrefused⟩
  | accepted hfree hopen hflag awaited =>
    refine ⟨?_, ?_, ?_, hidle, ?_, ?_, ?_⟩
    · simp [← haccepted]
    · simpa using hstarted
    · simpa using hunskipped
    · simpa [List.pairwise_append] using ⟨hascending, hsubmitted⟩
    · simp only [accepted_concat, Event.accepted?, Option.toList_some, List.mem_append, List.mem_singleton]
      rintro n (hn | rfl)
      · exact Nat.lt_succ_of_lt (hsubmitted n hn)
      · exact Nat.lt_succ_self _
    · simp only [accepted_concat, Event.accepted?, Option.toList_some, List.mem_append, List.mem_singleton,
        reduceCtorEq, or_false]
      intro n e hn
      obtain ⟨hlt, hnot⟩ := hrefused n e hn
      exact ⟨Nat.lt_succ_of_lt hlt, not_or.mpr ⟨hnot, Nat.ne_of_lt hlt⟩⟩
  | refused hfree hshut awaited =>
    refine ⟨?_, ?_, ?_, hidle, ?_, ?_, ?_⟩
    · simpa using haccepted
    · simpa using hstarted
    · simpa using hunskipped
    · simpa using hascending
    · simpa using fun n hn => Nat.lt_succ_of_lt (hsubmitted n hn)
    · simp only [accepted_concat, Event.accepted?, Option.toList_none, List.append_nil, List.mem_append,
        List.mem_singleton, Event.refused.injEq]
      rintro n e (hn | ⟨rfl, -⟩)
      · exact ⟨Nat.lt_succ_of_lt (hrefused n e hn).1, (hrefused n e hn).2⟩
      · exact ⟨Nat.lt_succ_self _, fun hn => Nat.lt_irrefl _ (hsubmitted _ hn)⟩
  | received hrunning hreceived hwaiting =>
    refine ⟨?_, hstarted, hunskipped, fun _ _ => hrunning, hascending, hsubmitted, hrefused⟩
    simpa [hreceived, hwaiting] using haccepted
  | started hreceived hflag =>
    refine ⟨?_, ?_, ?_, ?_, ?_, ?_, ?_⟩
    · simpa [hreceived, hunskipped hflag] using haccepted
    · simpa [hidle _ hreceived] using hstarted
    · simpa using hunskipped
    · simp
    · simpa using hascending
    · simpa using hsubmitted
    · simpa using hrefused
  | skipped hreceived hflag =>
    refine ⟨?_, ?_, ?_, ?_, ?_, ?_, ?_⟩
    · simpa [resolve, hreceived] using haccepted
    · simpa using hstarted
    · simp [hflag]
    · simp
    · simpa using hascending
    · simpa [resolve] using hsubmitted
    · simpa [resolve] using hrefused
  | finished hrunning v =>
    refine ⟨?_, ?_, ?_, fun _ _ => rfl, ?_, ?_, ?_⟩
    · simpa using haccepted
    · simpa [hrunning] using hstarted
    · simpa using hunskipped
    · simpa using hascending
    · simpa [resolve] using hsubmitted
    · simpa [resolve] using hrefused
  | cancelled hfree => exact h.noted (fun _ => rfl) (.inl rfl) _ _
  | again | stopped | timedOut => exact h.noted id (.inr ⟨_, rfl⟩) _ _

lemma after (h : s.Counted) (moves : List (Move T)) : (s.after moves).Counted := by
  induction moves generalizing s with
  | nil => exact h
  | cons move moves ih => exact ih (h.step (stepped s move))

section

variable (h : s.Counted)

include h

lemma nodup : (QueueRun.accepted s.log).Nodup := h.ascending.imp Nat.ne_of_lt

lemma started_inOrder : QueueRun.started s.log <+: QueueRun.accepted s.log := by
  rw [← h.accepted, List.append_assoc, List.append_assoc]
  exact List.prefix_append _ _

lemma nodup_started : (QueueRun.started s.log).Nodup := h.nodup.sublist h.started_inOrder.sublist

lemma accepted_of_finished (hn : n ∈ finished s.log) : n ∈ QueueRun.accepted s.log := by
  rw [← h.accepted, ← h.started]
  simp [hn]

lemma accepted_of_skipped (hn : n ∈ skipped s.log) : n ∈ QueueRun.accepted s.log := by
  rw [← h.accepted]
  simp [hn]

lemma not_started_of_skipped (hn : n ∈ skipped s.log) : n ∉ QueueRun.started s.log := by
  have hnodup := h.nodup
  rw [← h.accepted, List.append_assoc, List.append_assoc] at hnodup
  exact fun hstarted => List.disjoint_of_nodup_append hnodup hstarted (List.mem_append_left _ hn)

lemma started_of_finished (hn : n ∈ finished s.log) : n ∈ QueueRun.started s.log := by
  rw [← h.started]
  exact List.mem_append_left _ hn

lemma finished_or_running (hn : n ∈ QueueRun.started s.log) : n ∈ finished s.log ∨ s.queue.running = some n := by
  rw [← h.started, List.mem_append] at hn
  exact hn.imp_right Option.mem_toList.mp

lemma started_of_running (hn : s.queue.running = some n) : n ∈ QueueRun.started s.log := by
  rw [← h.started, hn]
  simp

lemma not_finished_of_running (hn : s.queue.running = some n) : n ∉ finished s.log := by
  have hnodup := h.nodup_started
  rw [← h.started, hn] at hnodup
  exact fun hfinished => List.disjoint_of_nodup_append hnodup hfinished (List.mem_singleton_self n)

lemma not_started_of_received (hn : s.queue.received = some n) :
    n ∉ QueueRun.started s.log ∧ n ∉ skipped s.log := by
  have hnodup := h.nodup
  rw [← h.accepted, hn] at hnodup
  have hdisjoint := List.disjoint_of_nodup_append (List.nodup_append.mp hnodup).1
  exact ⟨fun hstarted => hdisjoint (List.mem_append_left _ hstarted) (List.mem_singleton_self n),
    fun hskipped => hdisjoint (List.mem_append_right _ hskipped) (List.mem_singleton_self n)⟩

lemma over_of_idle (hreceived : s.queue.received = none) (hrunning : s.queue.running = none)
    (hwaiting : s.queue.waiting = []) (hn : n ∈ QueueRun.accepted s.log) : n ∈ finished s.log ∨ n ∈ skipped s.log := by
  rw [← h.accepted, ← h.started, hreceived, hrunning, hwaiting] at hn
  simpa using hn

lemma running_step (hs : s.Stepped move s') (hmove : ∀ v, move ≠ .finish v) (hn : s.queue.running = some n) :
    s'.queue.running = some n := by
  cases hs with
  | started hreceived hflag => exact absurd (h.idle _ hreceived) (by simp [hn])
  | finished hrunning v => exact absurd rfl (hmove v)
  | _ => exact hn

lemma running_after {others : List (Move T)} (hothers : ∀ v, .finish v ∉ others) (hn : s.queue.running = some n) :
    (s.after others).queue.running = some n := by
  induction others generalizing s with
  | nil => exact hn
  | cons move others ih =>
    have hmove (v : T) : move ≠ .finish v := fun he => hothers v (he ▸ List.mem_cons_self)
    exact ih (h.step (stepped s move)) (fun v hv => hothers v (List.mem_cons_of_mem _ hv))
      (h.running_step (stepped s move) hmove hn)

lemma finishes {others : List (Move T)} (hothers : ∀ v, .finish v ∉ others) (hn : s.queue.running = some n) (v : T) :
    .finished n v ∈ (s.after (others ++ [.finish v])).log := by
  have hrunning := h.running_after hothers hn
  rw [QueueRun.after, List.foldl_append]
  change Event.finished n v ∈ ((s.after others).step (.finish v)).log
  simp only [QueueRun.step, hrunning]
  exact List.mem_append_right _ (List.mem_singleton_self _)

end

end Counted

structure Flagged (spawned : Bool) (s : QueueRun T) : Prop where
  cancelled : s.queue.cancelled = true ↔ .shutdown ∈ s.log
  closed : s.queue.closed = true → spawned = true → .shutdown ∈ s.log
  unspawned : spawned = false → s.queue.closed = true
  closing : s.caller = .closing → .shutdown ∈ s.log
  left : s.left = true → s.queue.isStopped = true
  joined : s.joinable = false → spawned = true → s.caller = .waiting ∨ ∃ stopped, .returned stopped ∈ s.log

lemma isStopped_iff {J : Type} {q : TaskQueue J} : q.isStopped = true ↔
    q.closed = true ∧ q.waiting = [] ∧ q.received = none ∧ q.running = none := by
  simp [TaskQueue.isStopped, and_assoc]

namespace Flagged

lemma start : (start spawned : QueueRun T).Flagged spawned := by
  constructor <;> cases spawned <;> simp [QueueRun.start]

lemma step (h : s.Flagged spawned) (hs : s.Stepped move s') : s'.Flagged spawned := by
  obtain ⟨hcancelled, hclosed, hunspawned, hclosing, hleft, hjoined⟩ := h
  cases hs with
  | none => exact ⟨hcancelled, hclosed, hunspawned, hclosing, hleft, hjoined⟩
  | accepted hfree hopen hflag awaited =>
    refine ⟨by simpa using hcancelled, by simpa using hclosed, hunspawned, by simpa using hclosing, fun hl => ?_,
      by simpa using hjoined⟩
    exact absurd (isStopped_iff.mp (hleft hl)).1 (by simp [hopen])
  | refused hfree hshut awaited =>
    exact ⟨by simpa using hcancelled, by simpa using hclosed, hunspawned, by simpa using hclosing, hleft,
      by simpa using hjoined⟩
  | received hrunning hreceived hwaiting =>
    refine ⟨hcancelled, hclosed, hunspawned, hclosing, fun hl => ?_, hjoined⟩
    exact absurd (isStopped_iff.mp (hleft hl)).2.1 (by simp [hwaiting])
  | started hreceived hflag | skipped hreceived hflag =>
    refine ⟨by simpa using hcancelled, by simpa using hclosed, hunspawned, by simpa [resolve] using hclosing,
      fun hl => ?_, by simpa [resolve] using hjoined⟩
    exact absurd (isStopped_iff.mp (hleft hl)).2.2.1 (by simp [hreceived])
  | finished hrunning v =>
    refine ⟨by simpa using hcancelled, by simpa using hclosed, hunspawned, by simpa [resolve] using hclosing,
      fun hl => ?_, by simpa [resolve] using hjoined⟩
    exact absurd (isStopped_iff.mp (hleft hl)).2.2.2 (by simp [hrunning])
  | left hstopped => exact ⟨hcancelled, hclosed, hunspawned, hclosing, fun _ => hstopped, hjoined⟩
  | cancelled hfree =>
    refine ⟨by simp, by simp, hunspawned, by simp, fun hl => ?_, fun hj hw => ?_⟩
    · exact isStopped_iff.mpr (isStopped_iff.mp (hleft hl))
    · simpa using (hjoined hj hw).resolve_left (by simp [hfree])
  | closed hcalled hjoinable =>
    refine ⟨hcancelled, fun _ _ => hclosing hcalled, fun _ => rfl, nofun, fun hl => ?_, fun _ _ => .inl rfl⟩
    exact isStopped_iff.mpr ⟨rfl, (isStopped_iff.mp (hleft hl)).2⟩
  | again hcalled hjoinable =>
    refine ⟨by simpa using hcancelled, fun _ _ => by simpa using hclosing hcalled, fun _ => rfl, nofun, fun hl => ?_,
      fun _ _ => by simp⟩
    exact isStopped_iff.mpr ⟨rfl, (isStopped_iff.mp (hleft hl)).2⟩
  | stopped | timedOut =>
    exact ⟨by simpa using hcancelled, by simpa using hclosed, hunspawned, nofun, hleft, fun _ _ => by simp⟩

lemma not_shutdown (h : s.Flagged spawned) (hflag : s.queue.cancelled = false) : .shutdown ∉ s.log := by
  rw [← h.cancelled, hflag]
  exact Bool.false_ne_true

lemma spawned_of_open (h : s.Flagged spawned) (hopen : s.queue.closed = false) : spawned = true := by
  cases spawned with
  | true => rfl
  | false => exact absurd (h.unspawned rfl) (by simp [hopen])

end Flagged

structure Told (s : QueueRun T) : Prop where
  opened : ∀ n, .accepted n true ∈ s.log → ∃ reply, s.replies n = some reply
  sent : ∀ n reply, s.replies n = some reply → ∀ v, .finished n v ∈ s.log ↔ reply = .sent v
  dropped : ∀ n reply, s.replies n = some reply → (n ∈ skipped s.log ↔ reply = .dropped)

namespace Told

lemma start : (start spawned : QueueRun T).Told := by
  constructor <;> simp [QueueRun.start]

lemma resolve_ne {m : ℕ} {reply : Reply T} (hne : m ≠ n) : (s.resolve n reply).replies m = s.replies m :=
  Function.update_of_ne hne _ _

lemma exists_resolve {m : ℕ} {reply reply' : Reply T} (h : s.replies m = some reply') :
    ∃ reply'', (s.resolve n reply).replies m = some reply'' := by
  by_cases hm : m = n
  · subst hm
    exact ⟨reply, by simp only [resolve, Function.update_self, h, Option.map_some]⟩
  · exact ⟨reply', (resolve_ne hm).trans h⟩

lemma eq_of_resolve {reply reply' : Reply T} (h : (s.resolve n reply).replies n = some reply') : reply' = reply := by
  simp only [resolve, Function.update_self] at h
  obtain ⟨_, -, he⟩ := Option.map_eq_some_iff.mp h
  exact he.symm

lemma replied (h : s.Told) (k : ℕ) (reply : Reply T)
    (hopened : ∀ n, .accepted n true ∈ s'.log → ∃ reply', s'.replies n = some reply')
    (hothers : ∀ n, n ≠ k → s'.replies n = s.replies n ∧ (∀ v, .finished n v ∈ s'.log ↔ .finished n v ∈ s.log) ∧
      (n ∈ skipped s'.log ↔ n ∈ skipped s.log))
    (hreply : ∀ reply', s'.replies k = some reply' → reply' = reply)
    (hsent : ∀ v, .finished k v ∈ s'.log ↔ reply = .sent v) (hdropped : k ∈ skipped s'.log ↔ reply = .dropped) :
    s'.Told := by
  refine ⟨hopened, fun n reply' hr v => ?_, fun n reply' hr => ?_⟩
  · by_cases he : n = k
    · subst he
      obtain rfl := hreply reply' hr
      exact hsent v
    · obtain ⟨hsame, hfinished, -⟩ := hothers n he
      exact (hfinished v).trans (h.sent n reply' (hsame.symm.trans hr) v)
  · by_cases he : n = k
    · subst he
      obtain rfl := hreply reply' hr
      exact hdropped
    · obtain ⟨hsame, -, hskipped⟩ := hothers n he
      exact hskipped.trans (h.dropped n reply' (hsame.symm.trans hr))

lemma step (h : s.Told) (hcounted : s.Counted) (hs : s.Stepped move s') : s'.Told := by
  have ⟨hopened, hsent, hdropped⟩ := h
  cases hs with
  | none | received | left | closed => exact ⟨hopened, hsent, hdropped⟩
  | refused | started | cancelled | again | stopped | timedOut =>
    exact ⟨by simpa using hopened, by simpa using hsent, by simpa using hdropped⟩
  | accepted hfree hopen hflag awaited =>
    cases awaited with
    | false => exact ⟨by simpa using hopened, by simpa using hsent, by simpa using hdropped⟩
    | true =>
      have hnew : s.submitted ∉ QueueRun.accepted s.log := fun hn => Nat.lt_irrefl _ (hcounted.submitted _ hn)
      have hfinished (v : T) : .finished s.submitted v ∉ s.log := fun hv =>
        hnew (hcounted.accepted_of_finished (mem_finished.mpr ⟨v, hv⟩))
      have hskipped : s.submitted ∉ skipped s.log := fun hn => hnew (hcounted.accepted_of_skipped hn)
      refine h.replied s.submitted .awaited (fun n hn => ?_) (fun n he => ?_) ?_ (fun v => ?_) ?_
      · by_cases he : n = s.submitted
        · exact ⟨.awaited, by simp [he]⟩
        · simpa [he] using hopened n (by simpa [he] using hn)
      · simp [he]
      · simp
      · simpa using hfinished v
      · simpa using hskipped
  | @skipped k hreceived hflag =>
    have hk := hcounted.not_started_of_received hreceived
    have hfinished (v : T) : .finished k v ∉ s.log := fun hv =>
      hk.1 (hcounted.started_of_finished (mem_finished.mpr ⟨v, hv⟩))
    refine h.replied k .dropped (fun n hn => ?_) (fun n he => ⟨resolve_ne he, by simp, by simp [he]⟩)
      (fun _ => eq_of_resolve) (fun v => ?_) (by simp)
    · obtain ⟨reply, hreply⟩ := hopened n (by simpa using hn)
      exact exists_resolve hreply
    · simpa using hfinished v
  | @finished k hrunning value =>
    have hfinished (v : T) : .finished k v ∉ s.log := fun hv =>
      hcounted.not_finished_of_running hrunning (mem_finished.mpr ⟨v, hv⟩)
    have hskipped : k ∉ skipped s.log := fun hn =>
      hcounted.not_started_of_skipped hn (hcounted.started_of_running hrunning)
    refine h.replied k (.sent value) (fun n hn => ?_) (fun n he => ⟨resolve_ne he, by simp [he], by simp⟩)
      (fun _ => eq_of_resolve) (fun v => ?_) (by simpa using hskipped)
    · obtain ⟨reply, hreply⟩ := hopened n (by simpa using hn)
      exact exists_resolve hreply
    · simp [hfinished, eq_comm]

lemma resolves (h : s.Told) (hcounted : s.Counted) {reply : Reply T} (hr : s.replies n = some reply) :
    Resolves s.log n reply := by
  have hvalue (v : T) : reply.wait = some (.ok v) ↔ .finished n v ∈ s.log := by
    rw [h.sent n reply hr v]
    cases reply <;> simp [Reply.wait]
  have herror (e : SyncError) : reply.wait = some (.error e) ↔ e = .queueCancelled ∧ n ∈ skipped s.log := by
    rw [h.dropped n reply hr]
    cases reply <;> simp [Reply.wait, eq_comm]
  have hran (hover : n ∈ finished s.log ∨ n ∈ skipped s.log) : n ∈ finished s.log ↔ n ∈ QueueRun.started s.log :=
    ⟨hcounted.started_of_finished,
      fun hn => hover.resolve_right fun hskipped => hcounted.not_started_of_skipped hskipped hn⟩
  refine ⟨hvalue, herror, fun hover => ?_, fun hover => ?_⟩
  · simp only [hvalue]
    exact mem_finished.symm.trans (hran hover)
  · rw [herror, ← hran hover]
    constructor
    · exact fun hs hn => hcounted.not_started_of_skipped hs.2 ((hran hover).mp hn)
    · exact fun hn => ⟨rfl, hover.resolve_left hn⟩

end Told

lemma exists_event (hcounted : s.Counted) (hflagged : s.Flagged spawned) (hs : s.Stepped move s') :
    s'.log = s.log ∨ ∃ e, s'.log = s.log ++ [e] ∧ Fits spawned s.log e := by
  cases hs with
  | none | received | left | closed => exact .inl rfl
  | accepted hfree hopen hflag awaited =>
    exact .inr ⟨_, rfl, hflagged.spawned_of_open hopen, hflagged.not_shutdown hflag⟩
  | refused hfree hshut awaited =>
    refine .inr ⟨_, rfl, rfl, fun hspawned => ?_⟩
    obtain hclosed | hflag := hshut
    · exact hflagged.closed hclosed hspawned
    · exact hflagged.cancelled.mp hflag
  | started hreceived hflag =>
    refine .inr ⟨_, rfl, hflagged.not_shutdown hflag, fun m hm => ?_⟩
    exact (hcounted.finished_or_running hm).resolve_right (by simp [hcounted.idle _ hreceived])
  | skipped hreceived hflag => exact .inr ⟨_, rfl, hflagged.cancelled.mp hflag⟩
  | finished hrunning v =>
    exact .inr ⟨_, rfl, hcounted.started_of_running hrunning, hcounted.not_finished_of_running hrunning⟩
  | cancelled hfree => exact .inr ⟨_, rfl, trivial⟩
  | again hclosing hjoinable =>
    refine .inr ⟨_, rfl, fun _ hspawned hnone => ?_⟩
    -- who does not wait is not the first
    obtain hwaiting | ⟨stopped, hstopped⟩ := hflagged.joined hjoinable hspawned
    · rw [hclosing] at hwaiting
      cases hwaiting
    · exact absurd hstopped (hnone stopped)
  | stopped hwaiting hleft =>
    refine .inr ⟨_, rfl, fun _ _ _ n hn => ?_⟩
    obtain ⟨-, hnil, hreceived, hrunning⟩ := isStopped_iff.mp (hflagged.left hleft)
    exact hcounted.over_of_idle hreceived hrunning hnil hn
  | timedOut hwaiting => exact .inr ⟨_, rfl, nofun⟩

structure Kept (spawned : Bool) (s : QueueRun T) : Prop where
  counted : s.Counted
  flagged : s.Flagged spawned
  told : s.Told
  fits : ∀ before e rest, s.log = before ++ e :: rest → Fits spawned before e

namespace Kept

lemma start : (start spawned : QueueRun T).Kept spawned := ⟨.start, .start, .start, by simp [QueueRun.start]⟩

lemma step (h : s.Kept spawned) (hs : s.Stepped move s') : s'.Kept spawned where
  counted := h.counted.step hs
  flagged := h.flagged.step hs
  told := h.told.step h.counted hs
  fits := by
    obtain he | ⟨e, he, hfits⟩ := exists_event h.counted h.flagged hs
    · exact he ▸ h.fits
    · exact he ▸ forall_split_concat h.fits hfits

lemma after (h : s.Kept spawned) (moves : List (Move T)) : (s.after moves).Kept spawned := by
  induction moves generalizing s with
  | nil => exact h
  | cons move moves ih => exact ih (h.step (stepped s move))

end Kept

def remaining (s : QueueRun T) : ℕ :=
  3 * s.queue.waiting.length + 2 * s.queue.received.toList.length + s.queue.running.toList.length

lemma remaining_next (s : QueueRun T) (v : T) : (s.step (s.next v)).remaining ≤ s.remaining - 1 := by
  cases hrunning : s.queue.running with
  | some n => simp [next, hrunning, step, resolve, remaining, TaskQueue.finish]
  | none =>
    cases hreceived : s.queue.received with
    | some n =>
      simp only [next, hrunning, hreceived, step, Option.isSome_none, Option.isSome_some, if_true, if_false,
        Bool.false_eq_true]
      split
      · rename_i hflag
        simp [remaining, TaskQueue.check, hflag, hrunning, hreceived]
      · rename_i hflag
        simp [remaining, TaskQueue.check, hflag, hrunning, hreceived]
    | none =>
      cases hwaiting : s.queue.waiting with
      | nil => simp [next, hrunning, hreceived, hwaiting, step, remaining, TaskQueue.receive]
      | cons n rest =>
        simp [next, hrunning, hreceived, hwaiting, step, remaining, TaskQueue.receive]
        omega

lemma remaining_work (s : QueueRun T) (values : List T) : (s.work values).remaining ≤ s.remaining - values.length := by
  induction values generalizing s with
  | nil => exact Nat.le_refl _
  | cons v values ih =>
    have hnext := remaining_next s v
    have hrest := ih (s.step (s.next v))
    rw [List.length_cons]
    change ((s.step (s.next v)).work values).remaining ≤ _
    omega

lemma exists_work_eq_after (s : QueueRun T) (values : List T) : ∃ moves, s.work values = s.after moves := by
  induction values generalizing s with
  | nil => exact ⟨[], rfl⟩
  | cons v values ih =>
    obtain ⟨moves, hmoves⟩ := ih (s.step (s.next v))
    exact ⟨s.next v :: moves, hmoves⟩

lemma log_grows_after (s : QueueRun T) (moves : List (Move T)) : s.log <+: (s.after moves).log := by
  induction moves generalizing s with
  | nil => exact List.prefix_refl _
  | cons move moves ih => exact (stepped s move).log_grows.trans (ih (s.step move))

lemma Counted.served (h : s.Counted) {values : List T} (hlength : 3 * s.queue.waiting.length + 2 ≤ values.length)
    (hn : n ∈ QueueRun.accepted s.log) : n ∈ finished (s.work values).log ∨ n ∈ skipped (s.work values).log := by
  have hbound : s.remaining ≤ 3 * s.queue.waiting.length + 2 := by
    rw [remaining]
    cases hreceived : s.queue.received with
    | none => cases s.queue.running <;> simp
    | some k => simp [h.idle k hreceived]
  have hwork := remaining_work s values
  have hdone : (s.work values).remaining = 0 := by omega
  obtain ⟨moves, hmoves⟩ := exists_work_eq_after s values
  rw [hmoves] at hdone ⊢
  simp only [remaining, Nat.add_eq_zero_iff, Nat.mul_eq_zero, reduceCtorEq, false_or, List.length_eq_zero_iff,
    Option.toList_eq_nil_iff] at hdone
  obtain ⟨⟨hwaiting, hreceived⟩, hrunning⟩ := hdone
  exact (h.after moves).over_of_idle hreceived hrunning hwaiting (mem_accepted_of_grown (log_grows_after s moves) hn)

lemma step_submit (hfree : s.caller = .free) (hopen : s.queue.closed = false) (hflag : s.queue.cancelled = false)
    (awaited : Bool) : (s.step (.submit awaited)).log = s.log ++ [.accepted s.submitted awaited] := by
  simp only [step, if_pos hfree, TaskQueue.submit, hopen, hflag, Bool.or_self, Bool.false_eq_true, if_false]

lemma step_submit_of_shut (hfree : s.caller = .free) (hshut : s.queue.closed = true ∨ s.queue.cancelled = true)
    (awaited : Bool) : (s.step (.submit awaited)).log = s.log ++ [.refused s.submitted .queueCancelled] := by
  simp only [step, if_pos hfree, TaskQueue.submit, (Bool.or_eq_true _ _).mpr hshut, if_true]

theorem jobs_run_in_order (spawned : Bool) (moves : List (Move T)) :
    ((start spawned).after moves).Orderly spawned := by
  have h : ((start spawned).after moves).Kept spawned := Kept.start.after moves
  refine ⟨h.counted.started_inOrder, h.counted.nodup_started, h.fits, fun n e hn hs => ?_,
    fun n => h.counted.not_started_of_skipped, fun n hn => ?_, fun hfree hspawned hshut => ?_, fun hfree hshut => ?_,
    fun n hn => ?_, fun values hlength n => h.counted.served hlength⟩
  · exact (h.counted.refused n e hn).2 (h.counted.started_inOrder.subset hs)
  · obtain hfinished | hrunning := h.counted.finished_or_running hn
    · exact .inl hfinished
    · exact .inr fun others hothers => h.counted.finishes hothers hrunning
  · refine step_submit hfree ?_ ?_
    · exact Bool.eq_false_iff.mpr fun hclosed => hshut (h.flagged.closed hclosed hspawned)
    · exact Bool.eq_false_iff.mpr fun hflag => hshut (h.flagged.cancelled.mp hflag)
  · refine step_submit_of_shut hfree ?_
    cases spawned with
    | false => exact .inl (h.flagged.unspawned rfl)
    | true => exact .inr (h.flagged.cancelled.mpr (hshut rfl))
  · obtain ⟨reply, hreply⟩ := h.told.opened n hn
    exact ⟨reply, hreply, h.told.resolves h.counted hreply⟩

end QueueRun

end BlockStudio
