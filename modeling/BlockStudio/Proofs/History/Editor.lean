import BlockStudio.History.Simulated
import BlockStudio.Proofs.History.Travel

namespace BlockStudio

structure Editor (σ τ : Type) where
  saver : AutoSaver
  state : σ
  disk : τ

namespace Editor

open AutoSaver

inductive Act (σ : Type) where
  | edit (now : ℕ) (state : σ)
  | checkpoint
  /-- A snapshot is taken elsewhere and handed to the history. -/
  | noteSnapshot
  | travel (now : ℕ) (dir : Direction)
  | save (path : String)

variable {σ τ : Type} (store : Store σ) (sink : SaveSink τ)

def run (e : Editor σ τ) : Act σ → Editor σ τ × Except HistoryError Unit
  | .edit now state => ({ e with saver := e.saver.markChanged now, state }, .ok ())
  | .checkpoint =>
    let (saver, outcome) := e.saver.checkpoint store e.state
    ({ e with saver }, outcome.map fun _ => ())
  | .noteSnapshot =>
    match store.snapshot e.state with
    | .error err => (e, .error err)
    | .ok text => ({ e with saver := (e.saver.onSnapshot text).1 }, .ok ())
  | .travel now dir =>
    match e.saver.travel store now dir e.state with
    | (saver, .error err) => ({ e with saver }, .error err)
    | (saver, .ok stepped) => ({ e with saver, state := stepped.state }, .ok ())
  | .save path =>
    let (saver, disk, outcome) := e.saver.save store sink path e.state e.disk
    ({ e with saver, disk }, outcome)

def after (acts : List (Act σ)) (e : Editor σ τ) : Editor σ τ := acts.foldl (fun e act => (e.run store sink act).1) e

def all? (e : Editor σ τ) : List (Act σ) → Except HistoryError (Editor σ τ)
  | [] => .ok e
  | act :: acts =>
    match e.run store sink act with
    | (_, .error err) => .error err
    | (e, .ok _) => e.all? acts

def undos (times : List ℕ) : List (Act σ) := times.map fun now => .travel now .back

def redos (times : List ℕ) : List (Act σ) := times.map fun now => .travel now .forward

variable {store sink} {e e' : Editor σ τ} {config : AutoSaveConfig} {act : Act σ}

lemma run_travel_cases (store : Store σ) (sink : SaveSink τ) (e : Editor σ τ) (now : ℕ) (dir : Direction) :
    (∃ err, e.run store sink (.travel now dir) =
        ({ e with saver := (e.saver.checkpoint store e.state).1 }, .error err)) ∨
      ∃ s recorded i entry state, e.saver.checkpoint store e.state = (s, .ok recorded) ∧ s.target dir = some i ∧
        s.entries[i]? = some entry ∧ store.restore entry e.state = .ok state ∧
        e.run store sink (.travel now dir) = ({ e with saver := s.moveTo now i, state }, .ok ()) := by
  obtain ⟨err, he⟩ | ⟨s, recorded, i, entry, state, hc, htarget, hentry, hrestore, he⟩ :=
    travel_cases store now dir e.state e.saver
  · exact .inl ⟨err, by rw [run, he]⟩
  · exact .inr ⟨s, recorded, i, entry, state, hc, htarget, hentry, hrestore, by rw [run, he]⟩

lemma run_save_cases (store : Store σ) (sink : SaveSink τ) (e : Editor σ τ) (path : String) :
    (∃ err, store.snapshot e.state = .error err ∧ e.run store sink (.save path) = (e, .error err)) ∨
      ∃ contents, store.snapshot e.state = .ok contents ∧
        ((∃ message, (sink.write path contents e.disk).1 = .error message ∧ e.run store sink (.save path) =
            ({ e with saver := (e.saver.saveFailed path message).1, disk := (sink.write path contents e.disk).2 },
              .error (e.saver.saveFailed path message).2)) ∨
          (sink.write path contents e.disk).1 = .ok () ∧ e.run store sink (.save path) =
            ({ e with saver := e.saver.saveSucceeded, disk := (sink.write path contents e.disk).2 }, .ok ())) := by
  cases hs : store.snapshot e.state with
  | error err => exact .inl ⟨err, rfl, by simp only [run, AutoSaver.save, hs]⟩
  | ok contents =>
    refine .inr ⟨contents, rfl, ?_⟩
    rcases hw : sink.write path contents e.disk with ⟨written, disk⟩
    cases written with
    | error message => exact .inl ⟨message, rfl, by simp only [run, AutoSaver.save, hs, hw, finishSave]⟩
    | ok _ => exact .inr ⟨rfl, by simp only [run, AutoSaver.save, hs, hw, finishSave]⟩

lemma run_save_frame (store : Store σ) (sink : SaveSink τ) (e : Editor σ τ) (path : String) :
    ∃ required failures disk outcome, e.run store sink (.save path) =
      ({ e with saver := { e.saver with saveRequired := required, failures }, disk }, outcome) := by
  obtain ⟨err, -, he⟩ | ⟨contents, -, ⟨message, -, he⟩ | ⟨-, he⟩⟩ := run_save_cases store sink e path
  · exact ⟨e.saver.saveRequired, e.saver.failures, e.disk, .error err, he⟩
  · exact ⟨e.saver.saveRequired, e.saver.failures + 1, _, _, he⟩
  · exact ⟨false, 0, _, .ok (), he⟩

lemma tracks_run (sink : SaveSink τ) (hf : store.Faithful) (h : Tracks store config e.state e.saver) (act : Act σ) :
    Tracks store config (e.run store sink act).1.state (e.run store sink act).1.saver := by
  cases act with
  | edit now state => exact h.edit now state
  | checkpoint => exact h.checkpoint
  | noteSnapshot =>
    rw [run]
    cases hs : store.snapshot e.state with
    | error err => exact h
    | ok text => exact h.onSnapshot hs
  | travel now dir =>
    obtain ⟨err, he⟩ | ⟨s, recorded, i, entry, state, hc, -, hentry, hrestore, he⟩ :=
      run_travel_cases store sink e now dir
    · rw [he]
      exact h.checkpoint
    · have hs : Tracks store config e.state s := by simpa only [hc] using h.checkpoint
      have hwritten := hs.written entry (List.mem_of_getElem? hentry)
      rw [he]
      exact hs.moveTo now hentry (hf entry e.state state hwritten hrestore)
  | save path =>
    obtain ⟨required, failures, disk, outcome, he⟩ := run_save_frame store sink e path
    rw [he]
    exact ⟨h.config_eq, ⟨h.bounds.length_le, h.bounds.cursor_none, h.bounds.cursor_lt, h.bounds.differ⟩, h.written,
      h.shown⟩

lemma tracks_after (hf : store.Faithful) (h : Tracks store config e.state e.saver) (acts : List (Act σ)) :
    Tracks store config (e.after store sink acts).state (e.after store sink acts).saver := by
  induction acts generalizing e with
  | nil => exact h
  | cons act acts ih => exact ih (tracks_run sink hf h act)

lemma entries_run (e : Editor σ τ) (act : Act σ) :
    (e.run store sink act).1.saver.entries = e.saver.entries ∨
      ∃ text, store.snapshot e.state = .ok text ∧ e.saver.Recorded text (e.run store sink act).1.saver := by
  cases act with
  | edit now state => exact .inl rfl
  | checkpoint => exact entries_checkpoint store e.state e.saver
  | noteSnapshot =>
    rw [run]
    cases hs : store.snapshot e.state with
    | error err => exact .inl rfl
    | ok text => exact (entries_onSnapshot text e.saver).imp_right fun h => ⟨text, rfl, h⟩
  | travel now dir =>
    have hcheck := entries_checkpoint store e.state e.saver
    obtain ⟨err, he⟩ | ⟨s, recorded, i, entry, state, hc, -, -, -, he⟩ := run_travel_cases store sink e now dir
    · rwa [he]
    · rw [hc] at hcheck
      rwa [he]
  | save path =>
    obtain ⟨required, failures, disk, outcome, he⟩ := run_save_frame store sink e path
    exact .inl (by rw [he])

lemma run_travel_of_checkpoint {s : AutoSaver} {recorded : Bool}
    (hc : e.saver.checkpoint store e.state = (s, .ok recorded)) (now : ℕ) (dir : Direction) :
    e.run store sink (.travel now dir) = ({ e with saver := s } : Editor σ τ).run store sink (.travel now dir) := by
  obtain ⟨hs, hne⟩ := settled_of_checkpoint hc
  rw [run, run, travel_of_checkpoint hc, travel_of_checkpoint (checkpoint_settled hs hne)]

section Rests

variable {entries : List String} {i : ℕ}

lemma rests_back (hf : store.Faithful) (h : Rests store entries i e.state e.saver) (times : List ℕ)
    (he : e.all? store sink (undos times) = .ok e') :
    ∃ j, i = j + times.length ∧ Rests store entries j e'.state e'.saver := by
  induction times generalizing e i with
  | nil =>
    obtain rfl := Except.ok.inj he
    exact ⟨i, rfl, h⟩
  | cons now times ih =>
    rw [undos, List.map_cons, all?] at he
    obtain ⟨err, hrun⟩ | ⟨s, recorded, j, entry, state, hc, htarget, hentry, hrestore, hrun⟩ :=
      run_travel_cases store sink e now .back
    · rw [hrun] at he
      cases he
    · obtain ⟨rfl, -⟩ := Prod.mk.inj (h.checkpoint_eq.symm.trans hc)
      rw [h.entries_eq] at hentry
      rw [hrun] at he
      have hwritten := h.written entry (List.mem_of_getElem? hentry)
      obtain ⟨k, hk, hrests⟩ := ih (h.moveTo now hentry (hf entry e.state state hwritten hrestore)) he
      refine ⟨k, ?_, hrests⟩
      rw [h.target_back.mp htarget, hk, List.length_cons, Nat.add_assoc]

lemma rests_forward (hf : store.Faithful) (ha : store.Accepting) (h : Rests store entries i e.state e.saver)
    (times : List ℕ) (hi : i + times.length < entries.length) :
    ∃ e', e.all? store sink (redos times) = .ok e' ∧ Rests store entries (i + times.length) e'.state e'.saver := by
  induction times generalizing e i with
  | nil => exact ⟨e, rfl, h⟩
  | cons now times ih =>
    rw [List.length_cons] at hi ⊢
    have hlt : i + 1 < entries.length := by omega
    obtain ⟨text, hentry⟩ : ∃ text, entries[i + 1]? = some text := ⟨_, List.getElem?_eq_getElem hlt⟩
    have hwritten := h.written text (List.mem_of_getElem? hentry)
    obtain ⟨state, hrestore⟩ := ha text e.state hwritten
    have hrun : e.run store sink (.travel now .forward) =
        ({ e with saver := e.saver.moveTo now (i + 1), state }, .ok ()) := by
      have hheld : e.saver.entries[i + 1]? = some text := h.entries_eq ▸ hentry
      rw [run, travel_of_checkpoint h.checkpoint_eq, goTo_of_restore (h.target_forward hlt) hheld hrestore]
    have hrests := h.moveTo now hentry (hf text e.state state hwritten hrestore)
    obtain ⟨e', he', hrests'⟩ := ih (e := { e with saver := e.saver.moveTo now (i + 1), state }) hrests (by omega)
    refine ⟨e', ?_, by rwa [Nat.add_assoc, Nat.add_comm 1] at hrests'⟩
    rw [redos, List.map_cons, all?, hrun]
    exact he'

end Rests

lemma redos_after_undos (hf : store.Faithful) (ha : store.Accepting) (h : Tracks store config e.state e.saver)
    {back forth : List ℕ} (hlen : forth.length = back.length) (he : e.all? store sink (undos back) = .ok e') :
    ∃ e'', e'.all? store sink (redos forth) = .ok e'' ∧ store.snapshot e''.state = store.snapshot e.state := by
  cases back with
  | nil =>
    obtain rfl := Except.ok.inj he
    obtain rfl := List.eq_nil_of_length_eq_zero hlen
    exact ⟨e, rfl, rfl⟩
  | cons now times =>
    obtain ⟨err, hrun⟩ | ⟨s, recorded, -, -, -, hc, -⟩ := run_travel_cases store sink e now .back
    · rw [undos, List.map_cons, all?, hrun] at he
      cases he
    · -- What was pending is the entry under the cursor from here on.
      have hs : Tracks store config e.state s := by simpa only [hc] using h.checkpoint
      have he' : ({ e with saver := s } : Editor σ τ).all? store sink (undos (now :: times)) = .ok e' := by
        rw [undos, List.map_cons, all?, run_travel_of_checkpoint hc] at he
        exact he
      obtain ⟨top, hrests⟩ := h.rests_checkpoint hc
      obtain ⟨j, hj, hback⟩ := rests_back hf (e := { e with saver := s }) hrests _ he'
      obtain ⟨text, hentry, hshown⟩ := hrests.shown
      have hlt : j + forth.length < s.entries.length := by
        rw [hlen, ← hj]
        exact hs.bounds.cursor_lt top hrests.cursor_eq
      obtain ⟨e'', hredo, hforward⟩ := rests_forward hf ha hback forth hlt
      obtain ⟨text', hentry', hshown'⟩ := hforward.shown
      rw [hlen, ← hj] at hentry'
      refine ⟨e'', hredo, hshown'.trans ?_⟩
      rw [← Option.some.inj (hentry.symm.trans hentry')]
      exact hshown.symm

lemma run_travel_ok (ha : store.Accepting) (h : Tracks store config e.state e.saver) {s : AutoSaver} {recorded : Bool}
    (hc : e.saver.checkpoint store e.state = (s, .ok recorded)) {dir : Direction} {i : ℕ} (hi : s.target dir = some i)
    (now : ℕ) : ∃ e', e.run store sink (.travel now dir) = (e', .ok ()) ∧ e'.saver.cursor = some i := by
  have hs : Tracks store config e.state s := by simpa only [hc] using h.checkpoint
  have hentry := List.getElem?_eq_getElem (hs.bounds.target_lt hi)
  obtain ⟨state, hrestore⟩ := ha _ e.state (hs.written _ (List.mem_of_getElem? hentry))
  refine ⟨{ e with saver := s.moveTo now i, state }, ?_, rfl⟩
  rw [run, travel_of_checkpoint hc, goTo_of_restore hi hentry hrestore]

theorem history_over_runs (hf : store.Faithful) (sink : SaveSink τ) (config : AutoSaveConfig) (state : σ) (disk : τ)
    (acts : List (Act σ)) :
    let e := Editor.after store sink acts { saver := { config }, state, disk }
    (e.saver.entries.length ≤ max config.capacity 1 ∧ (e.saver.cursor = none ↔ e.saver.entries = []) ∧
      (∀ i, e.saver.cursor = some i → i < e.saver.entries.length) ∧ e.saver.entries.IsChain (· ≠ ·)) ∧
    (∀ act, (e.run store sink act).1.saver.entries = e.saver.entries ∨
      ∃ text, store.snapshot e.state = .ok text ∧ e.saver.Recorded text (e.run store sink act).1.saver) ∧
    (∀ s recorded, e.saver.checkpoint store e.state = (s, .ok recorded) →
      (∃ text, s.currentEntry = some text ∧ store.snapshot e.state = .ok text) ∧
      (store.Accepting → ∀ now dir i, s.target dir = some i →
        ∃ e', e.run store sink (.travel now dir) = (e', .ok ()) ∧ e'.saver.cursor = some i)) ∧
    (∀ now dir e', e.run store sink (.travel now dir) = (e', .ok ()) →
      ∃ entry, e'.saver.currentEntry = some entry ∧ store.snapshot e'.state = .ok entry) ∧
    (∀ now dir e' err, e.run store sink (.travel now dir) = (e', .error err) →
      e' = { e with saver := (e.saver.checkpoint store e.state).1 }) ∧
    (store.Accepting → ∀ back forth e', forth.length = back.length → e.all? store sink (undos back) = .ok e' →
      ∃ e'', e'.all? store sink (redos forth) = .ok e'' ∧ store.snapshot e''.state = store.snapshot e.state) := by
  intro e
  have h : Tracks store config e.state e.saver := tracks_after hf (.fresh store config state) acts
  refine ⟨⟨?_, h.bounds.cursor_none, h.bounds.cursor_lt, h.bounds.differ⟩, entries_run e,
    fun s recorded hc => ⟨?_, fun ha now dir i hi => run_travel_ok ha h hc hi now⟩, fun now dir e' he => ?_,
    fun now dir e' err he => ?_, fun ha back forth e' hlen he => redos_after_undos hf ha h hlen he⟩
  · simpa only [capacity, h.config_eq] using h.bounds.length_le
  · obtain ⟨i, hrests⟩ := h.rests_checkpoint hc
    exact hrests.currentEntry_eq
  · have h' := tracks_run sink hf h (.travel now dir)
    obtain ⟨err, hrun⟩ | ⟨s, recorded, i, entry, state', -, -, hentry, -, hrun⟩ :=
      run_travel_cases store sink e now dir
    · cases he.symm.trans hrun
    · obtain ⟨rfl, -⟩ := Prod.mk.inj (he.symm.trans hrun)
      rw [hrun] at h'
      exact ⟨entry, currentEntry_moveTo now hentry, h'.shown rfl entry (currentEntry_moveTo now hentry)⟩
  · obtain ⟨err', hrun⟩ | ⟨s, recorded, i, entry, state', -, -, -, -, hrun⟩ := run_travel_cases store sink e now dir
    · cases he.symm.trans hrun
      rfl
    · cases he.symm.trans hrun

def plainText : Store String where
  snapshot := .ok
  restore text _ := .ok text

def started : Editor String (List (String × String)) where
  saver := { config := { capacity := 2 } }
  state := "a"
  disk := []

theorem history_over_runs_pendingEdit :
    let e := Editor.after plainText .recording [.checkpoint, .edit 1 "b", .checkpoint, .edit 2 "c"] started
    ∃ e' e'', e.all? plainText .recording (undos [3]) = .ok e' ∧ e'.saver.entries = ["b", "c"] ∧ e'.state = "b" ∧
      e'.all? plainText .recording (redos [4]) = .ok e'' ∧ plainText.snapshot e''.state = .ok "c" := by
  have hf : plainText.Faithful := fun text _ state' _ hs => congrArg Except.ok (Except.ok.inj hs).symm
  have ha : plainText.Accepting := fun text _ _ => ⟨text, rfl⟩
  obtain ⟨-, -, -, -, -, hredo⟩ := history_over_runs hf .recording { capacity := 2 } "a" []
    [.checkpoint, .edit 1 "b", .checkpoint, .edit 2 "c"]
  obtain ⟨e'', he'', hs⟩ := hredo ha [3] [4] _ rfl rfl
  exact ⟨_, e'', rfl, rfl, rfl, he'', hs⟩

end Editor

end BlockStudio
