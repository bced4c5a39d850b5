import BlockStudio.Proofs.History.Editor
import Mathlib.Data.List.DropRight

/-! Unsaved changes and failed saves, told from what the caller of a history has seen. -/

namespace BlockStudio.Editor

open AutoSaver

inductive Call (σ : Type) where
  | change (state : σ)
  | markChanged (now : ℕ)
  | checkpoint
  | onSnapshot (text : String)
  | travel (now : ℕ) (dir : Direction)
  | save (path : String)

namespace Call

variable {σ : Type}

def saves : Call σ → Bool
  | save _ => true
  | _ => false

def dirties : Call σ → Bool
  | markChanged _ | travel _ _ => true
  | _ => false

end Call

variable {σ τ : Type} (store : Store σ) (sink : SaveSink τ)

def perform (e : Editor σ τ) : Call σ → Editor σ τ × Except HistoryError Unit
  | .change state => ({ e with state }, .ok ())
  | .markChanged now => e.run store sink (.edit now e.state)
  | .checkpoint => e.run store sink .checkpoint
  | .onSnapshot text => ({ e with saver := (e.saver.onSnapshot text).1 }, .ok ())
  | .travel now dir => e.run store sink (.travel now dir)
  | .save path => e.run store sink (.save path)

def performAll (calls : List (Call σ)) (e : Editor σ τ) : Editor σ τ :=
  calls.foldl (fun e call => (e.perform store sink call).1) e

def seen (e : Editor σ τ) : List (Call σ) → List (Call σ × Bool)
  | [] => []
  | call :: calls => (call, (e.perform store sink call).2.isOk) :: seen (e.perform store sink call).1 calls

section Log

variable (log : List (Call σ × Bool))

def sinceSaved : List (Call σ × Bool) := log.rtakeWhile fun x => !(x.1.saves && x.2)

def leavesUnsaved : Bool := (sinceSaved log).any fun x => x.1.dirties && x.2

def failedSaves : ℕ := (sinceSaved log).countP fun x => x.1.saves && !x.2

variable {log} {call : Call σ} {ok : Bool}

lemma sinceSaved_concat_saved (h : call.saves = true) : sinceSaved (log ++ [(call, true)]) = [] :=
  List.rtakeWhile_concat_neg _ _ _ (by simp [h])

lemma sinceSaved_concat (h : (call.saves && ok) = false) :
    sinceSaved (log ++ [(call, ok)]) = sinceSaved log ++ [(call, ok)] :=
  List.rtakeWhile_concat_pos _ _ _ (by simp only [h, Bool.not_false])

lemma leavesUnsaved_concat (h : (call.saves && ok) = false) :
    leavesUnsaved (log ++ [(call, ok)]) = (leavesUnsaved log || (call.dirties && ok)) := by
  rw [leavesUnsaved, sinceSaved_concat h, List.any_append, List.any_cons, List.any_nil, Bool.or_false, leavesUnsaved]

lemma failedSaves_concat (h : (call.saves && ok) = false) :
    failedSaves (log ++ [(call, ok)]) = failedSaves log + if call.saves && !ok then 1 else 0 := by
  rw [failedSaves, sinceSaved_concat h, List.countP_append, List.countP_singleton, failedSaves]

lemma failedSaves_le (log : List (Call σ × Bool)) : failedSaves log ≤ (log.map Prod.fst).countP Call.saves := by
  have hsuffix : sinceSaved log <:+ log := List.rtakeWhile_suffix _ log
  calc failedSaves log ≤ log.countP fun x => x.1.saves && !x.2 := hsuffix.sublist.countP_le
    _ ≤ log.countP fun x => x.1.saves := List.countP_mono_left fun x _ hx => (Bool.and_eq_true_iff.mp hx).1
    _ = (log.map Prod.fst).countP Call.saves := by rw [List.countP_map]; rfl

end Log

variable {store sink} {e : Editor σ τ} {config : AutoSaveConfig} {log : List (Call σ × Bool)}

lemma map_fst_seen (calls : List (Call σ)) (e : Editor σ τ) : (seen store sink e calls).map Prod.fst = calls := by
  induction calls generalizing e with
  | nil => rfl
  | cons call calls ih => rw [seen, List.map_cons, ih]

structure Booked (config : AutoSaveConfig) (log : List (Call σ × Bool)) (s : AutoSaver) : Prop where
  config_eq : s.config = config
  saveRequired_eq : s.saveRequired = leavesUnsaved log
  failures_eq : s.failures = failedSaves log

lemma perform_frame (store : Store σ) (sink : SaveSink τ) (e : Editor σ τ) {call : Call σ} (h : call.saves = false) :
    (e.perform store sink call).1.saver.config = e.saver.config ∧
      (e.perform store sink call).1.saver.failures = e.saver.failures ∧
      (e.perform store sink call).1.saver.saveRequired =
        (e.saver.saveRequired || (call.dirties && (e.perform store sink call).2.isOk)) := by
  cases call with
  | change state => exact ⟨rfl, rfl, (Bool.or_false _).symm⟩
  | markChanged now => exact ⟨rfl, rfl, (Bool.or_true _).symm⟩
  | checkpoint =>
    obtain ⟨entries, cursor, changed, hs⟩ := checkpoint_frame store e.state e.saver
    simp only [perform, run, hs, Call.dirties, Bool.false_and, Bool.or_false, and_self]
  | onSnapshot text =>
    obtain ⟨entries, cursor, hs⟩ := onSnapshot_frame text e.saver
    simp only [perform, hs, Call.dirties, Bool.false_and, Bool.or_false, and_self]
  | travel now dir =>
    obtain ⟨entries, cursor, changed, hs⟩ := checkpoint_frame store e.state e.saver
    obtain ⟨err, he⟩ | ⟨s, recorded, i, entry, state, hc, -, -, -, he⟩ := run_travel_cases store sink e now dir
    · rw [perform, he, hs]
      exact ⟨rfl, rfl, (Bool.or_false _).symm⟩
    · obtain rfl : s = { e.saver with entries, cursor, changed } := by rw [← hs, hc]
      rw [perform, he]
      exact ⟨rfl, rfl, (Bool.or_true _).symm⟩
  | save path => cases h

namespace Booked

lemma fresh (config : AutoSaveConfig) : Booked (σ := σ) config [] { config } := ⟨rfl, rfl, rfl⟩

variable (h : Booked config log e.saver)

include h

lemma other {call : Call σ} (hc : call.saves = false) :
    Booked config (log ++ [(call, (e.perform store sink call).2.isOk)]) (e.perform store sink call).1.saver := by
  obtain ⟨hconfig, hfailures, hrequired⟩ := perform_frame store sink e hc
  have hlog : (call.saves && (e.perform store sink call).2.isOk) = false := by rw [hc, Bool.false_and]
  refine ⟨hconfig.trans h.config_eq, ?_, ?_⟩
  · rw [hrequired, h.saveRequired_eq, leavesUnsaved_concat hlog]
  · rw [hfailures, h.failures_eq, failedSaves_concat hlog, hc]
    rfl

lemma save {contents : String} (hs : store.snapshot e.state = .ok contents) (path : String) :
    Booked config (log ++ [(.save path, (e.perform store sink (.save path)).2.isOk)])
      (e.perform store sink (.save path)).1.saver := by
  rw [perform]
  obtain ⟨err, herr, -⟩ | ⟨written, -, ⟨message, -, he⟩ | ⟨-, he⟩⟩ := run_save_cases store sink e path
  · cases hs.symm.trans herr
  · rw [he]
    refine ⟨h.config_eq, ?_, ?_⟩
    · rw [leavesUnsaved_concat rfl]
      exact h.saveRequired_eq.trans (Bool.or_false _).symm
    · rw [failedSaves_concat rfl, ← h.failures_eq]
      rfl
  · rw [he]
    have hlog : sinceSaved (log ++ [(Call.save path, true)]) = [] := sinceSaved_concat_saved rfl
    refine ⟨h.config_eq, ?_, ?_⟩
    · exact (congrArg (List.any · _) hlog).symm
    · exact (congrArg (List.countP _) hlog).symm

lemma performAll {calls : List (Call σ)} (hs : ∀ before path rest, calls = before ++ .save path :: rest →
      ∃ contents, store.snapshot (performAll store sink before e).state = .ok contents) :
    Booked config (log ++ seen store sink e calls) (performAll store sink calls e).saver := by
  induction calls generalizing e log with
  | nil => rwa [seen, List.append_nil]
  | cons call calls ih =>
    have hstep : Booked config (log ++ [(call, (e.perform store sink call).2.isOk)])
        (e.perform store sink call).1.saver := by
      cases hc : call.saves with
      | false => exact h.other hc
      | true =>
        cases call with
        | save path =>
          obtain ⟨contents, hcontents⟩ := hs [] path calls rfl
          exact h.save hcontents path
        | change | markChanged | checkpoint | onSnapshot | travel => cases hc
    have hrest := ih hstep fun before path rest he => hs (call :: before) path rest (congrArg (call :: ·) he)
    rwa [List.append_assoc, List.singleton_append] at hrest

lemma outcome {contents : String} (hs : store.snapshot e.state = .ok contents) (path : String) :
    (e.perform store sink (.save path)).2 = (sink.write path contents e.disk).1.mapError fun message =>
      if config.saveFailureLimit ≤ failedSaves (log ++ [(.save path, false)]) then
        .saveEscalation (failedSaves (log ++ [(.save path, false)])) message
      else .saveFailed path message := by
  have hcount : failedSaves (log ++ [(.save path, false)]) = e.saver.failures + 1 := by
    rw [failedSaves_concat rfl, ← h.failures_eq]
    rfl
  rw [perform, hcount, ← h.config_eq]
  obtain ⟨err, herr, -⟩ | ⟨contents', hs', ⟨message, hw, he⟩ | ⟨hw, he⟩⟩ := run_save_cases store sink e path
  · cases hs.symm.trans herr
  · obtain rfl := Except.ok.inj (hs.symm.trans hs')
    rw [he, hw]
    rfl
  · obtain rfl := Except.ok.inj (hs.symm.trans hs')
    rw [he, hw]
    rfl

lemma isFatal_iff {contents : String} (hs : store.snapshot e.state = .ok contents) {path : String} {err : HistoryError}
    (he : (e.perform store sink (.save path)).2 = .error err) :
    err.isFatal = true ↔ config.saveFailureLimit ≤ failedSaves (log ++ [(.save path, false)]) := by
  rw [h.outcome hs path] at he
  cases hw : (sink.write path contents e.disk).1 with
  | ok _ =>
    rw [hw] at he
    cases he
  | error message =>
    rw [hw] at he
    rw [← Except.error.inj he]
    split
    · exact iff_of_true rfl ‹_›
    · exact iff_of_false Bool.noConfusion ‹_›

end Booked

theorem bookkeeping_over_runs (store : Store σ) (sink : SaveSink τ) (config : AutoSaveConfig) (state : σ) (disk : τ)
    (calls : List (Call σ)) (hs : ∀ before path rest, calls = before ++ .save path :: rest → ∃ contents,
      store.snapshot (performAll store sink before { saver := { config }, state, disk }).state = .ok contents) :
    let e := performAll store sink calls { saver := { config }, state, disk }
    let log := seen store sink { saver := { config }, state, disk } calls
    e.saver.saveRequired = leavesUnsaved log ∧ e.saver.failures = failedSaves log ∧
    (calls.countP Call.saves < UInt32.size → e.saver.failures < UInt32.size) ∧
    (∀ path contents, store.snapshot e.state = .ok contents →
      let failures := failedSaves (log ++ [(.save path, false)])
      ((e.perform store sink (.save path)).2 = (sink.write path contents e.disk).1.mapError fun message =>
        if config.saveFailureLimit ≤ failures then .saveEscalation failures message else .saveFailed path message) ∧
      ∀ err, (e.perform store sink (.save path)).2 = .error err →
        (err.isFatal = true ↔ config.saveFailureLimit ≤ failures)) ∧
    ∀ path, (e.perform store sink (.save path)).1.saver.entries = e.saver.entries ∧
      (e.perform store sink (.save path)).1.saver.cursor = e.saver.cursor := by
  intro e log
  have h : Booked config log e.saver := (Booked.fresh config).performAll hs
  refine ⟨h.saveRequired_eq, h.failures_eq, fun hlt => ?_, fun path contents hc => ?_, fun path => ?_⟩
  · calc e.saver.failures = failedSaves log := h.failures_eq
      _ ≤ (log.map Prod.fst).countP Call.saves := failedSaves_le log
      _ = calls.countP Call.saves := by rw [map_fst_seen]
      _ < UInt32.size := hlt
  · exact ⟨h.outcome hc path, fun err he => h.isFatal_iff hc he⟩
  · obtain ⟨required, failures, disk', result, he⟩ := run_save_frame store sink e path
    exact ⟨by rw [perform, he], by rw [perform, he]⟩

def scripted : SaveSink (List (Except String Unit)) where
  write _ _ outcomes := (outcomes.headD (.ok ()), outcomes.tail)

theorem bookkeeping_over_runs_fullDisk :
    let e := performAll plainText scripted
      [.markChanged 1, .save "p", .save "p", .change "b", .markChanged 2, .save "p", .checkpoint]
      { saver := { config := { saveFailureLimit := 2 } }, state := "a",
        disk := [.error "full", .ok (), .error "full", .error "full"] }
    e.saver.saveRequired = true ∧ e.saver.failures = 1 ∧
      (e.perform plainText scripted (.save "p")).2 = .error (.saveEscalation 2 "full") := by
  obtain ⟨hflag, hcount, -, hsave, -⟩ := bookkeeping_over_runs plainText scripted { saveFailureLimit := 2 } "a"
    [.error "full", .ok (), .error "full", .error "full"]
    [.markChanged 1, .save "p", .save "p", .change "b", .markChanged 2, .save "p", .checkpoint]
    fun _ _ _ _ => ⟨_, rfl⟩
  exact ⟨hflag, hcount, (hsave "p" "b" rfl).1⟩

end BlockStudio.Editor
