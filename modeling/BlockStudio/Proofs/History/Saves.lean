import BlockStudio.Proofs.History.Editor

/-! Saves in one thread, while another edits what is saved. -/

namespace BlockStudio

inductive Saving where
  | idle
  | taken (path contents : String)
  | written (path contents : String) (outcome : Except String Unit)

def Saving.contents? : Saving → Option String
  | idle => none
  | taken _ contents | written _ contents _ => some contents

/-- A store, its history and its sink, as two threads see them. The rest is a record of what happened. -/
structure SharedStore (σ τ : Type) where
  state : σ
  saver : AutoSaver
  disk : τ
  /-- Edits of the store that are still to be followed by `markChanged`. -/
  unmarked : ℕ := 0
  saving : Saving := .idle
  touched : Bool := false
  kept : Option String := none

namespace SharedStore

open AutoSaver

/-- What one of the threads does at once: the first five are the editor's, the others the saver's. -/
inductive Move (σ : Type) where
  | change (state : σ)
  | mark (now : ℕ)
  | checkpoint
  | noteSnapshot (text : String)
  | travel (now : ℕ) (dir : Direction)
  | takeSnapshot (path : String)
  | write
  | finish

def Move.stirs {σ : Type} : Move σ → Bool
  | .change _ | .travel _ _ => true
  | _ => false

variable {σ τ : Type} (store : Store σ) (sink : SaveSink τ)

/-- A move of the saver that is not its next one does nothing. -/
def step (s : SharedStore σ τ) : Move σ → SharedStore σ τ
  | .change state => { s with state, unmarked := s.unmarked + 1, touched := true }
  | .mark now => { s with saver := s.saver.markChanged now, unmarked := s.unmarked - 1 }
  | .checkpoint => { s with saver := (s.saver.checkpoint store s.state).1 }
  | .noteSnapshot text => { s with saver := (s.saver.onSnapshot text).1 }
  | .travel now dir =>
    match s.saver.travel store now dir s.state with
    | (saver, .error _) => { s with saver }
    | (saver, .ok stepped) => { s with saver, state := stepped.state, touched := true }
  | .takeSnapshot path =>
    match s.saving, store.snapshot s.state with
    | .idle, .ok contents => { s with saving := .taken path contents }
    | _, _ => s
  | .write =>
    match s.saving with
    | .taken path contents =>
      let (outcome, disk) := sink.write path contents s.disk
      { s with disk, saving := .written path contents outcome, kept := if outcome.isOk then some contents else s.kept }
    | _ => s
  | .finish =>
    match s.saving with
    | .written path _ outcome => { s with saver := (s.saver.finishSave path outcome).1, saving := .idle }
    | _ => s

def after (moves : List (Move σ)) (s : SharedStore σ τ) : SharedStore σ τ := moves.foldl (step store sink) s

def start (config : AutoSaveConfig) (state : σ) (disk : τ) : SharedStore σ τ where
  state := state
  saver := { config }
  disk := disk

def Quiet (s : SharedStore σ τ) : Prop := s.unmarked = 0 ∧ s.saving = .idle

def Honest (s : SharedStore σ τ) : Prop :=
  s.saver.saveRequired = false → s.touched = false ∨ ∃ text, s.kept = some text ∧ store.snapshot s.state = .ok text

variable {store sink} {s : SharedStore σ τ} {moves : List (Move σ)}

lemma after_append (before rest : List (Move σ)) :
    s.after store sink (before ++ rest) = (s.after store sink before).after store sink rest := List.foldl_append

lemma holds_along {P : SharedStore σ τ → Prop} (moves : List (Move σ)) (h : P s)
    (hstep : ∀ before m rest, moves = before ++ m :: rest → P (s.after store sink before) →
      P ((s.after store sink before).step store sink m)) :
    ∀ before rest, moves = before ++ rest → P (s.after store sink before) := by
  intro before
  induction before using List.reverseRecOn with
  | nil => exact fun _ _ => h
  | append_singleton before m ih =>
    intro rest hsplit
    have hsplit' : moves = before ++ m :: rest := by rw [hsplit, List.append_assoc, List.singleton_append]
    rw [after_append]
    exact hstep before m rest hsplit' (ih (m :: rest) hsplit')

/-- Apart from its own moves, a save can rely on this about the contents that it took. -/
structure Traced (store : Store σ) (s : SharedStore σ τ) : Prop where
  kept : ∀ path contents, s.saving = .written path contents (.ok ()) → s.kept = some contents
  fresh : s.touched = false ∨ s.saver.saveRequired = false ∧ s.unmarked = 0 →
    ∀ contents, s.saving.contents? = some contents → store.snapshot s.state = .ok contents

lemma step_travel_cases (store : Store σ) (sink : SaveSink τ) (s : SharedStore σ τ) (now : ℕ) (dir : Direction) :
    (∃ saver, saver.saveRequired = s.saver.saveRequired ∧ s.step store sink (.travel now dir) = { s with saver }) ∨
      ∃ saver state, saver.saveRequired = true ∧
        s.step store sink (.travel now dir) = { s with saver, state, touched := true } := by
  obtain ⟨e, he⟩ | ⟨s', recorded, i, entry, state, -, -, -, -, he⟩ := travel_cases store now dir s.state s.saver
  · exact .inl ⟨_, saveRequired_checkpoint store s.state s.saver, by rw [step, he]⟩
  · exact .inr ⟨_, state, rfl, by rw [step, he]⟩

lemma Traced.of_saver (h : Traced store s) {saver : AutoSaver} (hs : saver.saveRequired = s.saver.saveRequired) :
    Traced store { s with saver } where
  kept := h.kept
  fresh := by simpa only [hs] using h.fresh

lemma Traced.step (h : Traced store s) (sink : SaveSink τ) (m : Move σ) : Traced store (s.step store sink m) := by
  cases m with
  | change state => exact ⟨h.kept, by simp [SharedStore.step]⟩
  | mark now => exact ⟨h.kept, fun hf => h.fresh (hf.imp_right fun hf => nomatch hf.1)⟩
  | checkpoint => exact h.of_saver (saveRequired_checkpoint store s.state s.saver)
  | noteSnapshot text => exact h.of_saver (saveRequired_onSnapshot text s.saver)
  | travel now dir =>
    obtain ⟨saver, hs, he⟩ | ⟨saver, state, hs, he⟩ := step_travel_cases store sink s now dir
    · exact he ▸ h.of_saver hs
    · exact he ▸ ⟨h.kept, by simp [hs]⟩
  | takeSnapshot path =>
    rw [SharedStore.step]
    split
    · rename_i contents _ hsnap
      exact ⟨nofun, fun _ text ht => Option.some.inj ht ▸ hsnap⟩
    · exact h
  | write =>
    rw [SharedStore.step]
    split
    · rename_i path contents hs
      refine ⟨fun path' contents' hw => ?_, fun hf text ht => h.fresh hf text (by rw [hs]; exact ht)⟩
      obtain ⟨-, rfl, hout⟩ := Saving.written.inj hw
      exact if_pos (by rw [hout]; rfl)
    · exact h
  | finish =>
    rw [SharedStore.step]
    split
    · exact ⟨nofun, fun _ _ ht => nomatch ht⟩
    · exact h

def Settled (store : Store σ) (s : SharedStore σ τ) : Prop := s.unmarked = 0 → s.Honest store

lemma Settled.step (hs : Settled store s) (h : Traced store s) (sink : SaveSink τ) {m : Move σ}
    (hm : ∀ path contents, m = .finish → s.saving = .written path contents (.ok ()) → s.unmarked = 0 →
      store.snapshot s.state = .ok contents) : Settled store (s.step store sink m) := by
  cases m with
  | change state => exact fun hu => absurd hu (Nat.succ_ne_zero _)
  | mark now => exact fun _ hr => nomatch hr
  | checkpoint =>
    have hreq := saveRequired_checkpoint store s.state s.saver
    exact fun hu hr => hs hu (hreq ▸ hr)
  | noteSnapshot text =>
    have hreq := saveRequired_onSnapshot text s.saver
    exact fun hu hr => hs hu (hreq ▸ hr)
  | travel now dir =>
    obtain ⟨saver, hreq, he⟩ | ⟨saver, state, hreq, he⟩ := step_travel_cases store sink s now dir
    · rw [he]
      exact fun hu hr => hs hu (hreq ▸ hr)
    · rw [he]
      exact fun _ hr => absurd (hreq.symm.trans hr) Bool.noConfusion
  | takeSnapshot path =>
    rw [SharedStore.step]
    split
    · exact hs
    · exact hs
  | write =>
    rw [SharedStore.step]
    split
    · rename_i path contents hsaving
      intro hu hr
      by_cases ho : (sink.write path contents s.disk).1.isOk
      · exact .inr ⟨contents, if_pos ho, h.fresh (.inr ⟨hr, hu⟩) contents (by rw [hsaving]; rfl)⟩
      · obtain ht | ⟨text, hk, ht⟩ := hs hu hr
        · exact .inl ht
        · exact .inr ⟨text, (if_neg ho).trans hk, ht⟩
    · exact hs
  | finish =>
    rw [SharedStore.step]
    split
    · rename_i path contents outcome hsaving
      intro hu hr
      -- the one move that clears the flag
      cases outcome with
      | error message => exact hs hu hr
      | ok _ => exact .inr ⟨contents, h.kept path contents hsaving, hm path contents rfl hsaving hu⟩
    · exact hs

variable (store sink) in
def Timely (s : SharedStore σ τ) (moves : List (Move σ)) : Prop :=
  ∀ before rest path contents, moves = before ++ .finish :: rest →
    (s.after store sink before).saving = .written path contents (.ok ()) → (s.after store sink before).unmarked = 0 →
      store.snapshot (s.after store sink before).state = .ok contents

lemma traced_start (config : AutoSaveConfig) (state : σ) (disk : τ) : Traced store (start config state disk) :=
  ⟨nofun, fun _ _ hc => nomatch hc⟩

lemma traced_along (config : AutoSaveConfig) (state : σ) (disk : τ) (before : List (Move σ)) :
    Traced store ((start config state disk).after store sink before) :=
  holds_along before (traced_start config state disk) (fun _ m _ _ h => h.step sink m) before []
    (List.append_nil before).symm

theorem after_whole_save (s : SharedStore σ τ) (path : String) (h : s.saving = .idle) :
    let s' := s.after store sink [.takeSnapshot path, .write, .finish]
    let (saver, disk, _) := s.saver.save store sink path s.state s.disk
    s'.saver = saver ∧ s'.disk = disk ∧ s'.state = s.state ∧ s'.saving = .idle := by
  simp only [after, List.foldl_cons, List.foldl_nil, AutoSaver.save]
  cases hs : store.snapshot s.state with
  | error e =>
    simp [step, h, hs]
  | ok contents =>
    simp [step, h, hs]

def Current (store : Store σ) (s : SharedStore σ τ) : Prop :=
  ∀ contents, s.saving.contents? = some contents → store.snapshot s.state = .ok contents

lemma Current.step (h : Current store s) (sink : SaveSink τ) {m : Move σ} (hm : m.stirs = true → s.saving = .idle) :
    Current store (s.step store sink m) := by
  cases m with
  | change state =>
    have hidle := hm rfl
    intro contents hc
    simp [SharedStore.step, hidle, Saving.contents?] at hc
  | travel now dir =>
    have hidle := hm rfl
    intro contents hc
    obtain ⟨saver, -, he⟩ | ⟨saver, state, -, he⟩ := step_travel_cases store sink s now dir
    · simp [he, hidle, Saving.contents?] at hc
    · simp [he, hidle, Saving.contents?] at hc
  | mark now => exact h
  | checkpoint => exact h
  | noteSnapshot text => exact h
  | takeSnapshot path =>
    rw [SharedStore.step]
    split
    · rename_i contents _ hsnap
      exact fun text ht => Option.some.inj ht ▸ hsnap
    · exact h
  | write =>
    rw [SharedStore.step]
    split
    · rename_i path contents hs
      exact fun text ht => h text (by rw [hs]; exact ht)
    · exact h
  | finish =>
    rw [SharedStore.step]
    split
    · exact fun _ ht => nomatch ht
    · exact h

theorem save_hides_edit_iff (store : Store σ) (sink : SaveSink τ) (config : AutoSaveConfig) (state : σ) (disk : τ)
    (moves : List (Move σ)) :
    let s := fun before => (start config state disk).after store sink before
    ((∀ before rest, moves = before ++ rest → (s before).Quiet → (s before).Honest store) ↔
      Timely store sink (start config state disk) moves) ∧
    ((∀ before m rest, moves = before ++ m :: rest → m.stirs = true → (s before).saving = .idle) →
      ∀ before rest, moves = before ++ rest → (s before).Quiet → (s before).Honest store) := by
  intro s
  have htraced : ∀ before, Traced store (s before) := traced_along config state disk
  have hhonest : Timely store sink (start config state disk) moves →
      ∀ before rest, moves = before ++ rest → (s before).Quiet → (s before).Honest store := by
    intro ht before rest hsplit hq
    have hsettled := holds_along (P := fun s => Traced store s ∧ Settled store s) moves
      ⟨htraced [], fun _ _ => .inl rfl⟩ (fun before m rest he h => ⟨h.1.step sink m, h.2.step h.1 sink
        fun path contents hm => ht before rest path contents (hm ▸ he)⟩) before rest hsplit
    exact hsettled.2 hq.1
  refine ⟨⟨fun hall before rest path contents hsplit hsaving hu => ?_, hhonest⟩, fun hstill => hhonest ?_⟩
  · have hend : s (before ++ [.finish]) =
        { s before with saver := (s before).saver.saveSucceeded, saving := .idle } := by
      show (start config state disk).after store sink (before ++ [.finish]) = _
      rw [after_append]
      show (s before).step store sink .finish = _
      rw [step, hsaving]
      rfl
    have hquiet : (s (before ++ [.finish])).Quiet := by
      rw [hend]
      exact ⟨hu, rfl⟩
    have htruth := hall (before ++ [.finish]) rest (by rw [hsplit, List.append_assoc, List.singleton_append]) hquiet
    rw [hend] at htruth
    obtain ht | ⟨text, hk, ht⟩ := htruth rfl
    · exact (htraced before).fresh (.inl ht) contents (congrArg Saving.contents? hsaving)
    · obtain rfl := Option.some.inj (((htraced before).kept path contents hsaving).symm.trans hk)
      exact ht
  · intro before rest path contents hsplit hsaving _
    have hcurrent := holds_along (P := Current store) (s := start config state disk) moves
      (fun _ hc => nomatch hc) (fun before m rest he h => h.step sink (hstill before m rest he)) before _ hsplit
    exact hcurrent contents (congrArg Saving.contents? hsaving)

def hiddenEdit : List (Move String) :=
  [.change "s1", .mark 1, .takeSnapshot "p", .change "s2", .mark 2, .write, .finish]

theorem hiddenEdit_not_honest :
    let s := (start {} "s0" []).after Editor.plainText .recording hiddenEdit
    s.Quiet ∧ s.saver.saveRequired = false ∧ s.touched = true ∧ s.disk = [("p", "s1")] ∧ s.kept = some "s1" ∧
      Editor.plainText.snapshot s.state = .ok "s2" ∧ ¬ s.Honest Editor.plainText := by
  refine ⟨⟨rfl, rfl⟩, rfl, rfl, rfl, rfl, rfl, fun h => ?_⟩
  obtain ht | ⟨text, hk, hs⟩ := h rfl
  · cases ht
  · have hsame : "s1" = "s2" := (Option.some.inj hk).trans (Except.ok.inj hs).symm
    exact absurd hsame (by decide)

end SharedStore

end BlockStudio
