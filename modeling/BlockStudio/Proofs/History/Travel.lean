import BlockStudio.Proofs.History.Entries

namespace BlockStudio

namespace Store

variable {σ : Type}

def Written (store : Store σ) (text : String) : Prop := ∃ state, store.snapshot state = .ok text

def Faithful (store : Store σ) : Prop :=
  ∀ text state state', store.Written text → store.restore text state = .ok state' → store.snapshot state' = .ok text

def Accepting (store : Store σ) : Prop :=
  ∀ text state, store.Written text → ∃ state', store.restore text state = .ok state'

end Store

namespace AutoSaver

variable {σ : Type} {store : Store σ} {config : AutoSaveConfig} {state : σ} {s s' : AutoSaver} {text : String}

lemma mem_entries_onSnapshot {x : String} (hx : x ∈ (s.onSnapshot text).1.entries) : x ∈ s.entries ∨ x = text := by
  obtain ⟨-, hs⟩ | ⟨-, -, evicted, rest, hkept, -, hentries⟩ := onSnapshot_cases text s
  · rw [hs] at hx
    exact .inl hx
  · rw [hentries, List.mem_append, List.mem_singleton] at hx
    refine hx.imp_left fun hrest => s.isPrefix_kept.subset ?_
    rw [hkept]
    exact List.mem_append_right evicted hrest

lemma checkpoint_settled (hc : s.changed = false) (hne : s.entries ≠ []) :
    s.checkpoint store state = (s, .ok false) := by
  rw [checkpoint, if_pos]
  simpa only [hc, Bool.not_false, Bool.true_and, Bool.not_eq_true', List.isEmpty_eq_false_iff] using hne

lemma checkpoint_cases (store : Store σ) (state : σ) (s : AutoSaver) :
    (s.changed = false ∧ s.entries ≠ [] ∧ s.checkpoint store state = (s, .ok false)) ∨
      (∃ e, store.snapshot state = .error e ∧ s.checkpoint store state = (s, .error e)) ∨
      ∃ text, store.snapshot state = .ok text ∧
        s.checkpoint store state = ((s.onSnapshot text).1, .ok (s.onSnapshot text).2) := by
  by_cases h : s.changed = false ∧ s.entries ≠ []
  · exact .inl ⟨h.1, h.2, checkpoint_settled h.1 h.2⟩
  · have hdue : ¬(!s.changed && !s.entries.isEmpty) = true := by simpa using h
    rw [checkpoint, if_neg hdue]
    cases hs : store.snapshot state with
    | error e => exact .inr (.inl ⟨e, rfl, rfl⟩)
    | ok text => exact .inr (.inr ⟨text, rfl, rfl⟩)

lemma checkpoint_frame (store : Store σ) (state : σ) (s : AutoSaver) :
    ∃ entries cursor changed, (s.checkpoint store state).1 = { s with entries, cursor, changed } := by
  obtain ⟨-, -, hc⟩ | ⟨e, -, hc⟩ | ⟨text, -, hc⟩ := checkpoint_cases store state s
  · exact ⟨_, _, _, congrArg Prod.fst hc⟩
  · exact ⟨_, _, _, congrArg Prod.fst hc⟩
  · obtain ⟨entries, cursor, hs⟩ := onSnapshot_frame text s
    exact ⟨entries, cursor, false, (congrArg Prod.fst hc).trans hs⟩

lemma saveRequired_checkpoint (store : Store σ) (state : σ) (s : AutoSaver) :
    (s.checkpoint store state).1.saveRequired = s.saveRequired := by
  obtain ⟨entries, cursor, changed, hs⟩ := checkpoint_frame store state s
  rw [hs]

lemma goTo_cases (store : Store σ) (now : ℕ) (dir : Direction) (state : σ) (s : AutoSaver) :
    (∃ e, s.goTo store now dir state = (s, .error e)) ∨
      ∃ i entry state', s.target dir = some i ∧ s.entries[i]? = some entry ∧ store.restore entry state = .ok state' ∧
        s.goTo store now dir state = (s.moveTo now i, .ok { state := state', reissued := s.propertyContext }) := by
  rw [goTo]
  cases htarget : s.target dir with
  | none => exact .inl ⟨_, rfl⟩
  | some i =>
    cases hentry : s.entries[i]? with
    | none => exact .inl ⟨dir.exhausted, by simp only [hentry]⟩
    | some entry =>
      cases hrestore : store.restore entry state with
      | error e => exact .inl ⟨e, by simp only [hentry, hrestore]⟩
      | ok state' => exact .inr ⟨i, entry, state', rfl, hentry, hrestore, by simp only [hentry, hrestore]⟩

lemma goTo_of_restore {now i : ℕ} {dir : Direction} {state' : σ} (hi : s.target dir = some i)
    (he : s.entries[i]? = some text) (hr : store.restore text state = .ok state') :
    s.goTo store now dir state = (s.moveTo now i, .ok { state := state', reissued := s.propertyContext }) := by
  simp only [goTo, hi, he, hr]

lemma travel_of_checkpoint {recorded : Bool} (hc : s.checkpoint store state = (s', .ok recorded)) (now : ℕ)
    (dir : Direction) : s.travel store now dir state = s'.goTo store now dir state := by
  rw [travel, hc]

lemma travel_cases (store : Store σ) (now : ℕ) (dir : Direction) (state : σ) (s : AutoSaver) :
    (∃ e, s.travel store now dir state = ((s.checkpoint store state).1, .error e)) ∨
      ∃ s' recorded i entry state', s.checkpoint store state = (s', .ok recorded) ∧ s'.target dir = some i ∧
        s'.entries[i]? = some entry ∧ store.restore entry state = .ok state' ∧
        s.travel store now dir state = (s'.moveTo now i, .ok { state := state', reissued := s'.propertyContext }) := by
  rcases hc : s.checkpoint store state with ⟨s', outcome⟩
  cases outcome with
  | error e => exact .inl ⟨e, by rw [travel, hc]⟩
  | ok recorded =>
    rw [travel_of_checkpoint hc]
    obtain ⟨e, he⟩ | ⟨i, entry, state', htarget, hentry, hrestore, hgo⟩ := goTo_cases store now dir state s'
    · exact .inl ⟨e, he⟩
    · exact .inr ⟨s', recorded, i, entry, state', rfl, htarget, hentry, hrestore, hgo⟩

lemma entries_onSnapshot (text : String) (s : AutoSaver) :
    (s.onSnapshot text).1.entries = s.entries ∨ s.Recorded text (s.onSnapshot text).1 :=
  (onSnapshot_cases text s).imp (fun h => by rw [h.2]) fun h => h.2.2

lemma entries_checkpoint (store : Store σ) (state : σ) (s : AutoSaver) :
    (s.checkpoint store state).1.entries = s.entries ∨
      ∃ text, store.snapshot state = .ok text ∧ s.Recorded text (s.checkpoint store state).1 := by
  obtain ⟨-, -, hc⟩ | ⟨e, -, hc⟩ | ⟨text, hs, hc⟩ := checkpoint_cases store state s
  · exact .inl (by rw [hc])
  · exact .inl (by rw [hc])
  · rw [hc]
    exact (entries_onSnapshot text s).imp_right fun h => ⟨text, hs, h⟩

lemma InBounds.target_lt {dir : Direction} {i : ℕ} (h : s.InBounds) (hi : s.target dir = some i) :
    i < s.entries.length := by
  cases dir with
  | back =>
    obtain ⟨j, hj, hi⟩ := Option.bind_eq_some_iff.mp hi
    have hlt := h.cursor_lt j hj
    split at hi
    · cases hi
    · obtain rfl := Option.some.inj hi
      omega
  | forward => exact of_decide_eq_true (Option.filter_eq_some_iff.mp hi).2

structure Tracks (store : Store σ) (config : AutoSaveConfig) (state : σ) (s : AutoSaver) : Prop where
  config_eq : s.config = config
  bounds : s.InBounds
  written : ∀ text ∈ s.entries, store.Written text
  shown : s.changed = false → ∀ text, s.currentEntry = some text → store.snapshot state = .ok text

namespace Tracks

lemma fresh (store : Store σ) (config : AutoSaveConfig) (state : σ) : Tracks store config state { config } where
  config_eq := rfl
  bounds := ⟨Nat.zero_le _, Iff.rfl.mpr ⟨fun _ => rfl, fun _ => rfl⟩, nofun, List.isChain_nil⟩
  written := nofun
  shown := nofun

variable (h : Tracks store config state s)

include h

lemma edit (now : ℕ) (state' : σ) : Tracks store config state' (s.markChanged now) where
  config_eq := h.config_eq
  bounds := ⟨h.bounds.length_le, h.bounds.cursor_none, h.bounds.cursor_lt, h.bounds.differ⟩
  written := h.written
  shown := nofun

lemma onSnapshot (hs : store.snapshot state = .ok text) : Tracks store config state (s.onSnapshot text).1 where
  config_eq := (config_onSnapshot text s).trans h.config_eq
  bounds := h.bounds.onSnapshot text
  written x hx := (mem_entries_onSnapshot hx).elim (h.written x) fun hx => ⟨state, hx ▸ hs⟩
  shown _ x hx := by rwa [← Option.some.inj ((currentEntry_onSnapshot text s).symm.trans hx)]

lemma checkpoint : Tracks store config state (s.checkpoint store state).1 := by
  obtain ⟨-, -, hc⟩ | ⟨e, -, hc⟩ | ⟨text, hs, hc⟩ := checkpoint_cases store state s
  · rwa [hc]
  · rwa [hc]
  · rw [hc]
    exact h.onSnapshot hs

lemma moveTo {i : ℕ} (now : ℕ) {state' : σ} (hi : s.entries[i]? = some text)
    (hs : store.snapshot state' = .ok text) : Tracks store config state' (s.moveTo now i) where
  config_eq := h.config_eq
  bounds := by
    obtain ⟨hlt, -⟩ := List.getElem?_eq_some_iff.mp hi
    refine ⟨h.bounds.length_le, ⟨nofun, fun hnil => ?_⟩, fun j hj => Option.some.inj hj ▸ hlt, h.bounds.differ⟩
    exact absurd hlt (List.eq_nil_iff_length_eq_zero.mp hnil ▸ Nat.not_lt_zero i)
  written := h.written
  shown _ x hx := by rwa [← Option.some.inj ((currentEntry_moveTo now hi).symm.trans hx)]

end Tracks

structure Rests (store : Store σ) (entries : List String) (i : ℕ) (state : σ) (s : AutoSaver) : Prop where
  entries_eq : s.entries = entries
  cursor_eq : s.cursor = some i
  settled : s.changed = false
  written : ∀ text ∈ entries, store.Written text
  shown : ∃ text, entries[i]? = some text ∧ store.snapshot state = .ok text

lemma settled_of_checkpoint {recorded : Bool} (hc : s.checkpoint store state = (s', .ok recorded)) :
    s'.changed = false ∧ s'.entries ≠ [] := by
  obtain ⟨hs, hne, hc'⟩ | ⟨e, -, hc'⟩ | ⟨text, -, hc'⟩ := checkpoint_cases store state s
  · cases hc.symm.trans hc'
    exact ⟨hs, hne⟩
  · cases hc.symm.trans hc'
  · cases hc.symm.trans hc'
    exact ⟨changed_onSnapshot text s, List.ne_nil_of_mem (mem_of_currentEntry (currentEntry_onSnapshot text s))⟩

lemma Tracks.rests {i : ℕ} (h : Tracks store config state s) (hs : s.changed = false) (hi : s.cursor = some i) :
    Rests store s.entries i state s where
  entries_eq := rfl
  cursor_eq := hi
  settled := hs
  written := h.written
  shown := by
    have hentry := List.getElem?_eq_getElem (h.bounds.cursor_lt i hi)
    exact ⟨_, hentry, h.shown hs _ (currentEntry_eq_some.mpr ⟨i, hi, hentry⟩)⟩

lemma Tracks.rests_checkpoint {recorded : Bool} (h : Tracks store config state s)
    (hc : s.checkpoint store state = (s', .ok recorded)) : ∃ i, Rests store s'.entries i state s' := by
  have h' : Tracks store config state s' := by simpa only [hc] using h.checkpoint
  obtain ⟨hs, hne⟩ := settled_of_checkpoint hc
  obtain ⟨i, hi⟩ := Option.ne_none_iff_exists'.mp fun hnone => hne (h'.bounds.cursor_none.mp hnone)
  exact ⟨i, h'.rests hs hi⟩

namespace Rests

variable {entries : List String} {i j : ℕ} (h : Rests store entries i state s)

include h

lemma checkpoint_eq : s.checkpoint store state = (s, .ok false) := by
  obtain ⟨text, hi, -⟩ := h.shown
  refine checkpoint_settled h.settled ?_
  rw [h.entries_eq]
  exact List.ne_nil_of_mem (List.mem_of_getElem? hi)

lemma currentEntry_eq : ∃ text, s.currentEntry = some text ∧ store.snapshot state = .ok text := by
  obtain ⟨text, hi, hs⟩ := h.shown
  exact ⟨text, currentEntry_eq_some.mpr ⟨i, h.cursor_eq, h.entries_eq ▸ hi⟩, hs⟩

lemma moveTo (now : ℕ) {state' : σ} (hj : entries[j]? = some text) (hs : store.snapshot state' = .ok text) :
    Rests store entries j state' (s.moveTo now j) where
  entries_eq := h.entries_eq
  cursor_eq := rfl
  settled := rfl
  written := h.written
  shown := ⟨text, hj, hs⟩

lemma target_back : s.target .back = some j ↔ i = j + 1 := by
  rw [target, h.cursor_eq, Option.bind_some]
  cases i with
  | zero => simp
  | succ i => simp [eq_comm]

lemma target_forward (hj : i + 1 < entries.length) : s.target .forward = some (i + 1) := by
  simp only [target, h.cursor_eq, h.entries_eq, Option.map_some, Option.filter_some, decide_eq_true hj, if_true]

end Rests

end AutoSaver

end BlockStudio
