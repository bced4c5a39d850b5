import BlockStudio.History.AutoSaver
import Mathlib.Data.List.Chain
import Mathlib.Tactic.Lemma

namespace BlockStudio.AutoSaver

variable {s s' : AutoSaver} {text : String} {i : ℕ}

structure InBounds (s : AutoSaver) : Prop where
  length_le : s.entries.length ≤ s.capacity
  cursor_none : s.cursor = none ↔ s.entries = []
  cursor_lt : ∀ i, s.cursor = some i → i < s.entries.length
  differ : s.entries.IsChain (· ≠ ·)

def Recorded (s : AutoSaver) (text : String) (s' : AutoSaver) : Prop :=
  ∃ evicted rest, s.kept = evicted ++ rest ∧ evicted.length = s.kept.length + 1 - s.capacity ∧
    s'.entries = rest ++ [text]

lemma capacity_pos (s : AutoSaver) : 0 < s.capacity :=
  Nat.lt_of_lt_of_le Nat.zero_lt_one (Nat.le_max_right _ _)

lemma currentEntry_eq_some : s.currentEntry = some text ↔ ∃ i, s.cursor = some i ∧ s.entries[i]? = some text :=
  Option.bind_eq_some_iff

lemma mem_of_currentEntry (h : s.currentEntry = some text) : text ∈ s.entries := by
  obtain ⟨i, -, hi⟩ := currentEntry_eq_some.mp h
  exact List.mem_of_getElem? hi

lemma currentEntry_moveTo (now : ℕ) (hi : s.entries[i]? = some text) : (s.moveTo now i).currentEntry = some text :=
  currentEntry_eq_some.mpr ⟨i, rfl, hi⟩

lemma isPrefix_kept (s : AutoSaver) : s.kept <+: s.entries := by
  rw [kept]
  split
  · exact List.take_prefix _ _
  · exact List.prefix_rfl

lemma entries_append (text : String) (s : AutoSaver) :
    (s.append text).entries = s.kept.drop (s.kept.length + 1 - s.capacity) ++ [text] := by
  have hpos := s.capacity_pos
  simp only [append, List.length_append, List.length_singleton]
  exact List.drop_append_of_le_length (by omega)

lemma entries_append_ne_nil (text : String) (s : AutoSaver) : (s.append text).entries ≠ [] := by
  rw [entries_append]
  exact List.append_ne_nil_of_right_ne_nil _ (List.cons_ne_nil _ _)

lemma recorded_append (text : String) (s : AutoSaver) : s.Recorded text (s.append text) := by
  have hpos := s.capacity_pos
  exact ⟨_, _, (List.take_append_drop (s.kept.length + 1 - s.capacity) s.kept).symm,
    List.length_take_of_le (by omega), entries_append text s⟩

lemma currentEntry_append (text : String) (s : AutoSaver) : (s.append text).currentEntry = some text := by
  have hcursor : (s.append text).cursor = some ((s.append text).entries.length - 1) := rfl
  rw [currentEntry, hcursor, Option.bind_some, ← List.getLast?_eq_getElem?, entries_append, List.getLast?_concat]

namespace InBounds

lemma getLast?_kept (h : s.InBounds) : s.kept.getLast? = s.currentEntry := by
  cases hc : s.cursor with
  | none => simp only [kept, currentEntry, hc, h.cursor_none.mp hc, List.getLast?_nil, Option.bind_none]
  | some i =>
    have hi := h.cursor_lt i hc
    simp only [kept, currentEntry, hc, Option.bind_some, List.getLast?_take, Nat.add_one_sub_one]
    rw [if_neg i.succ_ne_zero, List.getElem?_eq_getElem hi, Option.some_or]

lemma append (h : s.InBounds) (hne : s.currentEntry ≠ some text) : (s.append text).InBounds where
  length_le := by
    have hcap : (s.append text).capacity = s.capacity := rfl
    rw [entries_append, hcap, List.length_append, List.length_drop, List.length_singleton]
    have hpos := s.capacity_pos
    omega
  cursor_none := ⟨nofun, fun hnil => absurd hnil (entries_append_ne_nil text s)⟩
  cursor_lt i hi := by
    obtain rfl := Option.some.inj hi
    exact Nat.sub_one_lt_of_lt (List.length_pos_of_ne_nil (entries_append_ne_nil text s))
  differ := by
    have hkept : s.kept.IsChain (· ≠ ·) := List.IsChain.prefix h.differ s.isPrefix_kept
    rw [entries_append]
    refine (hkept.drop _).append (List.isChain_singleton text) fun x hx y hy hxy => ?_
    obtain rfl : text = y := by simpa using hy
    refine hne (h.getLast?_kept ▸ ?_)
    rw [List.getLast?_drop] at hx
    split at hx
    · cases hx
    · exact hxy ▸ hx

lemma onSnapshot (h : s.InBounds) (text : String) : (s.onSnapshot text).1.InBounds := by
  have h' : { s with changed := false }.InBounds := ⟨h.length_le, h.cursor_none, h.cursor_lt, h.differ⟩
  rw [AutoSaver.onSnapshot]
  split
  · exact h'
  · exact h'.append ‹_›

end InBounds

lemma onSnapshot_frame (text : String) (s : AutoSaver) :
    ∃ entries cursor, (s.onSnapshot text).1 = { s with entries, cursor, changed := false } := by
  rw [onSnapshot]
  split
  · exact ⟨s.entries, s.cursor, rfl⟩
  · exact ⟨_, _, rfl⟩

lemma config_onSnapshot (text : String) (s : AutoSaver) : (s.onSnapshot text).1.config = s.config := by
  obtain ⟨entries, cursor, hs⟩ := onSnapshot_frame text s
  rw [hs]

lemma currentEntry_onSnapshot (text : String) (s : AutoSaver) : (s.onSnapshot text).1.currentEntry = some text := by
  rw [onSnapshot]
  split
  · assumption
  · exact currentEntry_append text _

lemma changed_onSnapshot (text : String) (s : AutoSaver) : (s.onSnapshot text).1.changed = false := by
  obtain ⟨entries, cursor, hs⟩ := onSnapshot_frame text s
  rw [hs]

lemma saveRequired_onSnapshot (text : String) (s : AutoSaver) :
    (s.onSnapshot text).1.saveRequired = s.saveRequired := by
  obtain ⟨entries, cursor, hs⟩ := onSnapshot_frame text s
  rw [hs]

lemma onSnapshot_cases (text : String) (s : AutoSaver) :
    (s.currentEntry = some text ∧ s.onSnapshot text = ({ s with changed := false }, false)) ∨
      (s.currentEntry ≠ some text ∧ (s.onSnapshot text).2 = true ∧ s.Recorded text (s.onSnapshot text).1) := by
  by_cases h : s.currentEntry = some text
  · exact .inl ⟨h, if_pos h⟩
  · have hs : s.onSnapshot text = ({ s with changed := false }.append text, true) := if_neg h
    exact .inr ⟨h, by rw [hs], by rw [hs]; exact recorded_append text { s with changed := false }⟩

end BlockStudio.AutoSaver
