/-! Finite sets as ascending lists, so that equal sets are equal values. -/

namespace BlockStudio

structure SortedSet (α : Type) [LT α] where
  toList : List α
  ascending : toList.Pairwise (· < ·)

namespace SortedSet

variable {α : Type} [LT α]

instance [Repr α] : Repr (SortedSet α) := ⟨fun s n => reprPrec s.toList n⟩

theorem ext_toList {s t : SortedSet α} (h : s.toList = t.toList) : s = t := by
  cases s
  cases t
  cases h
  rfl

instance [DecidableEq α] : DecidableEq (SortedSet α) := fun s t =>
  if h : s.toList = t.toList then isTrue (ext_toList h) else isFalse fun e => h (e ▸ rfl)

def empty : SortedSet α := ⟨[], .nil⟩

instance : EmptyCollection (SortedSet α) := ⟨empty⟩

instance : Inhabited (SortedSet α) := ⟨empty⟩

instance : Membership α (SortedSet α) := ⟨fun s a => a ∈ s.toList⟩

theorem mem_toList {s : SortedSet α} {a : α} : a ∈ s ↔ a ∈ s.toList := Iff.rfl

instance [DecidableEq α] (a : α) (s : SortedSet α) : Decidable (a ∈ s) :=
  inferInstanceAs (Decidable (a ∈ s.toList))

def isEmpty (s : SortedSet α) : Bool := s.toList.isEmpty

def filter (p : α → Bool) (s : SortedSet α) : SortedSet α := ⟨s.toList.filter p, s.ascending.filter p⟩

theorem mem_filter {p : α → Bool} {s : SortedSet α} {a : α} : a ∈ s.filter p ↔ a ∈ s ∧ p a = true :=
  List.mem_filter

def erase [DecidableEq α] (a : α) (s : SortedSet α) : SortedSet α := s.filter (· ≠ a)

variable [DecidableLT α]

def insertList (a : α) : List α → List α
  | [] => [a]
  | b :: l => if a < b then a :: b :: l else if b < a then b :: insertList a l else b :: l

variable [LE α] [Std.LawfulOrderLT α] [Std.IsLinearOrder α]

theorem mem_insertList {a x : α} {l : List α} : x ∈ insertList a l ↔ x = a ∨ x ∈ l := by
  induction l with
  | nil => simp [insertList]
  | cons b l ih =>
    rw [insertList]
    split
    · simp
    split
    · simp [ih, or_left_comm]
    · rename_i h h'
      have e : a = b := ((Std.lt_trichotomy a b).resolve_left h).resolve_right h'
      simp [e]

theorem insertList_ascending {a : α} {l : List α} (h : l.Pairwise (· < ·)) :
    (insertList a l).Pairwise (· < ·) := by
  induction l with
  | nil => simp [insertList]
  | cons b l ih =>
    obtain ⟨hb, hl⟩ := List.pairwise_cons.mp h
    rw [insertList]
    split
    · rename_i hab
      refine List.pairwise_cons.mpr ⟨fun x hx => ?_, h⟩
      cases List.mem_cons.mp hx with
      | inl e => exact e ▸ hab
      | inr hx => exact Std.lt_trans hab (hb x hx)
    split
    · rename_i hba
      refine List.pairwise_cons.mpr ⟨fun x hx => ?_, ih hl⟩
      cases mem_insertList.mp hx with
      | inl e => exact e ▸ hba
      | inr hx => exact hb x hx
    · exact h

def insert (a : α) (s : SortedSet α) : SortedSet α := ⟨insertList a s.toList, insertList_ascending s.ascending⟩

theorem mem_insert {a x : α} {s : SortedSet α} : x ∈ s.insert a ↔ x = a ∨ x ∈ s := mem_insertList

def ofList (l : List α) : SortedSet α := l.foldl (fun s a => s.insert a) empty

theorem mem_ofList {x : α} {l : List α} : x ∈ ofList l ↔ x ∈ l := by
  have key : ∀ (l : List α) (s : SortedSet α), x ∈ l.foldl (fun s a => s.insert a) s ↔ x ∈ s ∨ x ∈ l := by
    intro l
    induction l with
    | nil => simp
    | cons a l ih =>
      intro s
      simp only [List.foldl_cons, ih, mem_insert, List.mem_cons, or_assoc, or_left_comm]
  simpa [ofList, empty, mem_toList] using key l empty

theorem insertList_of_forall_lt {a : α} {l : List α} (h : ∀ b ∈ l, b < a) : insertList a l = l ++ [a] := by
  induction l with
  | nil => rfl
  | cons b l ih =>
    have hb := h b List.mem_cons_self
    have hba : ¬ a < b := fun hab => Std.lt_irrefl (Std.lt_trans hab hb)
    rw [insertList, if_neg hba, if_pos hb, ih fun c hc => h c (List.mem_cons_of_mem b hc), List.cons_append]

theorem ofList_toList (s : SortedSet α) : ofList s.toList = s := by
  have key : ∀ (l : List α) (t : SortedSet α), (t.toList ++ l).Pairwise (· < ·) →
      (l.foldl (fun s a => s.insert a) t).toList = t.toList ++ l := by
    intro l
    induction l with
    | nil => exact fun t _ => (List.append_nil _).symm
    | cons a l ih =>
      intro t h
      have hins : (t.insert a).toList = t.toList ++ [a] := insertList_of_forall_lt fun b hb =>
        (List.pairwise_append.mp h).2.2 b hb a List.mem_cons_self
      rw [List.foldl_cons, ih _ (by rwa [hins, List.append_assoc]), hins, List.append_assoc]
      rfl
  exact ext_toList (key s.toList empty s.ascending)

end SortedSet

end BlockStudio
