/-! Finite maps as lists in ascending order of their keys, so that equal maps are equal values. -/

namespace BlockStudio

structure SortedMap (κ β : Type) [LT κ] where
  entries : List (κ × β)
  ascending : entries.Pairwise (·.1 < ·.1)

namespace SortedMap

variable {κ β : Type} [LT κ]

instance [Repr κ] [Repr β] : Repr (SortedMap κ β) := ⟨fun m n => reprPrec m.entries n⟩

theorem ext_entries {m n : SortedMap κ β} (h : m.entries = n.entries) : m = n := by
  cases m
  cases n
  cases h
  rfl

instance [DecidableEq κ] [DecidableEq β] : DecidableEq (SortedMap κ β) := fun m n =>
  if h : m.entries = n.entries then isTrue (ext_entries h) else isFalse fun e => h (e ▸ rfl)

def empty : SortedMap κ β := ⟨[], .nil⟩

instance : Inhabited (SortedMap κ β) := ⟨empty⟩

def size (m : SortedMap κ β) : Nat := m.entries.length

def keys (m : SortedMap κ β) : List κ := m.entries.map Prod.fst

def values (m : SortedMap κ β) : List β := m.entries.map Prod.snd

def find? [DecidableEq κ] (k : κ) : List (κ × β) → Option β
  | [] => none
  | (k', v) :: l => if k' = k then some v else find? k l

def get? [DecidableEq κ] (m : SortedMap κ β) (k : κ) : Option β := find? k m.entries

def contains [DecidableEq κ] (m : SortedMap κ β) (k : κ) : Bool := (m.get? k).isSome

def erase [DecidableEq κ] (m : SortedMap κ β) (k : κ) : SortedMap κ β :=
  ⟨m.entries.filter (·.1 ≠ k), m.ascending.filter _⟩

def modify [DecidableEq κ] (m : SortedMap κ β) (k : κ) (f : β → β) : SortedMap κ β where
  entries := m.entries.map fun e => if e.1 = k then (e.1, f e.2) else e
  ascending := by
    refine List.pairwise_map.mpr (m.ascending.imp fun {a b} h => ?_)
    by_cases ha : a.1 = k <;> by_cases hb : b.1 = k <;> simpa [ha, hb] using h

section Lookup

variable [DecidableEq κ]

omit [LT κ] in
theorem find?_eq_none_iff {k : κ} {l : List (κ × β)} : find? k l = none ↔ k ∉ l.map Prod.fst := by
  induction l with
  | nil => simp [find?]
  | cons e l ih => grind [find?]

theorem contains_iff (m : SortedMap κ β) (k : κ) : m.contains k = true ↔ k ∈ m.keys := by
  rw [contains, Option.isSome_iff_ne_none, get?, ne_eq, find?_eq_none_iff, Decidable.not_not, keys]

omit [LT κ] in
theorem find?_filter_ne {k k' : κ} {l : List (κ × β)} :
    find? k' (l.filter (·.1 ≠ k)) = if k' = k then none else find? k' l := by
  induction l with
  | nil => simp [find?]
  | cons e l ih => grind [find?]

theorem get?_erase (m : SortedMap κ β) (k k' : κ) :
    (m.erase k).get? k' = if k' = k then none else m.get? k' := find?_filter_ne

omit [LT κ] in
theorem find?_modify {k k' : κ} {f : β → β} {l : List (κ × β)} :
    find? k' (l.map fun e => if e.1 = k then (e.1, f e.2) else e) =
      if k' = k then (find? k' l).map f else find? k' l := by
  induction l with
  | nil => simp [find?]
  | cons e l ih => grind [find?]

theorem get?_modify (m : SortedMap κ β) (k k' : κ) (f : β → β) :
    (m.modify k f).get? k' = if k' = k then (m.get? k').map f else m.get? k' := find?_modify

end Lookup

variable [DecidableLT κ]

def insertEntry (k : κ) (v : β) : List (κ × β) → List (κ × β)
  | [] => [(k, v)]
  | e :: l => if k < e.1 then (k, v) :: e :: l else if e.1 < k then e :: insertEntry k v l else (k, v) :: l

theorem mem_insertEntry {k : κ} {v : β} {x : κ × β} {l : List (κ × β)} (h : x ∈ insertEntry k v l) :
    x = (k, v) ∨ x ∈ l := by
  induction l with
  | nil => simpa [insertEntry] using h
  | cons e l ih => grind [insertEntry]

variable [LE κ] [Std.LawfulOrderLT κ] [Std.IsLinearOrder κ]

theorem insertEntry_ascending {k : κ} {v : β} {l : List (κ × β)} (h : l.Pairwise (·.1 < ·.1)) :
    (insertEntry k v l).Pairwise (·.1 < ·.1) := by
  induction l with
  | nil => simp [insertEntry]
  | cons e l ih =>
    obtain ⟨he, hl⟩ := List.pairwise_cons.mp h
    rw [insertEntry]
    split
    · rename_i hk
      refine List.pairwise_cons.mpr ⟨fun x hx => ?_, h⟩
      cases List.mem_cons.mp hx with
      | inl hx => exact hx ▸ hk
      | inr hx => exact Std.lt_trans hk (he x hx)
    split
    · rename_i hk
      refine List.pairwise_cons.mpr ⟨fun x hx => ?_, ih hl⟩
      cases mem_insertEntry hx with
      | inl hx => exact hx ▸ hk
      | inr hx => exact he x hx
    · rename_i h₁ h₂
      have e' : k = e.1 := ((Std.lt_trichotomy k e.1).resolve_left h₁).resolve_right h₂
      exact List.pairwise_cons.mpr ⟨fun x hx => e' ▸ he x hx, hl⟩

def insert (m : SortedMap κ β) (k : κ) (v : β) : SortedMap κ β :=
  ⟨insertEntry k v m.entries, insertEntry_ascending m.ascending⟩

variable [DecidableEq κ]

theorem find?_insertEntry {k k' : κ} {v : β} {l : List (κ × β)} :
    find? k' (insertEntry k v l) = if k' = k then some v else find? k' l := by
  induction l with
  | nil => grind [insertEntry, find?]
  | cons e l ih =>
    rw [insertEntry]
    split
    · grind [find?]
    split
    · rename_i h
      have : e.1 ≠ k := fun e' => Std.lt_irrefl (e' ▸ h)
      grind [find?]
    · rename_i h₁ h₂
      have e' : k = e.1 := ((Std.lt_trichotomy k e.1).resolve_left h₁).resolve_right h₂
      grind [find?]

omit [DecidableLT κ] [Std.IsLinearOrder κ] in
theorem find?_eq_some_iff {k : κ} {v : β} {l : List (κ × β)} (h : l.Pairwise (·.1 < ·.1)) :
    find? k l = some v ↔ (k, v) ∈ l := by
  induction l with
  | nil => simp [find?]
  | cons e l ih =>
    obtain ⟨he, hl⟩ := List.pairwise_cons.mp h
    rw [find?]
    split
    · rename_i hk
      subst hk
      have hn : (e.1, v) ∉ l := fun hm => Std.lt_irrefl (he (e.1, v) hm)
      simp [hn, Prod.ext_iff, eq_comm]
    · rename_i hk
      rw [ih hl, List.mem_cons]
      exact ⟨.inr, fun hm => hm.resolve_left fun e' => hk (congrArg Prod.fst e').symm⟩

omit [DecidableLT κ] [Std.IsLinearOrder κ] in
theorem get?_eq_some_iff (m : SortedMap κ β) (k : κ) (v : β) : m.get? k = some v ↔ (k, v) ∈ m.entries :=
  find?_eq_some_iff m.ascending

omit [DecidableEq κ] in
theorem insertEntry_of_forall_lt {k : κ} {v : β} {l : List (κ × β)}
    (h : ∀ e ∈ l, e.1 < k) : insertEntry k v l = l ++ [(k, v)] := by
  induction l with
  | nil => rfl
  | cons e l ih =>
    have he := h e List.mem_cons_self
    have hk : ¬ k < e.1 := fun hlt => Std.lt_irrefl (Std.lt_trans hlt he)
    rw [insertEntry, if_neg hk, if_pos he, ih fun x hx => h x (List.mem_cons_of_mem e hx),
      List.cons_append]

theorem get?_insert (m : SortedMap κ β) (k k' : κ) (v : β) :
    (m.insert k v).get? k' = if k' = k then some v else m.get? k' := find?_insertEntry

end SortedMap

end BlockStudio
