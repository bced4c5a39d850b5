/-! Values under distinct names, in the order in which the names first came. -/

namespace BlockStudio

structure NameMap (β : Type) where
  entries : List (String × β)
  distinct : (entries.map Prod.fst).Nodup

namespace NameMap

variable {β : Type}

instance [Repr β] : Repr (NameMap β) := ⟨fun m n => reprPrec m.entries n⟩

theorem ext_entries {m n : NameMap β} (h : m.entries = n.entries) : m = n := by
  cases m
  cases n
  cases h
  rfl

instance [DecidableEq β] : DecidableEq (NameMap β) := fun m n =>
  if h : m.entries = n.entries then isTrue (ext_entries h) else isFalse fun e => h (e ▸ rfl)

def empty : NameMap β := ⟨[], .nil⟩

instance : Inhabited (NameMap β) := ⟨empty⟩

def size (m : NameMap β) : Nat := m.entries.length

def names (m : NameMap β) : List String := m.entries.map Prod.fst

def values (m : NameMap β) : List β := m.entries.map Prod.snd

def find? (name : String) : List (String × β) → Option β
  | [] => none
  | (n, v) :: l => if n = name then some v else find? name l

def get? (m : NameMap β) (name : String) : Option β := find? name m.entries

def contains (m : NameMap β) (name : String) : Bool := (m.get? name).isSome

theorem find?_eq_none_iff {name : String} {l : List (String × β)} :
    find? name l = none ↔ name ∉ l.map Prod.fst := by
  induction l with
  | nil => simp [find?]
  | cons e l ih => grind [find?]

def putEntry (name : String) (v : β) : List (String × β) → List (String × β)
  | [] => [(name, v)]
  | e :: l => if e.1 = name then (name, v) :: l else e :: putEntry name v l

theorem mem_names_putEntry {name x : String} {v : β} {l : List (String × β)} :
    x ∈ (putEntry name v l).map Prod.fst ↔ x = name ∨ x ∈ l.map Prod.fst := by
  induction l with
  | nil => simp [putEntry]
  | cons e l ih =>
    rw [putEntry]
    split
    · rename_i h
      simp [h]
    · simp [ih, or_left_comm]

theorem putEntry_distinct {name : String} {v : β} {l : List (String × β)}
    (h : (l.map Prod.fst).Nodup) : ((putEntry name v l).map Prod.fst).Nodup := by
  induction l with
  | nil => simp [putEntry]
  | cons e l ih =>
    rw [List.map_cons, List.nodup_cons] at h
    rw [putEntry]
    split
    · rename_i he
      simpa [List.nodup_cons, he] using h
    · rename_i he
      rw [List.map_cons, List.nodup_cons]
      refine ⟨fun hm => ?_, ih h.2⟩
      cases mem_names_putEntry.mp hm with
      | inl hm => exact he hm
      | inr hm => exact h.1 hm

def put (m : NameMap β) (name : String) (v : β) : NameMap β :=
  ⟨putEntry name v m.entries, putEntry_distinct m.distinct⟩

theorem find?_putEntry {name name' : String} {v : β} {l : List (String × β)} :
    find? name' (putEntry name v l) = if name' = name then some v else find? name' l := by
  induction l with
  | nil => grind [putEntry, find?]
  | cons e l ih => grind [putEntry, find?]

theorem get?_put (m : NameMap β) (name name' : String) (v : β) :
    (m.put name v).get? name' = if name' = name then some v else m.get? name' := find?_putEntry

def erase (m : NameMap β) (name : String) : NameMap β where
  entries := m.entries.filter (·.1 ≠ name)
  distinct := m.distinct.sublist (List.filter_sublist.map Prod.fst)

theorem find?_filter_ne {name name' : String} {l : List (String × β)} :
    find? name' (l.filter (·.1 ≠ name)) = if name' = name then none else find? name' l := by
  induction l with
  | nil => simp [find?]
  | cons e l ih => grind [find?]

theorem get?_erase (m : NameMap β) (name name' : String) :
    (m.erase name).get? name' = if name' = name then none else m.get? name' := find?_filter_ne

def modify (m : NameMap β) (name : String) (f : β → β) : NameMap β where
  entries := m.entries.map fun e => if e.1 = name then (e.1, f e.2) else e
  distinct := by
    have h : (m.entries.map fun e => if e.1 = name then (e.1, f e.2) else e).map Prod.fst =
        m.entries.map Prod.fst := by
      rw [List.map_map]
      exact List.map_congr_left fun e _ => by by_cases h : e.1 = name <;> simp [h]
    exact h ▸ m.distinct

theorem find?_modify {name name' : String} {f : β → β} {l : List (String × β)} :
    find? name' (l.map fun e => if e.1 = name then (e.1, f e.2) else e) =
      if name' = name then (find? name' l).map f else find? name' l := by
  induction l with
  | nil => simp [find?]
  | cons e l ih => grind [find?]

theorem get?_modify (m : NameMap β) (name name' : String) (f : β → β) :
    (m.modify name f).get? name' = if name' = name then (m.get? name').map f else m.get? name' :=
  find?_modify

def renameEntry (old new : String) (l : List (String × β)) : List (String × β) :=
  l.map fun e => if e.1 = old then (new, e.2) else e

theorem renameEntry_distinct {old new : String} {l : List (String × β)}
    (h : (l.map Prod.fst).Nodup) (hn : new ∉ l.map Prod.fst) :
    ((renameEntry old new l).map Prod.fst).Nodup := by
  induction l with
  | nil => simp [renameEntry]
  | cons e l ih =>
    rw [List.map_cons, List.nodup_cons] at h
    have hne : new ∉ l.map Prod.fst := fun hm => hn (by simp only [List.map_cons, List.mem_cons, hm, or_true])
    have htail := ih h.2 hne
    have hmem : ∀ x, x ∈ (renameEntry old new l).map Prod.fst → x = new ∨ (x ≠ old ∧ x ∈ l.map Prod.fst) := by
      intro x hx
      simp only [renameEntry, List.map_map, List.mem_map, Function.comp_apply] at hx
      obtain ⟨y, hy, rfl⟩ := hx
      by_cases hyo : y.1 = old
      · simp [hyo]
      · simp only [hyo, if_false]
        exact Or.inr ⟨hyo, List.mem_map_of_mem hy⟩
    have hrest : renameEntry old new (e :: l) =
        (if e.1 = old then (new, e.2) else e) :: renameEntry old new l := rfl
    rw [hrest, List.map_cons, List.nodup_cons]
    refine ⟨fun hm => ?_, htail⟩
    by_cases heo : e.1 = old
    · simp only [heo, if_true] at hm
      have : ∀ y ∈ l, y.1 ≠ old := fun y hy hyo => h.1 (heo ▸ hyo ▸ List.mem_map_of_mem hy)
      have same : renameEntry old new l = l :=
        (List.map_congr_left fun y hy => by simp [this y hy]).trans (List.map_id l)
      exact hne (same ▸ hm)
    · simp only [heo, if_false] at hm
      cases hmem _ hm with
      | inl hx => exact hn (by simp [hx])
      | inr hx => exact h.1 hx.2

def rename (m : NameMap β) (old new : String) : NameMap β :=
  if h : new ∈ m.entries.map Prod.fst then m else ⟨renameEntry old new m.entries, renameEntry_distinct m.distinct h⟩

def ofList (l : List (String × β)) : NameMap β := l.foldl (fun m e => m.put e.1 e.2) empty

theorem putEntry_of_notMem {name : String} {v : β} {l : List (String × β)} (h : name ∉ l.map Prod.fst) :
    putEntry name v l = l ++ [(name, v)] := by
  induction l with
  | nil => rfl
  | cons e l ih =>
    rw [List.map_cons, List.mem_cons, not_or] at h
    rw [putEntry, if_neg (Ne.symm h.1), ih h.2, List.cons_append]

theorem ofList_entries (m : NameMap β) : ofList m.entries = m := by
  have key : ∀ (l : List (String × β)) (k : NameMap β), ((k.entries ++ l).map Prod.fst).Nodup →
      (l.foldl (fun m e => m.put e.1 e.2) k).entries = k.entries ++ l := by
    intro l
    induction l with
    | nil => exact fun k _ => (List.append_nil _).symm
    | cons e l ih =>
      intro k h
      have hput : (k.put e.1 e.2).entries = k.entries ++ [e] := putEntry_of_notMem fun hm => by
        rw [List.map_append, List.map_cons] at h
        exact (List.nodup_append.mp h).2.2 _ hm _ List.mem_cons_self rfl
      rw [List.foldl_cons, ih _ (by rwa [hput, List.append_assoc]), hput, List.append_assoc]
      rfl
  exact ext_entries (key m.entries empty m.distinct)

end NameMap

end BlockStudio
