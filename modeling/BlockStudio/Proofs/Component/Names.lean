import BlockStudio.Proofs.Collection.NameMap
import BlockStudio.Proofs.Workspace.Reached

namespace BlockStudio

lemma Edit.exists_of_bind_ok {σ α β : Type} {x : Edit σ α} {f : α → Edit σ β} {s s' : σ} {b : β}
    (h : (x >>= f) s = (.ok b, s')) : ∃ a t, x s = (.ok a, t) ∧ f a t = (.ok b, s') := by
  rcases hx : x s with ⟨r, t⟩
  cases r with
  | ok a => exact ⟨a, t, rfl, (bind_ok hx).symm.trans h⟩
  | error e => cases (bind_error hx).symm.trans h

namespace ComponentTree

variable {t t' : ComponentTree} {c : Component} {cs : List Component} {name old new genus parent x : String}
  {f : Component → Component} {n : ℕ} {u : Unit}

def Keyed (t : ComponentTree) : Prop := ∀ e ∈ t.components.entries, e.2.name = e.1

instance (t : ComponentTree) : Decidable t.Keyed := inferInstanceAs (Decidable (∀ e ∈ t.components.entries, _))

lemma keyed_iff : t.Keyed ↔ ∀ name c, t.get? name = some c → c.name = name :=
  ⟨fun h name c hc => h (name, c) (NameMap.mem_entries_iff.mpr hc),
    fun h e he => h e.1 e.2 (NameMap.mem_entries_iff.mp he)⟩

def names (t : ComponentTree) : List String := t.list.map (·.name)

lemma Keyed.mem_names (h : t.Keyed) : x ∈ t.names ↔ t.contains x = true := by
  have hnames : t.names = t.components.names := by
    rw [names, list, NameMap.values, NameMap.names, List.map_map]
    exact List.map_congr_left h
  rw [hnames, NameMap.mem_names_iff, contains]

lemma require_eq_ok : t.require name = .ok c ↔ t.get? name = some c := by
  rw [require]
  cases t.get? name with
  | none => exact ⟨nofun, nofun⟩
  | some d => exact ⟨fun h => congrArg some (Except.ok.inj h), fun h => congrArg Except.ok (Option.some.inj h)⟩

lemma contains_of_get? (h : t.get? name = some c) : t.contains name = true := by
  rw [contains, NameMap.contains]
  exact Option.isSome_iff_exists.mpr ⟨c, h⟩

lemma contains_modify (t : ComponentTree) (name : String) (f : Component → Component) (x : String) :
    (t.modify name f).contains x = t.contains x := by
  rw [contains, contains, NameMap.contains, NameMap.contains, modify, NameMap.get?_modify]
  split
  · exact Option.isSome_map
  · rfl

structure SameNames (t t' : ComponentTree) : Prop where
  contains_eq : ∀ x, t'.contains x = t.contains x
  keyed : t.Keyed → t'.Keyed

namespace SameNames

lemma refl (t : ComponentTree) : t.SameNames t := ⟨fun _ => rfl, id⟩

lemma modify (h : t.SameNames t') (hf : ∀ c, (f c).name = c.name) (name : String) :
    t.SameNames (t'.modify name f) where
  contains_eq x := (contains_modify t' name f x).trans (h.contains_eq x)
  keyed hk := by
    have hk' := keyed_iff.mp (h.keyed hk)
    refine keyed_iff.mpr fun x c hx => ?_
    rw [get?, ComponentTree.modify, NameMap.get?_modify] at hx
    split at hx
    · obtain ⟨d, hd, rfl⟩ := Option.map_eq_some_iff.mp hx
      exact (hf d).trans (hk' x d hd)
    · exact hk' x c hx

lemma dropChild (t : ComponentTree) (name : String) (parent : Option String) :
    t.SameNames (t.dropChild name parent) := by
  cases parent with
  | none => exact .refl t
  | some parent => exact SameNames.modify (.refl t) (fun _ => by rfl) parent

lemma renameLinks (t : ComponentTree) (c : Component) (old new : String) : t.SameNames (t.renameLinks c old new) := by
  have hchildren : ∀ (l : List String) (t' : ComponentTree), t.SameNames t' →
      t.SameNames (l.foldl (fun t child => t.modify child fun d => { d with parent := some new }) t') := by
    intro l
    induction l with
    | nil => exact fun _ h => h
    | cons child l ih => exact fun t' h => ih _ (h.modify (fun _ => by rfl) child)
  have h := hchildren (c.children.filter (· ≠ old)) t (.refl t)
  simp only [ComponentTree.renameLinks]
  split
  · split
    · exact h
    · exact h.modify (fun _ => by rfl) _
  · exact h

end SameNames

lemma contains_put (t : ComponentTree) (c : Component) (x : String) :
    (t.put c).contains x = true ↔ x = c.name ∨ t.contains x = true := by
  simp only [contains, NameMap.contains, put, NameMap.get?_put]
  by_cases hx : x = c.name
  · simp [hx]
  · simp [hx]

lemma Keyed.put (h : t.Keyed) (c : Component) : (t.put c).Keyed := by
  rw [keyed_iff] at h ⊢
  intro x d hx
  rw [get?, ComponentTree.put, NameMap.get?_put] at hx
  split at hx
  · obtain rfl := Option.some.inj hx
    exact (‹x = c.name›).symm
  · exact h x d hx

lemma contains_erase (t : ComponentTree) (name x : String) :
    ({ t with components := t.components.erase name } : ComponentTree).contains x = true ↔
      t.contains x = true ∧ x ≠ name := by
  simp only [contains, NameMap.contains, NameMap.get?_erase]
  by_cases hx : x = name
  · simp [hx]
  · simp [hx]

lemma Keyed.erase (h : t.Keyed) (name : String) :
    ({ t with components := t.components.erase name } : ComponentTree).Keyed :=
  fun e he => h e (List.mem_of_mem_filter he)

section Add

lemma add_eq_ok (h : add name genus parent t = (.ok u, t')) :
    t' = (t.modify parent fun p => { p with children := p.children ++ [name] }).put
      { name, genus, parent := some parent } := by
  rw [add, Edit.get_bind] at h
  split at h
  · cases h
  · cases hr : t.require parent with
    | error e => rw [hr] at h; cases h
    | ok c => rw [hr] at h; exact (Prod.mk.inj h).2.symm

lemma contains_add (h : add name genus parent t = (.ok u, t')) :
    t'.contains x = true ↔ x = name ∨ t.contains x = true := by
  rw [add_eq_ok h, contains_put, contains_modify]

lemma Keyed.add (hk : t.Keyed) (h : ComponentTree.add name genus parent t = (.ok u, t')) : t'.Keyed := by
  rw [add_eq_ok h]
  exact ((SameNames.modify (.refl t) (fun _ => by rfl) parent).keyed hk).put _

end Add

section Remove

lemma contains_of_mem_subtreeFrom (h : x ∈ t.subtreeFrom n name) : t.contains x = true := by
  induction n generalizing name with
  | zero => cases h
  | succ n ih =>
    rw [subtreeFrom] at h
    split at h
    · rename_i c hc
      obtain h | h := List.mem_append.mp h
      · obtain ⟨child, -, h⟩ := List.mem_flatMap.mp h
        exact ih h
      · rw [List.mem_singleton.mp h]
        exact contains_of_get? hc
    · cases h

lemma mem_subtree_self (h : t.get? name = some c) : name ∈ t.subtree name := by
  have hsize : 0 < t.size := List.length_pos_of_mem (NameMap.mem_entries_iff.mpr h)
  obtain ⟨n, hn⟩ := Nat.exists_eq_add_one.mpr hsize
  rw [subtree, hn, subtreeFrom, h]
  exact List.mem_append_right _ (List.mem_singleton_self name)

lemma contains_takeAll (order : List String) (t : ComponentTree) (x : String) :
    (t.takeAll order).1.contains x = true ↔ t.contains x = true ∧ x ∉ order := by
  induction order generalizing t with
  | nil => simp [takeAll]
  | cons name order ih =>
    rw [takeAll, List.mem_cons, not_or]
    split
    · rw [ih, contains_erase, and_assoc]
    · rename_i hnone
      rw [ih]
      refine and_congr_right fun hx => (and_iff_right_of_imp fun _ he => ?_).symm
      rw [contains, NameMap.contains, he, ← get?, hnone] at hx
      cases hx

lemma Keyed.takeAll (h : t.Keyed) (order : List String) : (t.takeAll order).1.Keyed := by
  induction order generalizing t with
  | nil => exact h
  | cons name order ih =>
    rw [ComponentTree.takeAll]
    split
    · exact ih (h.erase name)
    · exact ih h

lemma remove_eq_ok (h : remove name t = (.ok cs, t')) :
    ∃ c root, t.get? name = some c ∧
      t' = (({ t.dropChild name c.parent with root } : ComponentTree).takeAll (t.subtree name)).1 := by
  rw [remove, Edit.get_bind] at h
  cases hr : t.require name with
  | error e => rw [hr] at h; cases h
  | ok c =>
    rw [hr] at h
    refine ⟨c, if (t.dropChild name c.parent).root = some name then none else (t.dropChild name c.parent).root,
      require_eq_ok.mp hr, (Prod.mk.inj h).2.symm.trans ?_⟩
    dsimp only
    split <;> simp_all

lemma contains_remove (h : remove name t = (.ok cs, t')) :
    t'.contains x = true ↔ t.contains x = true ∧ x ∉ t.subtree name := by
  obtain ⟨c, root, -, rfl⟩ := remove_eq_ok h
  rw [contains_takeAll]
  exact and_congr_left fun _ => Eq.congr_left ((SameNames.dropChild t name c.parent).contains_eq x)

lemma Keyed.remove (hk : t.Keyed) (h : ComponentTree.remove name t = (.ok cs, t')) : t'.Keyed := by
  obtain ⟨c, root, -, rfl⟩ := remove_eq_ok h
  exact Keyed.takeAll (t := { t.dropChild name c.parent with root })
    ((SameNames.dropChild t name c.parent).keyed hk) _

end Remove

section Rename

def relinked (t : ComponentTree) (c : Component) (old new : String) : ComponentTree :=
  (t.renameLinks c old new).modify old fun c => { c with name := new }

lemma rename_eq_ok (h : rename old new t = (.ok u, t')) :
    (old = new ∧ t.contains old = true ∧ t' = t) ∨
      (old ≠ new ∧ t.contains new = false ∧ ∃ c root, t.get? old = some c ∧
        t' = { root, components := (t.relinked c old new).components.rename old new }) := by
  rw [rename, Edit.get_bind] at h
  split at h
  · rename_i hon
    cases hr : t.require old with
    | error e => rw [hr] at h; cases h
    | ok c =>
      rw [hr] at h
      exact .inl ⟨hon, contains_of_get? (require_eq_ok.mp hr), (Prod.mk.inj h).2.symm⟩
  · rename_i hon
    split at h
    · cases h
    · rename_i hnew
      cases hr : t.require old with
      | error e => rw [hr] at h; cases h
      | ok c =>
        rw [hr] at h
        refine .inr ⟨hon, Bool.eq_false_iff.mpr hnew, c,
          if (t.renameLinks c old new).root = some old then some new else (t.renameLinks c old new).root,
          require_eq_ok.mp hr, (Prod.mk.inj h).2.symm.trans ?_⟩
        dsimp only
        split <;> rfl

lemma contains_old_of_rename (h : rename old new t = (.ok u, t')) : t.contains old = true := by
  obtain ⟨-, hold, -⟩ | ⟨-, -, c, -, hc, -⟩ := rename_eq_ok h
  · exact hold
  · exact contains_of_get? hc

lemma not_contains_new_of_rename (h : rename old new t = (.ok u, t')) (hne : old ≠ new) : t.contains new = false := by
  obtain ⟨heq, -⟩ | ⟨-, hfree, -⟩ := rename_eq_ok h
  · exact absurd heq hne
  · exact hfree

lemma contains_relinked (t : ComponentTree) (c : Component) (old new x : String) :
    (t.relinked c old new).contains x = t.contains x :=
  (contains_modify _ old _ x).trans ((SameNames.renameLinks t c old new).contains_eq x)

lemma contains_rename (h : rename old new t = (.ok u, t')) :
    t'.contains x = true ↔ x = new ∨ (x ≠ old ∧ t.contains x = true) := by
  obtain ⟨rfl, hold, rfl⟩ | ⟨hon, hnew, c, root, hc, rfl⟩ := rename_eq_ok h
  · refine ⟨fun hx => or_iff_not_imp_left.mpr fun hne => ⟨hne, hx⟩, ?_⟩
    rintro (rfl | ⟨-, hx⟩)
    · exact hold
    · exact hx
  · have hfree : (t.relinked c old new).components.contains new = false :=
      (contains_relinked t c old new new).trans hnew
    have hthere := contains_relinked t c old new
    rw [contains, NameMap.contains, NameMap.get?_rename hfree]
    by_cases hxn : x = new
    · rw [if_pos hxn]
      exact ⟨fun _ => .inl hxn, fun _ => (hthere old).trans (contains_of_get? hc)⟩
    · by_cases hxo : x = old
      · simp [hxo, hon]
      · simp only [hxn, hxo, if_false, false_or, ne_eq, not_false_eq_true, true_and]
        exact Eq.congr_left (hthere x)

lemma Keyed.rename (hk : t.Keyed) (h : ComponentTree.rename old new t = (.ok u, t')) : t'.Keyed := by
  obtain ⟨-, -, rfl⟩ | ⟨hon, hnew, c, root, hc, rfl⟩ := rename_eq_ok h
  · exact hk
  · have hlinks := keyed_iff.mp ((SameNames.renameLinks t c old new).keyed hk)
    have hfree : (t.relinked c old new).components.contains new = false :=
      (contains_relinked t c old new new).trans hnew
    refine keyed_iff.mpr fun x d hx => ?_
    rw [get?, NameMap.get?_rename hfree, relinked, modify, NameMap.get?_modify, NameMap.get?_modify, if_pos rfl] at hx
    split at hx
    · obtain ⟨e, -, rfl⟩ := Option.map_eq_some_iff.mp hx
      exact (‹x = new›).symm
    · split at hx
      · cases hx
      · exact hlinks x d hx

end Rename

end ComponentTree

end BlockStudio
