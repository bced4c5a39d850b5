import BlockStudio.Proofs.Component.Names

namespace BlockStudio

def Component.relinked (c : Component) (old new x : String) (d : Component) : Component :=
  { d with
    parent := if x ∈ c.children ∧ x ≠ old then some new else d.parent
    children := if c.parent = some x ∧ x ≠ old then d.children.map fun y => if y = old then new else y
      else d.children }

namespace Component

variable (c d : Component) (old new x : String)

lemma parent_relinked : (c.relinked old new x d).parent =
    if x ∈ c.children ∧ x ≠ old then some new else d.parent := rfl

lemma children_relinked : (c.relinked old new x d).children =
    if c.parent = some x ∧ x ≠ old then d.children.map fun y => if y = old then new else y else d.children := rfl

end Component

namespace ComponentTree

variable {t t' : ComponentTree} {c d : Component} {cs : List Component} {name old new genus parent x : String}
  {u : Unit}

lemma ext_get? (hr : t.root = t'.root) (hn : t.components.names = t'.components.names)
    (hg : ∀ x, t.get? x = t'.get? x) : t = t' := by
  have hcomponents : t.components = t'.components := NameMap.ext_get? hn hg
  cases t
  cases t'
  simp_all

lemma get?_modify (t : ComponentTree) (name : String) (f : Component → Component) (x : String) :
    (t.modify name f).get? x = if x = name then (t.get? x).map f else t.get? x := NameMap.get?_modify _ _ _ _

section Rename

lemma get?_foldl_parent (new : String) (l : List String) (t : ComponentTree) (x : String) :
    (l.foldl (fun t child => t.modify child fun d => { d with parent := some new }) t).get? x =
      (t.get? x).map fun d => { d with parent := if x ∈ l then some new else d.parent } := by
  induction l generalizing t with
  | nil => simp
  | cons child l ih =>
    rw [List.foldl_cons, ih, get?_modify]
    by_cases hx : x = child
    · subst hx
      cases t.get? x <;> simp
    · simp [hx]

lemma get?_renameLinks (t : ComponentTree) (c : Component) (old new x : String) :
    (t.renameLinks c old new).get? x = (t.get? x).map (c.relinked old new x) := by
  have hfold := get?_foldl_parent new (c.children.filter (· ≠ old)) t x
  simp only [List.mem_filter, decide_eq_true_eq] at hfold
  simp only [renameLinks]
  cases hp : c.parent with
  | none =>
    rw [hfold]
    exact congrArg (Option.map · _) (funext fun d => by simp [Component.relinked, hp])
  | some parent =>
    dsimp only
    split
    · rename_i hold
      rw [hfold]
      refine congrArg (Option.map · _) (funext fun d => ?_)
      have hself : ¬ (parent = x ∧ x ≠ old) := fun hx => hx.2 (hx.1.symm.trans hold)
      simp [Component.relinked, hp, hself]
    · rename_i hold
      rw [get?_modify, hfold]
      split
      · rename_i hx
        rw [Option.map_map]
        refine congrArg (Option.map · _) (funext fun d => ?_)
        have hx' : parent = x ∧ x ≠ old := ⟨hx.symm, hx ▸ hold⟩
        simp [Component.relinked, hp, hx']
      · rename_i hx
        refine congrArg (Option.map · _) (funext fun d => ?_)
        simp [Component.relinked, hp, Ne.symm hx]

structure SameOrder (t t' : ComponentTree) : Prop where
  root_eq : t'.root = t.root
  names_eq : t'.components.names = t.components.names

lemma SameOrder.modify (h : t.SameOrder t') (name : String) (f : Component → Component) :
    t.SameOrder (t'.modify name f) :=
  ⟨h.root_eq, (NameMap.names_modify _ _ _).trans h.names_eq⟩

lemma SameOrder.foldl_parent (h : t.SameOrder t') (new : String) (l : List String) :
    t.SameOrder (l.foldl (fun t child => t.modify child fun d => { d with parent := some new }) t') := by
  induction l generalizing t' with
  | nil => exact h
  | cons child l ih => exact ih (h.modify child _)

lemma sameOrder_renameLinks (t : ComponentTree) (c : Component) (old new : String) :
    t.SameOrder (t.renameLinks c old new) := by
  have h : t.SameOrder t := ⟨rfl, rfl⟩
  have hfold := h.foldl_parent new (c.children.filter (· ≠ old))
  simp only [renameLinks]
  split
  · split
    · exact hfold
    · exact hfold.modify _ _
  · exact hfold

structure Renamed (c : Component) (old new : String) (t t' : ComponentTree) : Prop where
  root_eq : t'.root = if t.root = some old then some new else t.root
  names_eq : t'.components.names = t.components.names.map fun x => if x = old then new else x
  get?_eq : ∀ x, t'.get? x = if x = new then some { c with name := new } else if x = old then none
    else (t.get? x).map (c.relinked old new x)

lemma ne_of_get? (hnew : t.contains new = false) (hd : t.get? x = some d) : x ≠ new := by
  rintro rfl
  exact Bool.false_ne_true (hnew.symm.trans (contains_of_get? hd))

namespace Renamed

variable (hr : Renamed c old new t t')

include hr

lemma get?_new : t'.get? new = some { c with name := new } := by
  rw [hr.get?_eq, if_pos rfl]

lemma get?_other (hnew : t.contains new = false) (hd : t.get? x = some d) (hx : x ≠ old) :
    t'.get? x = some (c.relinked old new x d) := by
  rw [hr.get?_eq, if_neg (ne_of_get? hnew hd), if_neg hx, hd, Option.map_some]

end Renamed

lemma rename_of_free (hne : old ≠ new) (hnew : t.contains new = false) (hc : t.get? old = some c) :
    ∃ t', rename old new t = (.ok (), t') ∧ Renamed c old new t t' := by
  have horder := sameOrder_renameLinks t c old new
  have hfree : (t.relinked c old new).components.contains new = false :=
    (contains_relinked t c old new new).trans hnew
  have hrun : rename old new t =
      (.ok (), { root := if (t.renameLinks c old new).root = some old then some new else (t.renameLinks c old new).root,
                 components := (t.relinked c old new).components.rename old new }) := by
    simp only [rename, Edit.get_bind, if_neg hne, hnew, Bool.false_eq_true, if_false, require_eq_ok.mpr hc,
      Edit.lift_ok_bind, Edit.modify_bind]
    simp only [Edit.modify, relinked, modify]
    split <;> rfl
  refine ⟨_, hrun, ?_, ?_, fun x => ?_⟩
  · simp only [horder.root_eq]
  · show (NameMap.rename _ old new).names = _
    rw [NameMap.names_rename hfree, relinked, modify, NameMap.names_modify, horder.names_eq]
  · have hget (y : String) : (t.relinked c old new).components.get? y =
        if y = old then some { c with name := new } else (t.get? y).map (c.relinked old new y) := by
      refine (get?_modify _ old _ y).trans ?_
      split
      · rename_i hy
        subst hy
        have hself : c.relinked y new y c = c := by simp [Component.relinked]
        rw [get?_renameLinks, hc, Option.map_some, hself, Option.map_some]
      · exact get?_renameLinks t c old new y
    rw [get?, NameMap.get?_rename hfree, hget old, if_pos rfl, hget x]
    split
    · rfl
    · split <;> rfl

lemma rename_cases (old new : String) (t : ComponentTree) :
    (∃ e, rename old new t = (.error e, t)) ∨ ∃ t', rename old new t = (.ok (), t') := by
  rw [rename, Edit.get_bind]
  split
  · cases t.require old with
    | error e => exact .inl ⟨e, rfl⟩
    | ok c => exact .inr ⟨_, rfl⟩
  · split
    · exact .inl ⟨_, rfl⟩
    · cases t.require old with
      | error e => exact .inl ⟨e, rfl⟩
      | ok c => exact .inr ⟨_, rfl⟩

lemma renamed_of_ok (h : rename old new t = (.ok u, t')) (hne : old ≠ new) :
    t.contains new = false ∧ ∃ c, t.get? old = some c ∧ Renamed c old new t t' := by
  have hnew := not_contains_new_of_rename h hne
  obtain ⟨c, hc⟩ := Option.isSome_iff_exists.mp (contains_old_of_rename h)
  obtain ⟨t'', hrun, hren⟩ := rename_of_free hne hnew hc
  obtain rfl := (Prod.mk.inj (hrun.symm.trans h)).2
  exact ⟨hnew, c, hc, hren⟩

structure Carried (old new : String) (t t' : ComponentTree) : Prop where
  forward : ∀ x d, t.get? x = some d →
    ∃ d', t'.get? (if x = old then new else x) = some d' ∧ d'.blocks = d.blocks
  back : ∀ y d', t'.get? y = some d' →
    ∃ x d, t.get? x = some d ∧ d'.blocks = d.blocks ∧ y = if x = old then new else x

lemma carried_of_rename (h : rename old new t = (.ok u, t')) : Carried old new t t' := by
  by_cases hne : old = new
  · obtain ⟨-, -, rfl⟩ | ⟨hne', -⟩ := rename_eq_ok h
    · have hsame (x : String) : (if x = old then new else x) = x := by
        split
        · exact hne.symm.trans (‹x = old›).symm
        · rfl
      exact ⟨fun x d hd => ⟨d, (hsame x).symm ▸ hd, rfl⟩, fun y d hd => ⟨y, d, hd, rfl, (hsame y).symm⟩⟩
    · exact absurd hne hne'
  obtain ⟨hnew, c, hc, hr⟩ := renamed_of_ok h hne
  refine ⟨fun x d hd => ?_, fun y d' hd' => ?_⟩
  · split
    · rename_i hx
      obtain rfl := Option.some.inj (hc.symm.trans (hx ▸ hd))
      exact ⟨_, hr.get?_new, rfl⟩
    · exact ⟨_, hr.get?_other hnew hd ‹_›, rfl⟩
  · rw [hr.get?_eq] at hd'
    split at hd'
    · obtain rfl := Option.some.inj hd'
      exact ⟨old, c, hc, rfl, by rw [if_pos rfl]; assumption⟩
    split at hd'
    · cases hd'
    · obtain ⟨d, hd, rfl⟩ := Option.map_eq_some_iff.mp hd'
      exact ⟨y, d, hd, rfl, (if_neg ‹_›).symm⟩

end Rename

section Add

lemma add_cases (name genus parent : String) (t : ComponentTree) :
    (∃ e, ComponentTree.add name genus parent t = (.error e, t)) ∨
      ∃ t', ComponentTree.add name genus parent t = (.ok (), t') := by
  rw [ComponentTree.add, Edit.get_bind]
  split
  · exact .inl ⟨_, rfl⟩
  · cases hr : t.require parent with
    | error e => exact .inl ⟨e, rfl⟩
    | ok p => exact .inr ⟨_, rfl⟩

lemma exists_of_add (h : ComponentTree.add name genus parent t = (.ok u, t')) :
    t.contains name = false ∧ ∃ p, t.get? parent = some p := by
  rw [ComponentTree.add, Edit.get_bind] at h
  split at h
  · cases h
  · rename_i hname
    cases hr : t.require parent with
    | error e => rw [hr] at h; cases h
    | ok p => exact ⟨Bool.eq_false_iff.mpr hname, p, require_eq_ok.mp hr⟩

lemma get?_add (h : ComponentTree.add name genus parent t = (.ok u, t')) (x : String) :
    t'.get? x = if x = name then some { name, genus, parent := some parent } else
      if x = parent then (t.get? x).map fun p => { p with children := p.children ++ [name] } else t.get? x := by
  rw [add_eq_ok h, get?, put, NameMap.get?_put]
  split
  · rfl
  · exact get?_modify t parent _ x

end Add

section Remove

lemma mem_subtreeFrom {n : ℕ} (h : x ∈ t.subtreeFrom n name) : x = name ∨
    ∃ y ∈ t.subtreeFrom n name, ∃ d, t.get? y = some d ∧ x ∈ d.children := by
  induction n generalizing name with
  | zero => cases h
  | succ n ih =>
    rw [subtreeFrom] at h ⊢
    split at h
    · rename_i c hc
      obtain h | h := List.mem_append.mp h
      · right
        obtain ⟨child, hchild, hx⟩ := List.mem_flatMap.mp h
        obtain rfl | ⟨y, hy, d, hd, hxd⟩ := ih hx
        · exact ⟨name, List.mem_append_right _ (List.mem_singleton_self name), c, hc, hchild⟩
        · exact ⟨y, List.mem_append_left _ (List.mem_flatMap.mpr ⟨child, hchild, hy⟩), d, hd, hxd⟩
      · exact .inl (List.mem_singleton.mp h)
    · cases h

lemma get?_takeAll (order : List String) (t : ComponentTree) (x : String) :
    (t.takeAll order).1.get? x = if x ∈ order then none else t.get? x := by
  induction order generalizing t with
  | nil => simp [takeAll]
  | cons name order ih =>
    rw [takeAll]
    split
    · rw [ih, get?, NameMap.get?_erase]
      by_cases hx : x = name
      · simp [hx]
      · simp [hx, get?]
    · rename_i hnone
      rw [ih]
      by_cases hx : x = name
      · subst hx
        simp [hnone]
      · simp [hx]

lemma root_takeAll (order : List String) (t : ComponentTree) : (t.takeAll order).1.root = t.root := by
  induction order generalizing t with
  | nil => rfl
  | cons name order ih =>
    rw [takeAll]
    split
    · exact ih _
    · exact ih t

lemma mem_takeAll {order : List String} (hx : x ∈ order) (hd : t.get? x = some d) : d ∈ (t.takeAll order).2 := by
  induction order generalizing t with
  | nil => cases hx
  | cons name order ih =>
    rw [takeAll]
    by_cases hxn : x = name
    · subst hxn
      simp only [hd, List.mem_cons, true_or]
    · have hin : x ∈ order := (List.mem_cons.mp hx).resolve_left hxn
      split
      · refine List.mem_cons_of_mem _ (ih hin ?_)
        rw [get?, NameMap.get?_erase, if_neg hxn]
        exact hd
      · exact ih hin hd

def unlisted (name : String) (parent : Option String) (x : String) (d : Component) : Component :=
  { d with children := if parent = some x then d.children.filter (· ≠ name) else d.children }

lemma get?_dropChild (t : ComponentTree) (name : String) (parent : Option String) (x : String) :
    (t.dropChild name parent).get? x = (t.get? x).map (unlisted name parent x) := by
  cases parent with
  | none =>
    have hid : unlisted name none x = id := funext fun d => by simp [unlisted]
    rw [hid, Option.map_id]
    rfl
  | some parent =>
    rw [dropChild, get?_modify]
    split
    · rename_i hx
      exact congrArg (Option.map · _) (funext fun d => by simp [unlisted, hx])
    · rename_i hx
      have hid : unlisted name (some parent) x = id := funext fun d => by simp [unlisted, Ne.symm hx]
      rw [hid, Option.map_id]
      rfl

structure Without (name : String) (c : Component) (cs : List Component) (t t' : ComponentTree) : Prop where
  root_eq : t'.root = if t.root = some name then none else t.root
  get?_eq : ∀ x, t'.get? x = if x ∈ t.subtree name then none else (t.get? x).map (unlisted name c.parent x)
  taken : ∀ x ∈ t.subtree name, ∀ d, t.get? x = some d → unlisted name c.parent x d ∈ cs

lemma remove_cases (name : String) (t : ComponentTree) :
    (∃ e, ComponentTree.remove name t = (.error e, t)) ∨ ∃ cs t', ComponentTree.remove name t = (.ok cs, t') := by
  rw [ComponentTree.remove, Edit.get_bind]
  cases hr : t.require name with
  | error e => exact .inl ⟨e, rfl⟩
  | ok c => exact .inr ⟨_, _, rfl⟩

lemma remove_of_get? (hc : t.get? name = some c) :
    let s : ComponentTree := { t.dropChild name c.parent with root := if t.root = some name then none else t.root }
    ComponentTree.remove name t = (.ok (s.takeAll (t.subtree name)).2, (s.takeAll (t.subtree name)).1) := by
  have hroot : (t.dropChild name c.parent).root = t.root := by cases c.parent <;> rfl
  simp only [ComponentTree.remove, Edit.get_bind, require_eq_ok.mpr hc, Edit.lift_ok_bind, Edit.change, hroot]
  split
  · rfl
  · simp only [← hroot]

lemma without_of_remove (h : ComponentTree.remove name t = (.ok cs, t')) :
    ∃ c, t.get? name = some c ∧ Without name c cs t t' := by
  obtain ⟨c, -, hc, -⟩ := remove_eq_ok h
  rw [remove_of_get? hc] at h
  obtain ⟨hcs, rfl⟩ := Prod.mk.inj h
  obtain rfl := Except.ok.inj hcs
  refine ⟨c, hc, root_takeAll _ _, fun x => ?_, fun x hx d hd => mem_takeAll hx ?_⟩
  · rw [get?_takeAll]
    split
    · rfl
    · exact get?_dropChild t name c.parent x
  · refine (get?_dropChild t name c.parent x).trans ?_
    rw [hd, Option.map_some]

end Remove

end ComponentTree

end BlockStudio
