import BlockStudio.Proofs.Component.Walks

namespace BlockStudio.ComponentTree

variable {t t' : ComponentTree} {name old new genus parent : String}

structure Consistent (t : ComponentTree) : Prop where
  keyed : ∀ e ∈ t.components.entries, e.2.name = e.1
  parent : ∀ x c, t.get? x = some c → t.root ≠ some x →
    ∃ p d, c.parent = some p ∧ t.get? p = some d ∧ d.children.count x = 1
  child : ∀ x c y, t.get? x = some c → y ∈ c.children → ∃ d, t.get? y = some d ∧ d.parent = some x
  root : ∀ r, t.root = some r → ∃ c, t.get? r = some c ∧ c.parent = none
  acyclic : ∀ x, ¬ Relation.TransGen t.IsParent x x

lemma Rooted.consistent (h : t.Rooted) : t.Consistent where
  keyed := h.family.keyed
  parent x c hc hx := by
    obtain hroot | ⟨p, d, hp, hd, hin⟩ := h.held x c hc
    · exact absurd hroot hx
    · exact ⟨p, d, hp, hd, List.count_eq_one_of_mem (h.nodup p d hd) hin⟩
  child x c y hc hy := (h.family.listed x c y hc hy).2
  root := h.family.root
  acyclic x hx := by
    obtain ⟨p, hw, hp⟩ := Relation.TransGen.tail'_iff.mp hx
    exact h.not_within_of_isParent hp hw

structure Substituted (t : ComponentTree) (old new : String) (t' : ComponentTree) : Prop where
  root_eq : t'.root = t.root.map (substitute old new)
  names_eq : t'.components.names = t.components.names.map (substitute old new)
  get?_eq : ∀ x d, t.get? x = some d → t'.get? (substitute old new x) = some (d.substituted old new)

lemma Rooted.substituted (h : t.Rooted) (hold : t.contains old = true) (hnew : old = new ∨ t.contains new = false) :
    ∃ t', ComponentTree.rename old new t = (.ok (), t') ∧ t.Substituted old new t' := by
  obtain ⟨c, hc⟩ := Option.isSome_iff_exists.mp hold
  obtain ⟨t', hr⟩ : ∃ t', ComponentTree.rename old new t = (.ok (), t') := by
    by_cases hne : old = new
    · exact ⟨t, by rw [ComponentTree.rename, Edit.get_bind, if_pos hne, require_eq_ok.mpr hc]; rfl⟩
    · obtain ⟨t', hr, -⟩ := rename_of_free hne (hnew.resolve_left hne) hc
      exact ⟨t', hr⟩
  exact ⟨t', hr, h.root_rename hr, h.names_rename hr, fun x d hd => h.get?_rename hr hd⟩

lemma Rooted.nodup_walk (h : t.Rooted) : (t.walk.map (·.name)).Nodup := by
  refine (h.walk_perm_list.map (·.name)).nodup_iff.mpr (h.nodup_list.map_on fun c hc d hd heq => ?_)
  have hd' := h.mem_list_iff.mp hd
  rw [← heq, h.mem_list_iff.mp hc] at hd'
  exact Option.some.inj hd'

theorem edits_keep_tree (form genus : String) (edits : List TreeEdit) :
    let t := edits.foldl TreeEdit.run (withRoot form genus)
    t.Consistent ∧
    (t.walk.Perm t.list ∧ (t.walk.map (·.name)).Nodup ∧
      ∀ l₁ c l₂, t.walk = l₁ ++ c :: l₂ → ∀ p, c.parent = some p → p ∈ l₁.map (·.name)) ∧
    ((∀ c, t.get? c.name = some c →
        t.walkFrom t.size c = c :: (t.childrenOf c.name).flatMap (t.walkFrom t.size)) ∧
      ∀ name, t.subtree name =
        match t.get? name with
        | some c => c.children.flatMap t.subtree ++ [name]
        | none => []) ∧
    (∀ name, t.contains name = true → ∃ cs t', remove name t = (.ok cs, t') ∧ t.TakenOut name cs t') ∧
    (∀ old new, t.contains old = true → old = new ∨ t.contains new = false →
      ∃ t', rename old new t = (.ok (), t') ∧ t.Substituted old new t') ∧
    (∀ name genus parent, (add name genus parent).Atomic) ∧ (∀ name, (remove name).Atomic) ∧
    (∀ old new, (rename old new).Atomic) ∧ ∀ name property value, (setProperty name property value).Atomic := by
  intro t
  have h : t.Rooted := (Rooted.withRoot form genus).runs edits
  refine ⟨h.consistent, ⟨h.walk_perm_list, h.nodup_walk, h.walk_parents_first⟩,
    ⟨fun c hc => h.walkFrom_size hc, h.subtree_eq⟩, fun name hname => ?_, fun old new hold hnew => ?_,
    fun name genus parent => ?_, fun name => ?_, fun old new => ?_, fun name property value => ?_⟩
  · obtain ⟨c, hc⟩ := Option.isSome_iff_exists.mp hname
    exact h.takenOut hc
  · exact h.substituted hold hnew
  · exact Edit.atomic_of_cases fun t => (add_cases name genus parent t).imp_right fun ⟨t', ht⟩ => ⟨(), t', ht⟩
  · exact Edit.atomic_of_cases (remove_cases name)
  · exact Edit.atomic_of_cases fun t => (rename_cases old new t).imp_right fun ⟨t', ht⟩ => ⟨(), t', ht⟩
  · exact Edit.atomic_of_cases fun t => (setProperty_cases name property value t).imp_right fun ht => ⟨(), _, ht.2⟩

end BlockStudio.ComponentTree
