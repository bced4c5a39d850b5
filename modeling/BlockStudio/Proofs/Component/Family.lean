import BlockStudio.Proofs.Component.Lookup

namespace BlockStudio

namespace ComponentTree

variable {t t' : ComponentTree} {c d : Component} {cs : List Component} {name old new genus parent x : String}
  {u : Unit}

lemma get?_withRoot : (withRoot name genus).get? x = some c ↔ x = name ∧ { name, genus } = c := by
  rw [get?, withRoot, NameMap.get?_put]
  split
  · rw [Option.some.injEq, and_iff_right ‹x = name›]
  · exact iff_of_false (Option.some_ne_none c).symm fun h => ‹x ≠ name› h.1

structure Family (t : ComponentTree) : Prop where
  keyed : t.Keyed
  listed : ∀ name c child, t.get? name = some c → child ∈ c.children →
    child ≠ name ∧ ∃ d, t.get? child = some d ∧ d.parent = some name
  root : ∀ r, t.root = some r → ∃ c, t.get? r = some c ∧ c.parent = none

namespace Family

lemma withRoot (name genus : String) : (ComponentTree.withRoot name genus).Family := by
  refine ⟨keyed_iff.mpr fun x c hx => ?_, fun x c child hx hchild => ?_, fun r hr => ?_⟩
  · obtain ⟨rfl, rfl⟩ := get?_withRoot.mp hx
    rfl
  · obtain ⟨-, rfl⟩ := get?_withRoot.mp hx
    cases hchild
  · obtain rfl := Option.some.inj hr
    exact ⟨{ name, genus }, get?_withRoot.mpr ⟨rfl, rfl⟩, rfl⟩

lemma modify (h : t.Family) {f : Component → Component} (hn : ∀ c, (f c).name = c.name)
    (hp : ∀ c, (f c).parent = c.parent) (hl : ∀ c, (f c).children = c.children) (name : String) :
    (t.modify name f).Family := by
  have hback (x : String) (d : Component) (hd : (t.modify name f).get? x = some d) :
      ∃ c, t.get? x = some c ∧ d.children = c.children := by
    rw [get?_modify] at hd
    split at hd
    · obtain ⟨c, hc, rfl⟩ := Option.map_eq_some_iff.mp hd
      exact ⟨c, hc, hl c⟩
    · exact ⟨d, hd, rfl⟩
  have hkeep (x : String) (c : Component) (hc : t.get? x = some c) :
      ∃ d, (t.modify name f).get? x = some d ∧ d.parent = c.parent := by
    rw [get?_modify, hc]
    split
    · exact ⟨f c, rfl, hp c⟩
    · exact ⟨c, rfl, rfl⟩
  refine ⟨(SameNames.modify (.refl t) hn name).keyed h.keyed, fun x d child hd hchild => ?_, fun r hr => ?_⟩
  · obtain ⟨c, hc, hsame⟩ := hback x d hd
    obtain ⟨hne, e, he, hparent⟩ := h.listed x c child hc (hsame ▸ hchild)
    obtain ⟨e', he', hsame'⟩ := hkeep child e he
    exact ⟨hne, e', he', hsame'.trans hparent⟩
  · obtain ⟨c, hc, hnone⟩ := h.root r hr
    obtain ⟨d, hd, hsame⟩ := hkeep r c hc
    exact ⟨d, hd, hsame.trans hnone⟩

lemma add (h : t.Family) (ha : ComponentTree.add name genus parent t = (.ok u, t')) : t'.Family := by
  obtain ⟨hfree, p, hp⟩ := exists_of_add ha
  have hget := get?_add ha
  have hname (x : String) (d : Component) (hd : t.get? x = some d) : x ≠ name := by
    rintro rfl
    exact Bool.false_ne_true (hfree.symm.trans (contains_of_get? hd))
  have hkeep (x : String) (d : Component) (hd : t.get? x = some d) :
      ∃ d', t'.get? x = some d' ∧ d'.parent = d.parent := by
    rw [hget, if_neg (hname x d hd), hd]
    split
    · exact ⟨_, rfl, rfl⟩
    · exact ⟨d, rfl, rfl⟩
  refine ⟨h.keyed.add ha, fun x d child hx hchild => ?_, fun r hr => ?_⟩
  · have hold (e : Component) (he : t.get? x = some e) (hin : child ∈ e.children) :
        child ≠ x ∧ ∃ d, t'.get? child = some d ∧ d.parent = some x := by
      obtain ⟨hne, f, hf, hparent⟩ := h.listed x e child he hin
      obtain ⟨f', hf', heq⟩ := hkeep child f hf
      exact ⟨hne, f', hf', heq.trans hparent⟩
    rw [hget] at hx
    split at hx
    · obtain rfl := Option.some.inj hx
      cases hchild
    split at hx
    · rename_i hxp
      subst hxp
      obtain ⟨e, he, rfl⟩ := Option.map_eq_some_iff.mp hx
      obtain hin | hin := List.mem_append.mp hchild
      · exact hold e he hin
      · obtain rfl := List.mem_singleton.mp hin
        exact ⟨(hname x e he).symm, _, by rw [hget, if_pos rfl], rfl⟩
    · exact hold d hx hchild
  · have hroot : t'.root = t.root := by
      rw [add_eq_ok ha]
      rfl
    obtain ⟨c, hc, hnone⟩ := h.root r (hroot.symm.trans hr)
    obtain ⟨c', hc', heq⟩ := hkeep r c hc
    exact ⟨c', hc', heq.trans hnone⟩

lemma remove (h : t.Family) (hr : ComponentTree.remove name t = (.ok cs, t')) : t'.Family := by
  obtain ⟨c, hc, hw⟩ := without_of_remove hr
  -- a component that goes and is not `name` has a parent that goes
  have hgoes (x : String) (d : Component) (hd : t.get? x = some d) (hx : x ∈ t.subtree name) :
      x = name ∨ ∃ y ∈ t.subtree name, d.parent = some y := by
    obtain rfl | ⟨y, hy, e, he, hin⟩ := mem_subtreeFrom hx
    · exact .inl rfl
    · obtain ⟨-, d', hd', hparent⟩ := h.listed y e x he hin
      obtain rfl := Option.some.inj (hd.symm.trans hd')
      exact .inr ⟨y, hy, hparent⟩
  refine ⟨h.keyed.remove hr, fun x d child hx hchild => ?_, fun r hroot => ?_⟩
  · rw [hw.get?_eq] at hx
    split at hx
    · cases hx
    rename_i hxs
    obtain ⟨e, he, rfl⟩ := Option.map_eq_some_iff.mp hx
    have hin : child ∈ e.children ∧ (c.parent = some x → child ≠ name) := by
      rw [unlisted] at hchild
      split at hchild
      · simpa [*] using hchild
      · exact ⟨hchild, fun hp => absurd hp ‹_›⟩
    obtain ⟨hne, f, hf, hparent⟩ := h.listed x e child he hin.1
    refine ⟨hne, unlisted name c.parent child f, ?_, hparent⟩
    rw [hw.get?_eq, if_neg, hf, Option.map_some]
    intro hgone
    obtain rfl | ⟨y, hy, hparent'⟩ := hgoes child f hf hgone
    · obtain rfl := Option.some.inj (hf.symm.trans hc)
      exact hin.2 hparent rfl
    · exact hxs (Option.some.inj (hparent'.symm.trans hparent) ▸ hy)
  · rw [hw.root_eq] at hroot
    split at hroot
    · cases hroot
    rename_i hne
    obtain ⟨d, hd, hnone⟩ := h.root r hroot
    refine ⟨unlisted name c.parent r d, ?_, hnone⟩
    rw [hw.get?_eq, if_neg, hd, Option.map_some]
    intro hgone
    obtain rfl | ⟨y, -, hparent⟩ := hgoes r d hd hgone
    · exact hne hroot
    · rw [hnone] at hparent
      cases hparent

lemma rename (h : t.Family) (ha : ComponentTree.rename old new t = (.ok u, t')) : t'.Family := by
  by_cases hne : old = new
  · obtain ⟨-, -, rfl⟩ | ⟨hne', -⟩ := rename_eq_ok ha
    · exact h
    · exact absurd hne hne'
  obtain ⟨hnew, c, hc, hr⟩ := renamed_of_ok ha hne
  refine ⟨h.keyed.rename ha, fun x d child hx hchild => ?_, fun r hroot => ?_⟩
  · rw [hr.get?_eq] at hx
    split at hx
    · rename_i hxn
      obtain rfl := Option.some.inj hx
      obtain ⟨hself, e, he, -⟩ := h.listed old c child hc hchild
      refine ⟨fun heq => ne_of_get? hnew he (heq.trans hxn), _, hr.get?_other hnew he hself, ?_⟩
      rw [Component.parent_relinked, if_pos ⟨hchild, hself⟩, hxn]
    split at hx
    · cases hx
    rename_i hxn hxo
    obtain ⟨d₀, hd₀, rfl⟩ := Option.map_eq_some_iff.mp hx
    -- a child that keeps its name also keeps its parent, since that is not the renamed component
    have hkept (y : String) (hy : y ∈ d₀.children) (hyo : y ≠ old) :
        y ≠ x ∧ ∃ e, t'.get? y = some e ∧ e.parent = some x := by
      obtain ⟨hself, e, he, hparent⟩ := h.listed x d₀ y hd₀ hy
      refine ⟨hself, _, hr.get?_other hnew he hyo, ?_⟩
      rw [Component.parent_relinked, if_neg]
      · exact hparent
      rintro ⟨hin, -⟩
      obtain ⟨-, e', he', hparent'⟩ := h.listed old c y hc hin
      obtain rfl := Option.some.inj (he.symm.trans he')
      exact hxo (Option.some.inj (hparent.symm.trans hparent'))
    rw [Component.children_relinked] at hchild
    split at hchild
    · rename_i hlists
      obtain ⟨y, hy, rfl⟩ := List.mem_map.mp hchild
      split
      · exact ⟨Ne.symm hxn, _, hr.get?_new, hlists.1⟩
      · exact hkept y hy ‹_›
    · rename_i hlists
      refine hkept child hchild fun heq => hlists ⟨?_, hxo⟩
      obtain ⟨-, e, he, hparent⟩ := h.listed x d₀ child hd₀ hchild
      obtain rfl := Option.some.inj (hc.symm.trans (heq ▸ he))
      exact hparent
  · rw [hr.root_eq] at hroot
    split at hroot
    · rename_i hold
      obtain rfl := Option.some.inj hroot
      obtain ⟨d, hd, hnone⟩ := h.root old hold
      obtain rfl := Option.some.inj (hc.symm.trans hd)
      exact ⟨_, hr.get?_new, hnone⟩
    · rename_i hold
      obtain ⟨d, hd, hnone⟩ := h.root r hroot
      refine ⟨_, hr.get?_other hnew hd fun heq => hold (heq ▸ hroot), ?_⟩
      rw [Component.parent_relinked, if_neg]
      · exact hnone
      rintro ⟨hin, -⟩
      obtain ⟨-, e, he, hparent⟩ := h.listed old c r hc hin
      obtain rfl := Option.some.inj (hd.symm.trans he)
      rw [hnone] at hparent
      cases hparent

lemma relinked_back (h : t.Family) (hnew : t.contains new = false) (hc : t.get? old = some c)
    (hd : t.get? x = some d) (hx : x ≠ old) :
    ({ c with name := new } : Component).relinked new old x (c.relinked old new x d) = d := by
  have hxn := ne_of_get? hnew hd
  have hparent : (if x ∈ c.children ∧ x ≠ new then some old else
      if x ∈ c.children ∧ x ≠ old then some new else d.parent) = d.parent := by
    by_cases hin : x ∈ c.children
    · obtain ⟨-, e, he, hparent⟩ := h.listed old c x hc hin
      obtain rfl := Option.some.inj (hd.symm.trans he)
      rw [if_pos ⟨hin, hxn⟩, hparent]
    · rw [if_neg fun h => hin h.1, if_neg fun h => hin h.1]
  have hchildren : (d.children.map fun y => if y = old then new else y).map (fun y => if y = new then old else y) =
      d.children := by
    rw [List.map_map]
    refine (List.map_congr_left fun y hy => ?_).trans (List.map_id _)
    obtain ⟨-, e, he, -⟩ := h.listed x d y hd hy
    have hyn := ne_of_get? hnew he
    by_cases hyo : y = old
    · simp [hyo]
    · simp [hyo, hyn]
  simp only [Component.relinked, hx, hxn, ne_eq, not_false_eq_true, and_true] at hparent ⊢
  rw [hparent]
  by_cases hp : c.parent = some x
  · simp only [hp, if_true, hchildren]
  · simp only [hp, if_false]

lemma rename_back (h : t.Family) (ha : ComponentTree.rename old new t = (.ok u, t')) :
    ComponentTree.rename new old t' = (.ok (), t) := by
  by_cases hne : old = new
  · obtain ⟨-, hold, rfl⟩ | ⟨hne', -⟩ := rename_eq_ok ha
    · subst hne
      obtain ⟨c, hc⟩ := Option.isSome_iff_exists.mp hold
      simp only [ComponentTree.rename, Edit.get_bind, if_true, require_eq_ok.mpr hc]
      rfl
    · exact absurd hne hne'
  obtain ⟨hnew, c, hc, hr⟩ := renamed_of_ok ha hne
  have hfree : t'.contains old = false := by
    rw [Bool.eq_false_iff, ne_eq, contains_rename ha]
    simp [hne]
  obtain ⟨t'', hrun, hback⟩ := rename_of_free (Ne.symm hne) hfree hr.get?_new
  have hget (x : String) : t''.get? x = t.get? x := by
    rw [hback.get?_eq]
    split
    · rename_i hx
      have hname : c.name = old := keyed_iff.mp h.keyed old c hc
      rw [hx, hc, ← hname]
    split
    · rename_i hx
      rw [hx, eq_comm, ← Option.not_isSome_iff_eq_none]
      exact Bool.eq_false_iff.mp hnew
    · rename_i hxo hxn
      rw [hr.get?_eq, if_neg hxn, if_neg hxo, Option.map_map]
      cases hd : t.get? x with
      | none => rfl
      | some d => exact congrArg some (relinked_back h hnew hc hd hxo)
  have hroot : t''.root = t.root := by
    rw [hback.root_eq, hr.root_eq]
    by_cases hold : t.root = some old
    · rw [if_pos hold, if_pos rfl, hold]
    · rw [if_neg hold, if_neg]
      intro hn
      obtain ⟨d, hd, -⟩ := h.root new hn
      exact ne_of_get? hnew hd rfl
  have hnames : t''.components.names = t.components.names := by
    rw [hback.names_eq, hr.names_eq, List.map_map]
    refine (List.map_congr_left fun y hy => ?_).trans (List.map_id _)
    have hyn : y ≠ new := by
      rintro rfl
      exact Bool.false_ne_true (hnew.symm.trans (NameMap.mem_names_iff.mp hy))
    by_cases hyo : y = old
    · simp [hyo]
    · simp [hyo, hyn]
  rw [hrun, ext_get? hroot hnames hget]

end Family

end ComponentTree

end BlockStudio
