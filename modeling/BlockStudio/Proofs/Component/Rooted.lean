import BlockStudio.Proofs.Component.Family
import BlockStudio.Proofs.Links.Chain

namespace BlockStudio

def Edit.Atomic {σ α : Type} (x : Edit σ α) : Prop := ∀ s e s', x s = (.error e, s') → s' = s

lemma Edit.atomic_of_cases {σ α : Type} {x : Edit σ α}
    (h : ∀ s, (∃ e, x s = (.error e, s)) ∨ ∃ a s', x s = (.ok a, s')) : x.Atomic := by
  intro s e s' hx
  obtain ⟨e', he⟩ | ⟨a, s'', ha⟩ := h s
  · exact (Prod.mk.inj (hx.symm.trans he)).2
  · cases hx.symm.trans ha

namespace ComponentTree

variable {t t' : ComponentTree} {c d : Component} {cs : List Component} {l : List String} {n : ℕ}
  {name old new genus parent property value x y : String} {u : Unit}

def parentOf (t : ComponentTree) (x : String) : Option String := (t.get? x).bind (·.parent)

lemma parentOf_of_get? (h : t.get? x = some c) : t.parentOf x = c.parent := by
  rw [parentOf, h, Option.bind_some]

lemma parentOf_of_none (h : t.get? x = none) : t.parentOf x = none := by
  rw [parentOf, h, Option.bind_none]

structure Rooted (t : ComponentTree) : Prop where
  family : t.Family
  nodup : ∀ x c, t.get? x = some c → c.children.Nodup
  held : ∀ x c, t.get? x = some c →
    t.root = some x ∨ ∃ p d, c.parent = some p ∧ t.get? p = some d ∧ x ∈ d.children
  ends : ∀ x, ∃ l, Chain t.parentOf x l

namespace Rooted

lemma withRoot (name genus : String) : (ComponentTree.withRoot name genus).Rooted where
  family := .withRoot name genus
  nodup x c hc := by
    obtain ⟨-, rfl⟩ := get?_withRoot.mp hc
    exact List.nodup_nil
  held x c hc := by
    obtain ⟨rfl, -⟩ := get?_withRoot.mp hc
    exact .inl rfl
  ends x := by
    refine ⟨[], .last ?_⟩
    cases hx : (ComponentTree.withRoot name genus).get? x with
    | none => exact parentOf_of_none hx
    | some c =>
      obtain ⟨-, rfl⟩ := get?_withRoot.mp hx
      exact parentOf_of_get? hx

section

variable (h : t.Rooted)

include h

lemma parent_mem (hc : t.get? x = some c) (hp : c.parent = some parent) :
    ∃ d, t.get? parent = some d ∧ x ∈ d.children := by
  obtain hroot | ⟨p, d, hp', hd, hx⟩ := h.held x c hc
  · obtain ⟨c', hc', hnone⟩ := h.family.root x hroot
    obtain rfl := Option.some.inj (hc.symm.trans hc')
    cases hp.symm.trans hnone
  · obtain rfl := Option.some.inj (hp.symm.trans hp')
    exact ⟨d, hd, hx⟩

lemma mem_children_iff (hd : t.get? parent = some d) : x ∈ d.children ↔ t.parentOf x = some parent := by
  constructor
  · intro hx
    obtain ⟨-, c, hc, hp⟩ := h.family.listed parent d x hd hx
    exact (parentOf_of_get? hc).trans hp
  · intro hx
    obtain ⟨c, hc, hp⟩ := Option.bind_eq_some_iff.mp hx
    obtain ⟨d', hd', hx'⟩ := h.parent_mem hc hp
    obtain rfl := Option.some.inj (hd.symm.trans hd')
    exact hx'

lemma get?_of_mem_chain (hl : Chain t.parentOf x l) (hy : y ∈ l) : ∃ c, t.get? y = some c := by
  obtain ⟨z, -, hz⟩ := hl.exists_prev hy
  obtain ⟨c, hc, hp⟩ := Option.bind_eq_some_iff.mp hz
  obtain ⟨d, hd, -⟩ := h.parent_mem hc hp
  exact ⟨d, hd⟩

lemma length_lt_size (hc : t.get? x = some c) (hl : Chain t.parentOf x l) : l.length < t.size := by
  have hsub : x :: l ⊆ t.components.names := by
    intro y hy
    obtain rfl | hy := List.mem_cons.mp hy
    · exact NameMap.mem_names_iff.mpr (contains_of_get? hc)
    · obtain ⟨d, hd⟩ := h.get?_of_mem_chain hl hy
      exact NameMap.mem_names_iff.mpr (contains_of_get? hd)
  have hlen := (List.subperm_of_subset hl.nodup hsub).length_le
  rwa [NameMap.names, List.length_map] at hlen

lemma modify {f : Component → Component} (hn : ∀ c, (f c).name = c.name)
    (hp : ∀ c, (f c).parent = c.parent) (hl : ∀ c, (f c).children = c.children) (name : String) :
    (t.modify name f).Rooted := by
  have hget (x : String) : ∃ g : Component → Component, (∀ c, (g c).parent = c.parent ∧ (g c).children = c.children) ∧
      (t.modify name f).get? x = (t.get? x).map g := by
    rw [get?_modify]
    split
    · exact ⟨f, fun c => ⟨hp c, hl c⟩, rfl⟩
    · exact ⟨id, fun c => ⟨rfl, rfl⟩, Option.map_id.symm ▸ rfl⟩
  have hback (x : String) (d : Component) (hd : (t.modify name f).get? x = some d) :
      ∃ c, t.get? x = some c ∧ d.parent = c.parent ∧ d.children = c.children := by
    obtain ⟨g, hg, hx⟩ := hget x
    obtain ⟨c, hc, rfl⟩ := Option.map_eq_some_iff.mp (hx.symm.trans hd)
    exact ⟨c, hc, hg c⟩
  have hparent : (t.modify name f).parentOf = t.parentOf := by
    funext x
    obtain ⟨g, hg, hx⟩ := hget x
    rw [parentOf, hx, parentOf, Option.bind_map]
    exact congrArg _ (funext fun c => (hg c).1)
  refine ⟨h.family.modify hn hp hl name, fun x d hd => ?_, fun x d hd => ?_, hparent ▸ h.ends⟩
  · obtain ⟨c, hc, -, hsame⟩ := hback x d hd
    exact hsame ▸ h.nodup x c hc
  · obtain ⟨c, hc, hsame, -⟩ := hback x d hd
    refine (h.held x c hc).imp_right fun ⟨p, e, hp, he, hx⟩ => ?_
    obtain ⟨g, hg, hp'⟩ := hget p
    exact ⟨p, g e, hsame.trans hp, by rw [hp', he, Option.map_some], (hg e).2.symm ▸ hx⟩

lemma add (ha : ComponentTree.add name genus parent t = (.ok u, t')) : t'.Rooted := by
  obtain ⟨hfree, p, hp⟩ := exists_of_add ha
  have hget := get?_add ha
  have hname (x : String) (d : Component) (hd : t.get? x = some d) : x ≠ name := ne_of_get? hfree hd
  have hkept (x : String) (d : Component) (hd : t.get? x = some d) :
      ∃ d', t'.get? x = some d' ∧ d'.parent = d.parent ∧ d.children ⊆ d'.children := by
    rw [hget, if_neg (hname x d hd), hd]
    split
    · exact ⟨_, rfl, rfl, List.subset_append_left _ _⟩
    · exact ⟨d, rfl, rfl, List.Subset.refl _⟩
  have hnew : t'.get? name = some { name, genus, parent := some parent } := by rw [hget, if_pos rfl]
  obtain ⟨q, hq, -, hlists⟩ : ∃ q, t'.get? parent = some q ∧ q.parent = p.parent ∧ name ∈ q.children := by
    rw [hget, if_neg (hname parent p hp), if_pos rfl, hp]
    exact ⟨_, rfl, rfl, List.mem_append_right _ (List.mem_singleton_self name)⟩
  have hroot : t'.root = t.root := by
    rw [add_eq_ok ha]
    rfl
  refine ⟨h.family.add ha, fun x d hd => ?_, fun x d hd => ?_, fun x => ?_⟩
  · rw [hget] at hd
    split at hd
    · obtain rfl := Option.some.inj hd
      exact List.nodup_nil
    split at hd
    · obtain ⟨e, he, rfl⟩ := Option.map_eq_some_iff.mp hd
      refine List.nodup_append.mpr ⟨h.nodup x e he, List.nodup_singleton name, fun y hy z hz => ?_⟩
      obtain ⟨-, f, hf, -⟩ := h.family.listed x e y he hy
      exact List.mem_singleton.mp hz ▸ hname y f hf
    · exact h.nodup x d hd
  · by_cases hx : x = name
    · subst hx
      obtain rfl := Option.some.inj (hnew.symm.trans hd)
      exact .inr ⟨parent, q, rfl, hq, hlists⟩
    · obtain ⟨e, he, hsame⟩ : ∃ e, t.get? x = some e ∧ d.parent = e.parent := by
        rw [hget, if_neg hx] at hd
        split at hd
        · obtain ⟨e, he, rfl⟩ := Option.map_eq_some_iff.mp hd
          exact ⟨e, he, rfl⟩
        · exact ⟨d, hd, rfl⟩
      refine (h.held x e he).imp hroot.trans fun ⟨r, f, hr, hf, hin⟩ => ?_
      obtain ⟨f', hf', -, hsub⟩ := hkept r f hf
      exact ⟨r, f', hsame.trans hr, hf', hsub hin⟩
  · have hparent (y : String) (hy : y ≠ name) : t'.parentOf y = t.parentOf y := by
      cases hd : t.get? y with
      | none =>
        refine (parentOf_of_none ?_).trans (parentOf_of_none hd).symm
        rw [hget, if_neg hy, hd]
        split <;> rfl
      | some d =>
        obtain ⟨d', hd', hsame, -⟩ := hkept y d hd
        rw [parentOf_of_get? hd', parentOf_of_get? hd, hsame]
    -- nothing was below the new name before, so no old way up leads over it
    have hold (y : String) (hy : y ≠ name) : ∃ m, Chain t'.parentOf y m := by
      obtain ⟨m, hm⟩ := h.ends y
      refine ⟨m, hm.congr fun z hz => hparent z ?_⟩
      obtain rfl | hz := List.mem_cons.mp hz
      · exact hy
      · obtain ⟨e, he⟩ := h.get?_of_mem_chain hm hz
        exact hname z e he
    by_cases hx : x = name
    · obtain ⟨m, hm⟩ := hold parent (hname parent p hp)
      exact ⟨parent :: m, .link (hx ▸ parentOf_of_get? hnew) hm⟩
    · exact hold x hx

end

end Rooted

def IsParent (t : ComponentTree) (p x : String) : Prop := t.parentOf x = some p

def Within (t : ComponentTree) (name x : String) : Prop := Relation.ReflTransGen t.IsParent name x

lemma within_iff (hl : Chain t.parentOf x l) : t.Within name x ↔ name ∈ x :: l := by
  constructor
  · intro hw
    induction hw generalizing l with
    | refl => exact List.mem_cons_self
    | tail hw hx ih =>
      cases hl with
      | last hnone => cases hx.symm.trans hnone
      | link hy ht =>
        obtain rfl := Option.some.inj (hx.symm.trans hy)
        exact List.mem_cons_of_mem _ (ih ht)
  · intro hin
    induction hl with
    | last _ =>
      obtain rfl := List.mem_singleton.mp hin
      exact .refl
    | link hy ht ih =>
      obtain rfl | hin := List.mem_cons.mp hin
      · exact .refl
      · exact .tail (ih hin) hy

namespace Rooted

variable (h : t.Rooted)

include h

lemma within_of_mem_subtreeFrom (hx : x ∈ t.subtreeFrom n name) : t.Within name x := by
  induction n generalizing name with
  | zero => cases hx
  | succ n ih =>
    rw [subtreeFrom] at hx
    split at hx
    · rename_i c hc
      obtain hx | hx := List.mem_append.mp hx
      · obtain ⟨child, hchild, hx⟩ := List.mem_flatMap.mp hx
        exact .head ((h.mem_children_iff hc).mp hchild) (ih hx)
      · rw [List.mem_singleton.mp hx]
        exact .refl
    · cases hx

/-- Enough levels are left for all below `name` once they make up the size with those above it. -/
lemma mem_subtreeFrom_of_within (hl : Chain t.parentOf name l) (hn : t.size ≤ n + l.length) (hc : t.get? x = some c)
    (hw : t.Within name x) : x ∈ t.subtreeFrom n name := by
  have hpresent : ∃ d, t.get? name = some d := by
    obtain ⟨m, hm⟩ := h.ends x
    obtain rfl | hin := List.mem_cons.mp ((within_iff hm).mp hw)
    · exact ⟨c, hc⟩
    · exact h.get?_of_mem_chain hm hin
  obtain ⟨d, hd⟩ := hpresent
  induction n generalizing name l d with
  | zero =>
    have hlt := h.length_lt_size hd hl
    omega
  | succ n ih =>
    rw [subtreeFrom, hd]
    obtain rfl | ⟨child, hchild, hrest⟩ := Relation.ReflTransGen.cases_head hw
    · exact List.mem_append_right _ (List.mem_singleton_self _)
    · have hin := (h.mem_children_iff hd).mpr hchild
      obtain ⟨-, e, he, -⟩ := h.family.listed name d child hd hin
      refine List.mem_append_left _ (List.mem_flatMap.mpr ⟨child, hin, ?_⟩)
      refine ih (.link hchild hl) ?_ hrest e he
      rw [List.length_cons]
      omega

lemma mem_subtree_iff (hc : t.get? x = some c) : x ∈ t.subtree name ↔ t.Within name x := by
  refine ⟨h.within_of_mem_subtreeFrom, fun hw => ?_⟩
  obtain ⟨l, hl⟩ := h.ends name
  exact h.mem_subtreeFrom_of_within hl (Nat.le_add_right _ _) hc hw

lemma remove (hr : ComponentTree.remove name t = (.ok cs, t')) : t'.Rooted := by
  obtain ⟨c, hc, hw⟩ := without_of_remove hr
  have hback (x : String) (d : Component) (hd : t'.get? x = some d) :
      x ∉ t.subtree name ∧ ∃ e, t.get? x = some e ∧ unlisted name c.parent x e = d := by
    rw [hw.get?_eq] at hd
    split at hd
    · cases hd
    · exact ⟨‹_›, Option.map_eq_some_iff.mp hd⟩
  refine ⟨h.family.remove hr, fun x d hd => ?_, fun x d hd => ?_, fun x => ?_⟩
  · obtain ⟨-, e, he, rfl⟩ := hback x d hd
    rw [unlisted]
    split
    · exact (h.nodup x e he).filter _
    · exact h.nodup x e he
  · obtain ⟨hstay, e, he, rfl⟩ := hback x d hd
    have hne : x ≠ name := by
      rintro rfl
      exact hstay (mem_subtree_self hc)
    obtain hroot | ⟨p, f, hp, hf, hin⟩ := h.held x e he
    · left
      rw [hw.root_eq, if_neg, hroot]
      exact fun hroot' => hne (Option.some.inj (hroot.symm.trans hroot'))
    · -- the parent stays, since what is below a removed component goes with it
      have hp' : p ∉ t.subtree name := by
        intro hgone
        refine hstay ((h.mem_subtree_iff he).mpr (.tail ((h.mem_subtree_iff hf).mp hgone) ?_))
        exact (parentOf_of_get? he).trans hp
      refine .inr ⟨p, unlisted name c.parent p f, hp, ?_, ?_⟩
      · rw [hw.get?_eq, if_neg hp', hf, Option.map_some]
      · rw [unlisted]
        split
        · exact List.mem_filter.mpr ⟨hin, decide_eq_true hne⟩
        · exact hin
  · obtain ⟨l, hl⟩ := h.ends x
    refine hl.transfer fun y _ => ?_
    by_cases hy : y ∈ t.subtree name
    · refine .inr ⟨[], .last (parentOf_of_none ?_)⟩
      rw [hw.get?_eq, if_pos hy]
    · left
      rw [parentOf, hw.get?_eq, if_neg hy, parentOf, Option.bind_map]
      rfl

end Rooted

end ComponentTree

def substitute (old new x : String) : String := if x = old then new else x

lemma substitute_self (old new : String) : substitute old new old = new := if_pos rfl

lemma substitute_of_ne {old new x : String} (h : x ≠ old) : substitute old new x = x := if_neg h

lemma substitute_same {old new : String} (h : old = new) : substitute old new = id := by
  funext x
  by_cases hx : x = old
  · rw [hx, substitute_self, h, id]
  · exact substitute_of_ne hx

lemma map_substitute_of_notMem {old new : String} {l : List String} (h : old ∉ l) : l.map (substitute old new) = l := by
  refine (List.map_congr_left fun y hy => ?_).trans (List.map_id l)
  exact substitute_of_ne fun heq => h (heq ▸ hy)

def Component.substituted (old new : String) (d : Component) : Component :=
  { d with
    name := substitute old new d.name
    parent := d.parent.map (substitute old new)
    children := d.children.map (substitute old new) }

namespace ComponentTree

variable {t t' : ComponentTree} {d : Component} {name old new property value x y : String} {u : Unit}

lemma setProperty_cases (name property value : String) (t : ComponentTree) :
    (∃ e, setProperty name property value t = (.error e, t)) ∨
      t.contains name = true ∧ setProperty name property value t =
        (.ok (), t.modify name fun c => { c with properties := c.properties.put property value }) := by
  rw [setProperty, Edit.get_bind]
  cases hr : t.require name with
  | error e => exact .inl ⟨e, rfl⟩
  | ok c => exact .inr ⟨contains_of_get? (require_eq_ok.mp hr), rfl⟩

lemma substitute_inj_of_rename (hr : rename old new t = (.ok u, t')) {e : Component} (hd : t.get? x = some d)
    (he : t.get? y = some e) (hxy : substitute old new x = substitute old new y) : x = y := by
  by_cases hne : old = new
  · rwa [substitute_same hne] at hxy
  have hnew := not_contains_new_of_rename hr hne
  have hx := ne_of_get? hnew hd
  have hy := ne_of_get? hnew he
  by_cases hxo : x = old
  · by_cases hyo : y = old
    · exact hxo.trans hyo.symm
    · rw [hxo, substitute_self, substitute_of_ne hyo] at hxy
      exact absurd hxy.symm hy
  · by_cases hyo : y = old
    · rw [hyo, substitute_self, substitute_of_ne hxo] at hxy
      exact absurd hxy hx
    · rwa [substitute_of_ne hxo, substitute_of_ne hyo] at hxy

namespace Rooted

section

variable (h : t.Rooted)

include h

lemma parent_ne_self (hd : t.get? x = some d) : d.parent ≠ some x := by
  intro hp
  obtain ⟨e, he, hin⟩ := h.parent_mem hd hp
  exact (h.family.listed x e x he hin).1 rfl

lemma get?_rename (hr : ComponentTree.rename old new t = (.ok u, t')) (hd : t.get? x = some d) :
    t'.get? (substitute old new x) = some (d.substituted old new) := by
  have hname : d.name = x := keyed_iff.mp h.family.keyed x d hd
  by_cases hne : old = new
  · obtain ⟨-, -, rfl⟩ | ⟨hne', -⟩ := rename_eq_ok hr
    · rw [Component.substituted, substitute_same hne, Option.map_id, List.map_id]
      exact hd
    · exact absurd hne hne'
  obtain ⟨hnew, c, hc, hren⟩ := renamed_of_ok hr hne
  by_cases hx : x = old
  · subst hx
    obtain rfl := Option.some.inj (hc.symm.trans hd)
    have hparent : c.parent.map (substitute x new) = c.parent := by
      cases hp : c.parent with
      | none => rfl
      | some p => exact congrArg some (substitute_of_ne fun hpx => h.parent_ne_self hc (hpx ▸ hp))
    have hchildren : c.children.map (substitute x new) = c.children :=
      map_substitute_of_notMem fun hin => (h.family.listed x c x hc hin).1 rfl
    rw [substitute_self, hren.get?_new, Component.substituted, hname, substitute_self, hparent, hchildren]
  · rw [substitute_of_ne hx, hren.get?_other hnew hd hx]
    refine congrArg some ?_
    have hparent : (if x ∈ c.children ∧ x ≠ old then some new else d.parent) = d.parent.map (substitute old new) := by
      by_cases hin : x ∈ c.children
      · have hp : d.parent = some old := (parentOf_of_get? hd).symm.trans ((h.mem_children_iff hc).mp hin)
        rw [if_pos ⟨hin, hx⟩, hp, Option.map_some, substitute_self]
      · rw [if_neg fun hh => hin hh.1]
        cases hp : d.parent with
        | none => rfl
        | some p =>
          refine congrArg some (substitute_of_ne fun hpo => hin ?_).symm
          exact (h.mem_children_iff hc).mpr ((parentOf_of_get? hd).trans (hpo ▸ hp))
    have hchildren : (if c.parent = some x ∧ x ≠ old then d.children.map fun y => if y = old then new else y
        else d.children) = d.children.map (substitute old new) := by
      split
      · rfl
      · rename_i hlists
        refine (map_substitute_of_notMem fun hin => hlists ⟨?_, hx⟩).symm
        exact (parentOf_of_get? hc).symm.trans ((h.mem_children_iff hd).mp hin)
    rw [Component.relinked, Component.substituted, hname, substitute_of_ne hx, ← hparent, ← hchildren, ← hname]

lemma exists_of_rename (hr : ComponentTree.rename old new t = (.ok u, t')) {e : Component} (he : t'.get? y = some e) :
    ∃ x d, t.get? x = some d ∧ y = substitute old new x ∧ e = d.substituted old new := by
  obtain ⟨x, d, hd, -, rfl⟩ := (carried_of_rename hr).back y e he
  exact ⟨x, d, hd, rfl, Option.some.inj (he.symm.trans (h.get?_rename hr hd))⟩

lemma chain_of_rename (hr : ComponentTree.rename old new t = (.ok u, t')) {l : List String}
    (hl : Chain t.parentOf x l) (hd : t.get? x = some d) :
    Chain t'.parentOf (substitute old new x) (l.map (substitute old new)) := by
  induction hl generalizing d with
  | last hx =>
    refine .last ((parentOf_of_get? (h.get?_rename hr hd)).trans ?_)
    exact congrArg (Option.map (substitute old new)) ((parentOf_of_get? hd).symm.trans hx)
  | link hx _ ih =>
    have hp := (parentOf_of_get? hd).symm.trans hx
    obtain ⟨e, he, -⟩ := h.parent_mem hd hp
    refine .link ((parentOf_of_get? (h.get?_rename hr hd)).trans ?_) (ih he)
    exact congrArg (Option.map (substitute old new)) hp

lemma root_rename (hr : ComponentTree.rename old new t = (.ok u, t')) :
    t'.root = t.root.map (substitute old new) := by
  by_cases hne : old = new
  · obtain ⟨-, -, rfl⟩ | ⟨hne', -⟩ := rename_eq_ok hr
    · rw [substitute_same hne, Option.map_id, id]
    · exact absurd hne hne'
  obtain ⟨-, c, -, hren⟩ := renamed_of_ok hr hne
  rw [hren.root_eq]
  cases ht : t.root with
  | none => rfl
  | some r =>
    by_cases hro : r = old
    · rw [hro, if_pos rfl, Option.map_some, substitute_self]
    · rw [if_neg fun hh => hro (Option.some.inj hh), Option.map_some, substitute_of_ne hro]

lemma names_rename (hr : ComponentTree.rename old new t = (.ok u, t')) :
    t'.components.names = t.components.names.map (substitute old new) := by
  by_cases hne : old = new
  · obtain ⟨-, -, rfl⟩ | ⟨hne', -⟩ := rename_eq_ok hr
    · rw [substitute_same hne, List.map_id]
    · exact absurd hne hne'
  obtain ⟨-, c, -, hren⟩ := renamed_of_ok hr hne
  exact hren.names_eq

lemma rename (hr : ComponentTree.rename old new t = (.ok u, t')) : t'.Rooted := by
  refine ⟨h.family.rename hr, fun y e he => ?_, fun y e he => ?_, fun y => ?_⟩
  · obtain ⟨x, d, hd, -, rfl⟩ := h.exists_of_rename hr he
    refine (h.nodup x d hd).map_on fun a ha b hb hab => ?_
    obtain ⟨-, f, hf, -⟩ := h.family.listed x d a hd ha
    obtain ⟨-, g, hg, -⟩ := h.family.listed x d b hd hb
    exact substitute_inj_of_rename hr hf hg hab
  · obtain ⟨x, d, hd, rfl, rfl⟩ := h.exists_of_rename hr he
    refine (h.held x d hd).imp (fun hroot => ?_) fun ⟨p, f, hp, hf, hin⟩ => ?_
    · rw [h.root_rename hr, hroot, Option.map_some]
    · exact ⟨_, _, congrArg (Option.map (substitute old new)) hp, h.get?_rename hr hf, List.mem_map_of_mem hin⟩
  · cases he : t'.get? y with
    | none => exact ⟨[], .last (parentOf_of_none he)⟩
    | some e =>
      obtain ⟨x, d, hd, rfl, -⟩ := h.exists_of_rename hr he
      obtain ⟨l, hl⟩ := h.ends x
      exact ⟨_, h.chain_of_rename hr hl hd⟩

lemma setProperty (name property value : String) : (ComponentTree.setProperty name property value t).2.Rooted := by
  obtain ⟨e, he⟩ | ⟨-, ht⟩ := setProperty_cases name property value t
  · rwa [he]
  · rw [ht]
    exact h.modify (f := fun c => { c with properties := c.properties.put property value }) (fun _ => rfl)
      (fun _ => rfl) (fun _ => rfl) name

lemma run (e : TreeEdit) : (e.run t).Rooted := by
  cases e with
  | add name genus parent =>
    obtain ⟨e, he⟩ | ⟨t', ht⟩ := add_cases name genus parent t
    · rwa [TreeEdit.run, he]
    · rw [TreeEdit.run, ht]
      exact h.add ht
  | remove name =>
    obtain ⟨e, he⟩ | ⟨cs, t', ht⟩ := remove_cases name t
    · rwa [TreeEdit.run, he]
    · rw [TreeEdit.run, ht]
      exact h.remove ht
  | rename old new =>
    obtain ⟨e, he⟩ | ⟨t', ht⟩ := rename_cases old new t
    · rwa [TreeEdit.run, he]
    · rw [TreeEdit.run, ht]
      exact h.rename ht
  | setProperty name property value => exact h.setProperty name property value

end

lemma runs {t : ComponentTree} (h : t.Rooted) (edits : List TreeEdit) : (edits.foldl TreeEdit.run t).Rooted := by
  induction edits generalizing t with
  | nil => exact h
  | cons e edits ih => exact ih (h.run e)

end Rooted

end ComponentTree

namespace Workspace

lemma kept_rooted : Kept fun w => w.components.Rooted where
  graph _ _ hw := hw
  tree e _ hw := hw.run e
  owner component id _ hw :=
    hw.modify (f := fun c => { c with blocks := c.blocks.insert id }) (fun _ => rfl) (fun _ => rfl) (fun _ => rfl) component

lemma Reached.rooted {w : Workspace} (h : w.Reached) : w.components.Rooted := by
  obtain ⟨form, edits, rfl⟩ := h
  exact kept_rooted.edited (.withRoot form formType) edits

end Workspace

end BlockStudio
