import BlockStudio.Proofs.Component.Rooted
import Mathlib.Data.List.Pairwise

/-! Walks over the tree of components: parents first from the root down, children first for what is removed. -/

namespace BlockStudio

section Prepared

variable {α β : Type} {P Q : α → List α → Prop} {a : α} {l m : List α}

def Prepared (P : α → List α → Prop) (l : List α) : Prop := ∀ l₁ a l₂, l = l₁ ++ a :: l₂ → P a l₁

lemma prepared_nil : Prepared P [] := fun l₁ a l₂ h => by simp at h

lemma prepared_singleton (h : P a []) : Prepared P [a] := by
  intro l₁ b l₂ hl
  cases l₁ with
  | nil =>
    obtain ⟨rfl, -⟩ := List.cons_eq_cons.mp hl
    exact h
  | cons c l₁ =>
    have hlen := congrArg List.length hl
    simp at hlen

lemma Prepared.append (h : Prepared P l) (hm : Prepared (fun a k => P a (l ++ k)) m) : Prepared P (l ++ m) := by
  intro l₁ a l₂ hl
  obtain ⟨k, rfl, hk⟩ | ⟨k, rfl, hk⟩ := List.append_eq_append_iff.mp hl
  · exact hm k a l₂ hk
  · cases k with
    | nil =>
      have := hm [] a l₂ hk.symm
      rwa [List.append_nil, List.append_nil] at this
    | cons b k =>
      obtain ⟨rfl, -⟩ := List.cons_eq_cons.mp hk
      exact h l₁ a k rfl

lemma Prepared.mono (h : Prepared P l) (hPQ : ∀ a k, P a k → Q a k) : Prepared Q l :=
  fun l₁ a l₂ hl => hPQ a l₁ (h l₁ a l₂ hl)

lemma Prepared.flatMap (hP : ∀ a k k', P a k → P a (k' ++ k)) {f : β → List α} (l : List β)
    (h : ∀ b ∈ l, Prepared P (f b)) : Prepared P (l.flatMap f) := by
  induction l with
  | nil => exact prepared_nil
  | cons b l ih =>
    rw [List.flatMap_cons]
    refine (h b List.mem_cons_self).append ?_
    exact (ih fun c hc => h c (List.mem_cons_of_mem b hc)).mono fun a k ha => hP a k _ ha

end Prepared

namespace ComponentTree

variable {t t' : ComponentTree} {c d : Component} {cs : List Component} {l order : List String} {n : ℕ}
  {name old new genus parent x y : String}

namespace Rooted

variable (h : t.Rooted)

include h

lemma not_within_of_isParent (hp : t.IsParent parent x) : ¬ t.Within x parent := by
  intro hw
  obtain ⟨l, hl⟩ := h.ends parent
  exact (Chain.link hp hl).notMem ((within_iff hl).mp hw)

lemma eq_of_siblings (hx : t.IsParent parent x) (hy : t.IsParent parent y) {z : String} (hxz : t.Within x z)
    (hyz : t.Within y z) : x = y := by
  obtain ⟨l, hl⟩ := h.ends parent
  obtain ⟨m, hm⟩ := h.ends z
  have key {a b : String} (ha : t.IsParent parent a) (hb : t.IsParent parent b) (hin : b ∈ a :: parent :: l) :
      b = a := by
    refine (List.mem_cons.mp hin).resolve_right fun hin => ?_
    exact h.not_within_of_isParent hb ((within_iff hl).mpr hin)
  obtain hin | hin := hm.connex ((within_iff hm).mp hxz) ((within_iff hm).mp hyz) (.link hx hl) (.link hy hl)
  · exact (key hx hy hin).symm
  · exact key hy hx hin

lemma exists_root (hd : t.get? x = some d) : ∃ r, t.root = some r ∧ t.Within r x := by
  obtain ⟨l, hl⟩ := h.ends x
  have hlast := hl.getLast_eq_none
  have hin := List.getLast_mem (List.cons_ne_nil x l)
  generalize (x :: l).getLast (List.cons_ne_nil x l) = r at hlast hin
  obtain ⟨e, he⟩ : ∃ e, t.get? r = some e := by
    obtain rfl | hin := List.mem_cons.mp hin
    · exact ⟨d, hd⟩
    · exact h.get?_of_mem_chain hl hin
  obtain hr | ⟨p, -, hp, -⟩ := h.held r e he
  · exact ⟨r, hr, (within_iff hl).mpr hin⟩
  · cases hlast.symm.trans ((parentOf_of_get? he).trans hp)

lemma mem_list_iff : c ∈ t.list ↔ t.get? c.name = some c := by
  constructor
  · intro hc
    obtain ⟨e, he, rfl⟩ := List.mem_map.mp hc
    rw [h.family.keyed e he]
    exact NameMap.mem_entries_iff.mp he
  · exact NameMap.mem_values_of_get?

lemma nodup_list : t.list.Nodup := by
  have hnames : t.list.map (·.name) = t.components.names := by
    rw [list, NameMap.values, NameMap.names, List.map_map]
    exact List.map_congr_left h.family.keyed
  refine List.Nodup.of_map (·.name) ?_
  rw [hnames]
  exact t.components.distinct

lemma nodup_subtreeFrom (n : ℕ) (name : String) : (t.subtreeFrom n name).Nodup := by
  induction n generalizing name with
  | zero => exact List.nodup_nil
  | succ n ih =>
    rw [subtreeFrom]
    split
    · rename_i c hc
      have hchild (x : String) (hx : x ∈ c.children) : t.IsParent name x := (h.mem_children_iff hc).mp hx
      refine List.nodup_append.mpr ⟨List.nodup_flatMap.mpr ⟨fun x _ => ih x, ?_⟩, List.nodup_singleton name, ?_⟩
      · refine (h.nodup name c hc).pairwise_of_forall_ne fun x hx y hy hne z hxz hyz => hne ?_
        exact h.eq_of_siblings (hchild x hx) (hchild y hy) (h.within_of_mem_subtreeFrom hxz)
          (h.within_of_mem_subtreeFrom hyz)
      · rintro x hx y hy rfl
        obtain rfl := List.mem_singleton.mp hy
        obtain ⟨child, hin, hx⟩ := List.mem_flatMap.mp hx
        exact h.not_within_of_isParent (hchild child hin) (h.within_of_mem_subtreeFrom hx)
    · exact List.nodup_nil

lemma subtreeFrom_succ (hl : Chain t.parentOf name l) (hn : t.size ≤ n + l.length) :
    t.subtreeFrom (n + 1) name = t.subtreeFrom n name := by
  induction n generalizing name l with
  | zero =>
    rw [subtreeFrom, subtreeFrom]
    cases hc : t.get? name with
    | none => rfl
    | some c =>
      have hlt := h.length_lt_size hc hl
      omega
  | succ n ih =>
    rw [subtreeFrom, subtreeFrom]
    cases hc : t.get? name with
    | none => rfl
    | some c =>
      refine congrArg (· ++ [name]) (List.flatMap_congr fun x hx => ?_)
      refine ih (.link ((h.mem_children_iff hc).mp hx) hl) ?_
      rw [List.length_cons]
      omega

lemma subtree_eq (name : String) : t.subtree name =
    match t.get? name with
    | some c => c.children.flatMap t.subtree ++ [name]
    | none => [] := by
  obtain ⟨l, hl⟩ := h.ends name
  rw [subtree, ← h.subtreeFrom_succ hl (Nat.le_add_right _ _)]
  rfl

lemma children_first (hl : Chain t.parentOf name l) (hn : t.size ≤ n + l.length) :
    Prepared (fun x k => ∀ c, t.get? x = some c → ∀ child ∈ c.children, child ∈ k) (t.subtreeFrom n name) := by
  induction n generalizing name l with
  | zero => exact prepared_nil
  | succ n ih =>
    rw [subtreeFrom]
    split
    · rename_i c hc
      have hfuel : t.size ≤ n + (name :: l).length := by
        rw [List.length_cons]
        omega
      have hchild (x : String) (hx : x ∈ c.children) : Chain t.parentOf x (name :: l) :=
        .link ((h.mem_children_iff hc).mp hx) hl
      refine Prepared.append (.flatMap ?_ _ fun x hx => ih (hchild x hx) hfuel) (prepared_singleton ?_)
      · exact fun x k k' hx d hd child hin => List.mem_append_right k' (hx d hd child hin)
      · intro d hd child hin
        obtain rfl := Option.some.inj (hc.symm.trans hd)
        obtain ⟨-, e, he, -⟩ := h.family.listed name c child hc hin
        rw [List.append_nil]
        exact List.mem_flatMap.mpr ⟨child, hin, h.mem_subtreeFrom_of_within (hchild child hin) hfuel he .refl⟩
    · exact prepared_nil

lemma map_name_flatMap {f : Component → List Component} {g : String → List String}
    (hl : ∀ x ∈ l, ∃ d, t.get? x = some d)
    (hfg : ∀ d, t.get? d.name = some d → ((f d).map (·.name)).Perm (g d.name)) :
    (((l.filterMap t.get?).flatMap f).map (·.name)).Perm (l.flatMap g) := by
  induction l with
  | nil => exact .refl _
  | cons x l ih =>
    obtain ⟨d, hd⟩ := hl x List.mem_cons_self
    have hname := keyed_iff.mp h.family.keyed x d hd
    rw [List.filterMap_cons_some hd, List.flatMap_cons, List.flatMap_cons, List.map_append]
    refine .append ?_ (ih fun y hy => hl y (List.mem_cons_of_mem x hy))
    exact hname ▸ hfg d (hname.symm ▸ hd)

lemma names_walkFrom (n : ℕ) (hc : t.get? c.name = some c) :
    ((t.walkFrom n c).map (·.name)).Perm (t.subtreeFrom n c.name) := by
  induction n generalizing c with
  | zero => exact .refl _
  | succ n ih =>
    rw [walkFrom, subtreeFrom, hc, childrenOf, hc, List.map_cons]
    refine .trans (.cons _ (h.map_name_flatMap (fun x hx => ?_) fun d hd => ih hd)) ?_
    swap
    · exact (List.perm_append_singleton _ _).symm
    obtain ⟨-, d, hd, -⟩ := h.family.listed c.name c x hc hx
    exact ⟨d, hd⟩

lemma get?_of_mem_childrenOf (hc : t.get? c.name = some c) (hd : d ∈ t.childrenOf c.name) :
    t.get? d.name = some d ∧ d.parent = some c.name := by
  rw [childrenOf, hc] at hd
  obtain ⟨x, hx, hd⟩ := List.mem_filterMap.mp hd
  obtain ⟨-, e, he, hp⟩ := h.family.listed c.name c x hc hx
  obtain rfl := Option.some.inj (hd.symm.trans he)
  exact ⟨keyed_iff.mp h.family.keyed x d hd ▸ hd, hp⟩

lemma get?_of_mem_walkFrom (hc : t.get? c.name = some c) (hd : d ∈ t.walkFrom n c) : t.get? d.name = some d := by
  induction n generalizing c with
  | zero => cases hd
  | succ n ih =>
    rw [walkFrom] at hd
    obtain rfl | hd := List.mem_cons.mp hd
    · exact hc
    · obtain ⟨e, he, hd⟩ := List.mem_flatMap.mp hd
      exact ih (h.get?_of_mem_childrenOf hc he).1 hd

lemma walkFrom_succ (hc : t.get? c.name = some c) (hl : Chain t.parentOf c.name l) (hn : t.size ≤ n + l.length) :
    t.walkFrom (n + 1) c = t.walkFrom n c := by
  induction n generalizing c l with
  | zero =>
    have hlt := h.length_lt_size hc hl
    omega
  | succ n ih =>
    rw [walkFrom, walkFrom]
    refine congrArg (c :: ·) (List.flatMap_congr fun d hd => ?_)
    obtain ⟨hd, hp⟩ := h.get?_of_mem_childrenOf hc hd
    refine ih hd (.link ((parentOf_of_get? hd).trans hp) hl) ?_
    rw [List.length_cons]
    omega

lemma walkFrom_size (hc : t.get? c.name = some c) :
    t.walkFrom t.size c = c :: (t.childrenOf c.name).flatMap (t.walkFrom t.size) := by
  obtain ⟨l, hl⟩ := h.ends c.name
  rw [← h.walkFrom_succ hc hl (Nat.le_add_right _ _)]
  rfl

lemma parents_first (n : ℕ) (hc : t.get? c.name = some c) :
    Prepared (fun d k => d.parent = c.parent ∨ ∃ e ∈ k, d.parent = some e.name) (t.walkFrom n c) := by
  induction n generalizing c with
  | zero => exact prepared_nil
  | succ n ih =>
    rw [walkFrom, ← List.singleton_append]
    refine .append (prepared_singleton (.inl rfl)) (.flatMap ?_ _ fun d hd => ?_)
    · rintro d k k' (hd | ⟨e, he, hd⟩)
      · exact .inl hd
      · obtain rfl | he := List.mem_cons.mp he
        · exact .inr ⟨e, List.mem_cons_self, hd⟩
        · exact .inr ⟨e, List.mem_cons_of_mem c (List.mem_append_right k' he), hd⟩
    · obtain ⟨hd, hp⟩ := h.get?_of_mem_childrenOf hc hd
      refine (ih hd).mono fun a k ha => .inr ?_
      obtain ha | ⟨e, he, ha⟩ := ha
      · exact ⟨c, List.mem_cons_self, ha.trans hp⟩
      · exact ⟨e, List.mem_cons_of_mem c he, ha⟩

lemma walk_perm_list : t.walk.Perm t.list := by
  rw [walk]
  cases hroot : t.root? with
  | none =>
    have hnil : t.list = [] := by
      refine List.eq_nil_iff_forall_not_mem.mpr fun c hc => ?_
      obtain ⟨r, hr, -⟩ := h.exists_root (h.mem_list_iff.mp hc)
      obtain ⟨d, hd, -⟩ := h.family.root r hr
      rw [root?, hr, Option.bind_some, hd] at hroot
      cases hroot
    rw [hnil]
  | some c =>
    obtain ⟨r, hr, hc⟩ := Option.bind_eq_some_iff.mp hroot
    obtain rfl := keyed_iff.mp h.family.keyed r c hc
    have hnames := h.names_walkFrom t.size hc
    have hnodup : (t.walkFrom t.size c).Nodup :=
      .of_map (·.name) (hnames.nodup_iff.mpr (h.nodup_subtreeFrom t.size c.name))
    refine (List.perm_ext_iff_of_nodup hnodup h.nodup_list).mpr fun d => ?_
    rw [h.mem_list_iff]
    refine ⟨h.get?_of_mem_walkFrom hc, fun hd => ?_⟩
    obtain ⟨r', hr', hw⟩ := h.exists_root hd
    obtain rfl := Option.some.inj (hr.symm.trans hr')
    obtain ⟨e, he, hname⟩ := List.mem_map.mp (hnames.mem_iff.mpr ((h.mem_subtree_iff hd).mpr hw))
    have hed := h.get?_of_mem_walkFrom hc he
    rw [hname, hd] at hed
    exact Option.some.inj hed ▸ he

lemma walk_parents_first : Prepared (fun c k => ∀ p, c.parent = some p → p ∈ k.map (·.name)) t.walk := by
  rw [walk]
  cases hroot : t.root? with
  | none => exact prepared_nil
  | some c =>
    obtain ⟨r, hr, hc⟩ := Option.bind_eq_some_iff.mp hroot
    obtain rfl := keyed_iff.mp h.family.keyed r c hc
    obtain ⟨c', hc', hnone⟩ := h.family.root c.name hr
    obtain rfl := Option.some.inj (hc.symm.trans hc')
    refine (h.parents_first t.size hc).mono fun d k hd p hp => ?_
    obtain hd | ⟨e, he, hd⟩ := hd
    · cases hp.symm.trans (hd.trans hnone)
    · exact List.mem_map.mpr ⟨e, he, Option.some.inj (hd.symm.trans hp)⟩

end Rooted

lemma takeAll_snd (hnd : order.Nodup) (t : ComponentTree) : (t.takeAll order).2 = order.filterMap t.get? := by
  induction order generalizing t with
  | nil => rfl
  | cons x order ih =>
    have hx := (List.nodup_cons.mp hnd).1
    rw [takeAll]
    split
    · rename_i c hc
      rw [List.filterMap_cons_some hc]
      refine congrArg (c :: ·) ((ih (List.nodup_cons.mp hnd).2 _).trans (List.filterMap_congr fun y hy => ?_))
      refine (NameMap.get?_erase t.components x y).trans (if_neg ?_)
      rintro rfl
      exact hx hy
    · rename_i hc
      rw [List.filterMap_cons_none hc, ih (List.nodup_cons.mp hnd).2]

lemma names_takeAll (order : List String) (t : ComponentTree) :
    (t.takeAll order).1.components.names = t.components.names.filter (· ∉ order) := by
  induction order generalizing t with
  | nil => simp [takeAll]
  | cons x order ih =>
    have herase : (t.components.erase x).names = t.components.names.filter (· ≠ x) := by
      rw [NameMap.names, NameMap.erase, NameMap.names, List.filter_map]
      rfl
    rw [takeAll]
    split
    · rw [ih, herase, List.filter_filter]
      exact List.filter_congr fun y _ => by simp [Bool.and_comm]
    · rename_i hnone
      rw [ih]
      refine List.filter_congr fun y hy => ?_
      have hne : y ≠ x := by
        rintro rfl
        obtain ⟨c, hc⟩ := Option.isSome_iff_exists.mp (NameMap.mem_names_iff.mp hy)
        cases hnone.symm.trans hc
      simp [hne]

structure TakenOut (t : ComponentTree) (name : String) (cs : List Component) (t' : ComponentTree) : Prop where
  mem_iff : ∀ c, c ∈ cs ↔ ∃ x, t.get? x = some c ∧ t.Within name x
  nodup : (cs.map (·.name)).Nodup
  children_first : ∀ l₁ c l₂, cs = l₁ ++ c :: l₂ → ∀ child ∈ c.children, child ∈ l₁.map (·.name)
  names_eq : t'.components.names = t.components.names.filter (· ∉ cs.map (·.name))
  get?_eq : ∀ x ∉ cs.map (·.name),
    t'.get? x = (t.get? x).map fun d => { d with children := d.children.filter (· ≠ name) }

namespace Rooted

variable (h : t.Rooted)

include h

lemma map_name_filterMap (hl : ∀ x ∈ l, ∃ d, t.get? x = some d) : (l.filterMap t.get?).map (·.name) = l := by
  induction l with
  | nil => rfl
  | cons x l ih =>
    obtain ⟨d, hd⟩ := hl x List.mem_cons_self
    rw [List.filterMap_cons_some hd, List.map_cons, ih fun y hy => hl y (List.mem_cons_of_mem x hy),
      keyed_iff.mp h.family.keyed x d hd]

lemma takenOut (hc : t.get? name = some c) :
    ∃ cs t', ComponentTree.remove name t = (.ok cs, t') ∧ t.TakenOut name cs t' := by
  -- the tree from which they are taken, where the parent of `name` no longer lists it
  obtain ⟨s, hget, hnames, hrun⟩ : ∃ s : ComponentTree, (∀ x, s.get? x = (t.get? x).map (unlisted name c.parent x)) ∧
      s.components.names = t.components.names ∧
      ComponentTree.remove name t = (.ok (s.takeAll (t.subtree name)).2, (s.takeAll (t.subtree name)).1) := by
    refine ⟨{ t.dropChild name c.parent with root := if t.root = some name then none else t.root },
      get?_dropChild t name c.parent, ?_, remove_of_get? hc⟩
    cases c.parent with
    | none => rfl
    | some p => exact NameMap.names_modify _ _ _
  have hpresent (x : String) (hx : x ∈ t.subtree name) : ∃ d, t.get? x = some d :=
    Option.isSome_iff_exists.mp (contains_of_mem_subtreeFrom hx)
  have hsame (x : String) (hx : x ∈ t.subtree name) : s.get? x = t.get? x := by
    obtain ⟨d, hd⟩ := hpresent x hx
    rw [hget, hd, Option.map_some, unlisted, if_neg]
    intro hp
    exact h.not_within_of_isParent ((parentOf_of_get? hc).trans hp) ((h.mem_subtree_iff hd).mp hx)
  have hnodup : (t.subtree name).Nodup := h.nodup_subtreeFrom t.size name
  have hlisted := h.map_name_filterMap hpresent
  rw [takeAll_snd hnodup, List.filterMap_congr hsame] at hrun
  refine ⟨_, _, hrun, fun d => ?_, hlisted.symm ▸ hnodup, ?_, ?_, fun x hx => ?_⟩
  · rw [List.mem_filterMap]
    exact exists_congr fun x => ⟨fun hx => ⟨hx.2, (h.mem_subtree_iff hx.2).mp hx.1⟩,
      fun hx => ⟨(h.mem_subtree_iff hx.1).mpr hx.2, hx.1⟩⟩
  · intro l₁ d l₂ hsplit child hchild
    obtain ⟨l, hl⟩ := h.ends name
    have hd : t.get? d.name = some d := by
      obtain ⟨x, -, hx⟩ := List.mem_filterMap.mp (hsplit ▸ List.mem_append_right l₁ List.mem_cons_self)
      exact keyed_iff.mp h.family.keyed x d hx ▸ hx
    refine h.children_first hl (Nat.le_add_right _ _) (l₁.map (·.name)) d.name (l₂.map (·.name)) ?_ d hd child hchild
    rw [← subtree, ← hlisted, hsplit, List.map_append, List.map_cons]
  · rw [names_takeAll, hnames, hlisted]
  · rw [hlisted] at hx
    rw [get?_takeAll, if_neg hx, hget]
    cases hd : t.get? x with
    | none => rfl
    | some d =>
      refine congrArg some ?_
      rw [unlisted]
      split
      · rfl
      · rename_i hp
        -- nobody but its parent lists `name`
        have hnot : name ∉ d.children := fun hin =>
          hp ((parentOf_of_get? hc).symm.trans ((h.mem_children_iff hd).mp hin))
        have hall := List.filter_eq_self.mpr fun y hy => decide_eq_true (ne_of_mem_of_not_mem hy hnot)
        dsimp only
        rw [hall]

end Rooted

end ComponentTree

end BlockStudio
