import BlockStudio.Proofs.Links.Runs
import BlockStudio.Proofs.Links.Settled

/-! Polymorphic connectors have the types that the links give them, in whatever order the links were made. -/

namespace BlockStudio.BlockGraph

variable {g g' : BlockGraph} {b : Block} {c id k : BlockId} {stale : List BlockId} {n : ℕ}

section Edits

lemma resolved_of_addBlock {genus : Genus} {label : String} {extra : List SocketDef}
    (hb : (g.addBlock genus label extra).1.get? (g.nextId + 1) = some b) :
    (∀ s ∈ b.sockets, s.resolved = none) ∧ ∀ p, b.plug = some p → p.resolved = none := by
  rw [BlockGraph.get?, BlockGraph.addBlock, SortedMap.get?_insert, if_pos rfl] at hb
  obtain rfl := Option.some.inj hb
  constructor
  · intro s hs
    obtain ⟨d, _, rfl⟩ := List.mem_map.mp hs
    rfl
  · intro p hp
    obtain ⟨d, _, rfl⟩ := Option.map_eq_some_iff.mp hp
    rfl

lemma adaptBlock_of_loose (hl : b.Loose) (hs : ∀ s ∈ b.sockets, s.resolved = none)
    (hp : ∀ p, b.plug = some p → p.resolved = none) : g.adaptBlock b = b := by
  have hsock : b.sockets.map g.adaptSocket = b.sockets := by
    have heach : ∀ s ∈ b.sockets, g.adaptSocket s = s := by
      intro s hm
      have hr : s.block.bind g.plugTypeOf = s.resolved := by rw [hl.empty s hm, hs s hm, Option.bind_none]
      simp [adaptSocket, hr]
    rw [List.map_congr_left heach, List.map_id']
  have hnone : b.adaptedType = none := by
    rw [Block.adaptedType, List.findSome?_eq_none_iff]
    exact fun s hm => hs s (List.mem_filter.mp hm).1
  have hplug : b.plug.map (adaptPlug none) = b.plug := by
    cases hb : b.plug with
    | none => rfl
    | some p =>
      cases hk : p.kind.isPoly with
      | true => simp [adaptPlug, hk, ← hp p hb]
      | false => simp [adaptPlug, hk]
  simp only [adaptBlock, hsock, hnone, hplug]

variable (h : g.WellLinked) (hs : g.Settled [])

include h hs

lemma Settled.addBlock (genus : Genus) (label : String) (extra : List SocketDef) :
    (g.addBlock genus label extra).1.Settled [] := by
  obtain ⟨b, _, hloose, hget⟩ := addBlock_get? g genus label extra
  obtain ⟨hsock, hplug⟩ := resolved_of_addBlock (by rw [hget, if_pos rfl])
  have hcase : ∀ k a, (g.addBlock genus label extra).1.get? k = some a → a = b ∨ g.get? k = some a := by
    intro k a ha
    rw [hget] at ha
    split at ha
    · exact .inl (Option.some.inj ha).symm
    · exact .inr ha
  constructor
  · intro k a ha
    rcases hcase k a ha with rfl | ha
    · exact ⟨fun s hm _ => hsock s hm, fun p hp _ => hplug p hp⟩
    · exact hs.onlyPoly k a ha
  · intro k a ha hk
    rcases hcase k a ha with rfl | ha
    · exact adaptBlock_of_loose hloose hsock hplug
    · rw [adaptBlock_congr (g := g), hs.fresh k a ha hk]
      -- the new block has an id that no socket names yet
      intro c hc
      obtain ⟨cb, hcb⟩ := contains_iff.mp (contains_of_mem_children h.sound ha hc)
      have hne : c ≠ g.nextId + 1 := fun he => Nat.not_succ_le_self _ (he ▸ h.id_le c cb hcb)
      rw [plugTypeOf, hget, if_neg hne, plugTypeOf]

lemma Settled.createStub (d : BlockId) (genus : Genus) (sockets : List SocketDef) :
    (createStub d genus sockets g).2.Settled [] := by
  have hw := (h.createStub d genus sockets).sound
  rcases createStub_cases g d genus sockets with ⟨e, he⟩ | ⟨b, _, hr⟩
  · rwa [he]
  · rw [hr] at hw ⊢
    refine (Settled.addBlock h hs genus b.label sockets).untouched ?_ hw
    exact Retied.refl.modify (f := fun b => { b with declaringParent := some d }) (fun _ => rfl) (fun _ => rfl) _

lemma Settled.change {f : Block → Block} (hj : ∀ b, (f b).joints = b.joints) (hp : ∀ b, (f b).plug = b.plug)
    (hsock : ∀ b, (f b).sockets = b.sockets) (id : BlockId) : (change id f g).2.Settled [] := by
  have hw := (h.change hj id).sound
  rcases change_cases g id f with ⟨e, he⟩ | ⟨_, hr⟩
  · rwa [he]
  · rw [hr] at hw ⊢
    exact hs.untouched (Retied.refl.modify hp hsock id) hw

lemma Settled.annotate (id : BlockId) (remark : Option Remark) : (g.annotate id remark).Settled [] :=
  hs.untouched (Retied.refl.modify (f := fun b => { b with remark }) (fun _ => rfl) (fun _ => rfl) id)
    (h.annotate id remark).sound

lemma Settled.connect (p : BlockId) (label : String) (c : BlockId) : (connect p label c g).2.Settled [] := by
  have hw := (h.connect p label c).sound
  rcases connect_cases g p label c with ⟨e, he⟩ | ⟨-, -, -, hr⟩
  · rwa [he]
  · rw [hr] at hw ⊢
    rw [sameJoints_adapt.links_eq] at hw
    refine Settled.adapt hw (Settled.retied hs (?_ : Retied [p] g _) hw)
    refine (Retied.refl.retie List.mem_cons_self ?_).modify ?_ ?_ c
    · exact Socket.map_fill (fun _ _ => rfl) label c
    · exact fun _ => rfl
    · exact fun _ => rfl

lemma Settled.setNext (a n : BlockId) : (setNext a n g).2.Settled [] := by
  have hw := (h.setNext a n).sound
  rcases setNext_cases h a n with ⟨e, he⟩ | ⟨-, -, -, hr⟩
  · rwa [he]
  · rw [hr] at hw ⊢
    refine hs.untouched ?_ hw
    have hfirst : Retied [] g ((g.modify a fun b => { b with after := some n }).modify n
        fun b => { b with before := some a }) := by
      refine (Retied.refl.modify ?_ ?_ a).modify ?_ ?_ n
      all_goals exact fun _ => rfl
    cases g.links.after a with
    | none => exact hfirst
    | some o =>
      refine (hfirst.modify ?_ ?_ _).modify ?_ ?_ o
      all_goals exact fun _ => rfl

lemma Settled.disconnect (c : BlockId) : (disconnect c g).2.Settled [] := by
  have hw := (h.disconnect c).sound
  cases hb : g.require c with
  | error e => simpa [BlockGraph.disconnect, hb] using hs
  | ok b =>
    cases hp : b.parent with
    | some p =>
      have hr : (BlockGraph.disconnect c g).2 = BlockGraph.adapt ((g.modify p fun p =>
          { p with sockets := Socket.replace c none p.sockets }).modify c fun b => { b with parent := none }) p := by
        simp [BlockGraph.disconnect, hb, hp]
        rfl
      rw [hr] at hw ⊢
      rw [sameJoints_adapt.links_eq] at hw
      refine Settled.adapt hw (Settled.retied hs (?_ : Retied [p] g _) hw)
      refine (Retied.refl.retie List.mem_cons_self ?_).modify ?_ ?_ c
      · exact Socket.map_replace (fun _ _ => rfl) c none
      · exact fun _ => rfl
      · exact fun _ => rfl
    | none =>
      cases hu : b.before with
      | some a =>
        have hr : (BlockGraph.disconnect c g).2 =
            (g.modify a fun a => { a with after := none }).modify c fun b => { b with before := none } := by
          simp [BlockGraph.disconnect, hb, hp, hu]
          rfl
        rw [hr] at hw ⊢
        refine hs.untouched ?_ hw
        refine (Retied.refl.modify ?_ ?_ a).modify ?_ ?_ c
        all_goals exact fun _ => rfl
      | none =>
        have hr : (BlockGraph.disconnect c g).2 = g := by
          simp [BlockGraph.disconnect, hb, hp, hu]
          rfl
        rwa [hr]

end Edits

section Removal

lemma retied_heal (g : BlockGraph) (id : BlockId) (b : Block) : Retied b.parent.toList g (g.heal id b) := by
  have hfirst : Retied b.parent.toList g (onBelow b.after (fun c => { c with before := none }) g) :=
    Retied.refl.onBelow (f := fun c => { c with before := none }) (fun _ => rfl) (fun _ => rfl) b.after
  cases hp : b.parent with
  | some p =>
    rw [heal_of_parent hp]
    refine ((hp ▸ hfirst).retie List.mem_cons_self ?_).onBelow ?_ ?_ b.after
    · exact Socket.map_replace (fun _ _ => rfl) id b.after
    · exact fun _ => rfl
    · exact fun _ => rfl
  | none =>
    rw [hp] at hfirst
    cases hu : b.before with
    | some a =>
      rw [heal_of_before hp hu]
      refine (hfirst.modify ?_ ?_ a).onBelow ?_ ?_ b.after
      all_goals exact fun _ => rfl
    | none =>
      rw [heal_of_free hp hu]
      exact hfirst

lemma retied_felled : Retied b.parent.toList g (g.felled id b) := by
  refine (retied_heal g id b).trans fun k a ha => ?_
  rw [felled, get?_eraseAll] at ha
  split at ha
  · cases ha
  · exact ⟨a, ha, rfl, rfl, fun _ => rfl⟩

lemma Settled.removeEach (hr : ∀ g id, g.Wired → g.Settled stale → g.size ≤ n → (removeFrom n id g).1.Settled stale)
    (out stubs : List BlockId) (h : g.Wired) (hs : g.Settled stale) (hn : g.size ≤ n) :
    (removeEach n g out stubs).1.Settled stale := by
  induction stubs generalizing g out with
  | nil => exact hs
  | cons stub stubs ih =>
    have hc : Cleared [stub] g _ := removeFrom_cleared h hn
    have hle := size_le_of_contains hc.remains.contains
    exact ih (out ++ (removeFrom n stub g).2) hc.wired (hr g stub h hs hn) (Nat.le_trans hle hn)

/-- The block around a removed one stays stale until the stubs are removed too. -/
lemma Settled.removeFrom (h : g.Wired) (hs : g.Settled stale) (hn : g.size ≤ n) :
    (removeFrom n id g).1.Settled stale := by
  induction n generalizing g id stale with
  | zero => exact hs
  | succ n ih =>
    cases hb : g.get? id with
    | none =>
      simp only [BlockGraph.removeFrom, hb]
      exact hs
    | some b =>
      rw [removeFrom_succ hb]
      have hlt := size_lt_of_contains remains_felled.contains (contains_of_get? hb) (not_contains_felled (b := b))
      have hle : (g.felled id b).size ≤ n := Nat.le_of_lt_succ (Nat.lt_of_lt_of_le hlt hn)
      have hw := h.felled hb
      apply Settled.adaptIfPresent
      · exact (removeEach_cleared (fun g id => removeFrom_cleared) [] _ hw hle).wired.sound
      · exact Settled.removeEach (fun g id => ih) [] _ hw (hs.retied retied_felled hw.sound) hle

lemma Settled.removeBlock (h : g.WellLinked) (hs : g.Settled []) (id : BlockId) :
    (removeBlock id g).2.Settled [] := by
  rcases removeBlock_cases g id with ⟨e, he⟩ | ⟨_, hr⟩
  · rwa [he]
  · rw [hr]
    exact hs.removeFrom h.toWired (Nat.le_refl _)

end Removal

lemma settled_empty : empty.Settled [] := ⟨by simp [get?_empty], by simp [get?_empty]⟩

lemma Settled.run (h : g.WellLinked) (hs : g.Settled []) (e : GraphEdit) : (e.run g).2.Settled [] := by
  have hfault : ∀ {α : Type} {r : Except EditError α × BlockGraph}, r.2.Settled [] →
      (GraphEdit.run.fault r).2.Settled [] := by
    rintro α ⟨_ | _, g⟩ hr
    · exact hr
    · exact hr
  cases e with
  | addBlock genus label extra => exact hs.addBlock h genus label extra
  | createStub d genus sockets => exact hfault (hs.createStub h d genus sockets)
  | connect p label c => exact hfault (hs.connect h p label c)
  | setNext a n => exact hfault (hs.setNext h a n)
  | disconnect c => exact hfault (hs.disconnect h c)
  | removeBlock id => exact hfault (hs.removeBlock h id)
  | annotate id remark => exact hs.annotate h id remark
  | adapt id => exact Settled.adapt h.sound (hs.mono (List.nil_subset _))
  | relabel id label =>
    exact hfault (hs.change h (f := fun b => { b with label }) (fun _ => rfl) (fun _ => rfl) (fun _ => rfl) id)
  | setActive id on =>
    exact hfault (hs.change h (f := fun b => { b with active := on }) (fun _ => rfl) (fun _ => rfl) (fun _ => rfl) id)
  | setBad id on =>
    exact hfault (hs.change h (f := fun b => { b with bad := on }) (fun _ => rfl) (fun _ => rfl) (fun _ => rfl) id)
  | setShouldReport id on =>
    exact hfault (hs.change h (f := fun b => { b with shouldReport := on }) (fun _ => rfl) (fun _ => rfl)
      (fun _ => rfl) id)

lemma settled_edited (h : g.WellLinked) (hs : g.Settled []) (edits : List GraphEdit) :
    (g.edited edits).Settled [] := by
  induction edits generalizing g with
  | nil => exact hs
  | cons e edits ih => exact ih (h.run e) (hs.run h e)

section Agree

variable (h : g.links.Sound) (hs : g.Settled []) (hs' : g'.Settled [])
  (he : ∀ k, (g'.get? k).map Block.untyped = (g.get? k).map Block.untyped)

include h hs hs' he

/-- From the innermost blocks outward the links decide what each connector takes. -/
lemma Settled.get?_eq (k : BlockId) : g'.get? k = g.get? k := by
  induction hd : g.size - h.depth k using Nat.strongRecOn generalizing k with
  | _ n ih =>
    cases hb : g.get? k with
    | none => simpa [hb] using he k
    | some b =>
      obtain ⟨b', hb', hu⟩ : ∃ b', g'.get? k = some b' ∧ b'.untyped = b.untyped := by
        have hk := he k
        rwa [hb, Option.map_some, Option.map_eq_some_iff] at hk
      have htype : ∀ c ∈ b.untyped.children, g'.plugTypeOf c = g.plugTypeOf c := by
        intro c hc
        have hch : c ∈ b.children := by simpa [Block.children, Block.untyped, Socket.untyped, List.filterMap_map] using hc
        have hup := h.depth_up (up_of_mem_children h hb hch)
        have hle := depth_le_size h c
        rw [plugTypeOf, plugTypeOf, ih _ (by omega) c rfl]
      calc g'.get? k = some (g'.adaptBlock b'.untyped) := by
            rw [adaptBlock_untyped (hs'.onlyPoly k b' hb'), hs'.fresh k b' hb' List.not_mem_nil, hb']
        _ = some (g.adaptBlock b.untyped) := by rw [hu, adaptBlock_congr htype]
        _ = some b := by rw [adaptBlock_untyped (hs.onlyPoly k b hb), hs.fresh k b hb List.not_mem_nil]

end Agree

end BlockStudio.BlockGraph
