import BlockStudio.Graph.Remove
import BlockStudio.Proofs.Links.Connect
import BlockStudio.Proofs.Links.Nested

namespace BlockStudio.BlockGraph

variable {g g' : BlockGraph} {a b : Block} {c d id k p u x y : BlockId} {l : List BlockId} {n : ℕ}

def onBelow (below : Option BlockId) (f : Block → Block) (g : BlockGraph) : BlockGraph :=
  match below with
  | some a => g.modify a f
  | none => g

lemma heal_of_parent (hp : b.parent = some p) : g.heal id b =
    onBelow b.after (fun c => { c with parent := some p })
      ((onBelow b.after (fun c => { c with before := none }) g).modify p
        fun c => { c with sockets := Socket.replace id b.after c.sockets }) := by
  simp only [heal, hp]
  rfl

lemma heal_of_before (hp : b.parent = none) (hu : b.before = some u) : g.heal id b =
    onBelow b.after (fun c => { c with before := some u })
      ((onBelow b.after (fun c => { c with before := none }) g).modify u fun c => { c with after := b.after }) := by
  simp only [heal, hp, hu]
  rfl

lemma heal_of_free (hp : b.parent = none) (hu : b.before = none) :
    g.heal id b = onBelow b.after (fun c => { c with before := none }) g := by
  simp only [heal, hp, hu]
  rfl

lemma Relinked.onBelow (h : Relinked g g') {f : Block → Block} (hf : ∀ b, (f b).bare = b.bare)
    (below : Option BlockId) : Relinked g (onBelow below f g') := by
  cases below with
  | none => exact h
  | some a => exact h.modify hf

lemma relinked_heal (g : BlockGraph) (id : BlockId) (b : Block) : Relinked g (g.heal id b) := by
  have hfirst : Relinked g (onBelow b.after (fun c => { c with before := none }) g) :=
    Relinked.refl.onBelow (f := fun c => { c with before := none }) (fun _ => rfl) b.after
  cases hp : b.parent with
  | some p =>
    rw [heal_of_parent hp]
    refine (hfirst.modify ?_).onBelow ?_ b.after
    · exact fun c => by simp [Block.bare, Socket.bare_replace]
    · exact fun _ => rfl
  | none =>
    cases hu : b.before with
    | some a =>
      rw [heal_of_before hp hu]
      refine (hfirst.modify ?_).onBelow ?_ b.after
      · exact fun _ => rfl
      · exact fun _ => rfl
    | none =>
      rw [heal_of_free hp hu]
      exact hfirst

lemma contains_onBelow {below : Option BlockId} {f : Block → Block} :
    (onBelow below f g).contains x = g.contains x := by
  cases below with
  | none => rfl
  | some a => exact contains_modify f

lemma links_onBelow_before {below : Option BlockId} (h : ∀ a, below = some a → g.contains a = true)
    (v : Option BlockId) : (onBelow below (fun c => { c with before := v }) g).links =
      { g.links with before := fun x => if below = some x then v else g.links.before x } := by
  cases below with
  | none => simp [onBelow]
  | some a =>
    rw [onBelow, links_setBefore (h a rfl)]
    simp [Function.update, funext_iff, eq_comm]

lemma links_onBelow_parent {below : Option BlockId} (h : ∀ a, below = some a → g.contains a = true)
    (v : Option BlockId) : (onBelow below (fun c => { c with parent := v }) g).links =
      { g.links with parent := fun x => if below = some x then v else g.links.parent x } := by
  cases below with
  | none => simp [onBelow]
  | some a =>
    rw [onBelow, links_setParent (h a rfl)]
    simp [Function.update, funext_iff, eq_comm]

lemma links_heal_eq (h : g.links.Sound) (hb : g.get? id = some b) : (g.heal id b).links = g.links.bypass id := by
  obtain ⟨_, hpar, hbef, haft⟩ := links_eq_some hb
  have hbelow : ∀ a, b.after = some a → g.contains a = true := fun a ha => contains_after h (haft.trans ha)
  have hfirst := links_onBelow_before hbelow none
  cases hp : b.parent with
  | some p =>
    obtain ⟨i, hi⟩ := (h.held_iff p id).mpr (hpar.trans hp)
    rw [heal_of_parent hp, links_onBelow_parent, links_replace, hfirst, Links.bypass_of_parent h (hpar.trans hp), haft]
    · rw [contains_onBelow, contains_of_holds hi]
    · intro a ha
      rw [contains_modify, contains_onBelow, hbelow a ha]
  | none =>
    cases hu : b.before with
    | some u =>
      have huc := contains_of_after ((h.after_iff u id).mpr (hbef.trans hu))
      rw [heal_of_before hp hu, links_onBelow_before, links_setAfter, hfirst,
        Links.bypass_of_before h (hbef.trans hu), haft]
      · simp only [Links.mk.injEq, true_and, and_true]
        funext x
        split
        · rfl
        · rfl
      · rw [contains_onBelow, huc]
      · intro a ha
        rw [contains_modify, contains_onBelow, hbelow a ha]
    | none => rw [heal_of_free hp hu, hfirst, Links.bypass_of_free h (hpar.trans hp) (hbef.trans hu), haft]

lemma links_heal (h : g.links.Sound) (hb : g.get? id = some b) :
    (g.heal id b).links.slots = (g.links.splice id).slots ∧
      ∀ x, x ≠ id → (g.heal id b).links.parent x = (g.links.splice id).parent x ∧
        (g.heal id b).links.before x = (g.links.splice id).before x ∧
        (g.heal id b).links.after x = (g.links.splice id).after x := by
  rw [links_heal_eq h hb]
  refine ⟨rfl, fun x hx => ?_⟩
  simp [Links.bypass, Links.splice, hx]

lemma contains_heal : (g.heal id b).contains x = g.contains x := (relinked_heal g id b).contains_eq

section Heal

variable (h : g.links.Sound) (hb : g.get? id = some b)

include h hb

lemma contains_of_splice_before (hx : (g.links.splice id).before x = some y) : (g.heal id b).contains x = true := by
  have hne : x ≠ id := by
    rintro rfl
    simp [Links.splice] at hx
  exact contains_of_before (((links_heal h hb).2 x hne).2.1.trans hx)

lemma contains_splice_up (hx : (g.links.splice id).up x = some y) : (g.heal id b).contains y = true := by
  have hs := Links.splice_sound (d := id) h
  rcases Links.up_eq_some.mp hx with hu | ⟨_, hp⟩
  · have ha := (hs.after_iff y x).mpr hu
    have hne : y ≠ id := by
      rintro rfl
      simp [Links.splice] at ha
    exact contains_of_after (((links_heal h hb).2 y hne).2.2.trans ha)
  · obtain ⟨i, hi⟩ := (hs.held_iff y x).mpr hp
    rw [Links.Holds, ← (links_heal h hb).1] at hi
    exact contains_of_holds hi

lemma splice_after_ends (x : BlockId) : ∃ l, Chain (g.links.splice id).after x l := by
  have hs := Links.splice_sound (d := id) h
  obtain ⟨u, hu⟩ := hs.up_ends x
  exact hu.reverse (fun a b => hs.up_of_after) (g.heal id b).size fun a m hm =>
    length_le_size (fun x y => contains_splice_up h hb) hm

lemma stack_heal (hc : c ≠ id) (hl : Chain (g.links.splice id).after c l) : (g.heal id b).stack c = c :: l := by
  have hs := Links.splice_sound (d := id) h
  have hne : ∀ y ∈ c :: l, y ≠ id := by
    intro y hy he
    rcases List.mem_cons.mp hy with rfl | hy
    · exact hc he
    · obtain ⟨z, _, hz⟩ := hl.exists_prev hy
      have hb := (hs.after_iff z y).mp hz
      simp [Links.splice, he] at hb
  have hlen : l.length ≤ (g.heal id b).size := length_le_size
    (fun x y hy => contains_of_splice_before h hb ((hs.after_iff x y).mp hy)) hl
  exact stackFrom_eq (hl.congr fun y hy => ((links_heal h hb).2 y (hne y hy)).2.2) (Nat.lt_succ_of_le hlen) (by simp)

lemma mem_inner_heal : x ∈ (g.heal id b).inner p ↔
    ∃ c l, (g.links.splice id).parent c = some p ∧ Chain (g.links.splice id).after c l ∧ x ∈ c :: l := by
  have hs := Links.splice_sound (d := id) h
  have hheld : ∀ c, some c ∈ (g.heal id b).links.slots p ↔ (g.links.splice id).parent c = some p := by
    intro c
    rw [(links_heal h hb).1, Links.Sound.mem_slots, hs.held_iff]
  have hne : ∀ c, (g.links.splice id).parent c = some p → c ≠ id := by
    rintro c hc rfl
    simp [Links.splice] at hc
  simp only [inner, List.mem_flatMap, List.mem_filterMap, exists_eq_right, hheld]
  constructor
  · rintro ⟨c, hc, hx⟩
    obtain ⟨l, hl⟩ := splice_after_ends h hb c
    exact ⟨c, l, hc, hl, stack_heal h hb (hne c hc) hl ▸ hx⟩
  · rintro ⟨c, l, hc, hl, hx⟩
    exact ⟨c, hc, stack_heal h hb (hne c hc) hl ▸ hx⟩

lemma inner_heal_subset (hp : p ∈ (g.heal id b).nested id) : (g.heal id b).inner p ⊆ (g.heal id b).nested id := by
  have hs := Links.splice_sound (d := id) h
  have hr : ∀ p x, x ∈ (g.heal id b).inner p → hs.depth p < hs.depth x := by
    intro p x hx
    obtain ⟨c, l, hc, hl, hx⟩ := (mem_inner_heal h hb).mp hx
    have hd := hs.depth_up (hs.up_of_parent hc)
    have hle := hs.depth_le_of_mem_after hl hx
    omega
  have hN : ∀ x, hs.depth x ≤ (g.heal id b).size := by
    intro x
    obtain ⟨u, hu⟩ := hs.up_ends x
    rw [hs.depth_eq hu]
    exact length_le_size (fun x y => contains_splice_up h hb) hu
  exact inner_subset_nested hr hN hp

lemma mem_nested_heal_of_after (ha : (g.links.splice id).after y = some x) :
    x ∈ (g.heal id b).nested id ↔ y ∈ (g.heal id b).nested id := by
  have hs := Links.splice_sound (d := id) h
  have hu := (hs.after_iff y x).mp ha
  constructor
  · intro hm
    have hxid : x ≠ id := by
      rintro rfl
      simp [Links.splice] at hu
    obtain ⟨p, hpm, hin⟩ := (origin_nested hm).resolve_left hxid
    obtain ⟨c, l, hc, hl, hxl⟩ := (mem_inner_heal h hb).mp hin
    rcases List.mem_cons.mp hxl with rfl | hxl
    · simp [hs.before_of_parent hc] at hu
    · obtain ⟨z, hz, hzx⟩ := hl.exists_prev hxl
      obtain rfl := hs.after_inj ha hzx
      exact inner_heal_subset h hb hpm ((mem_inner_heal h hb).mpr ⟨c, l, hc, hl, hz⟩)
  · intro hm
    have hyid : y ≠ id := by
      rintro rfl
      simp [Links.splice] at ha
    obtain ⟨p, hpm, hin⟩ := (origin_nested hm).resolve_left hyid
    obtain ⟨c, l, hc, hl, hyl⟩ := (mem_inner_heal h hb).mp hin
    have hxl := List.mem_cons_of_mem c (hl.next_mem hyl ha)
    exact inner_heal_subset h hb hpm ((mem_inner_heal h hb).mpr ⟨c, l, hc, hl, hxl⟩)

lemma mem_nested_heal_of_parent (hp : (g.links.splice id).parent x = some y) :
    x ∈ (g.heal id b).nested id ↔ y ∈ (g.heal id b).nested id := by
  have hs := Links.splice_sound (d := id) h
  have hu := hs.before_of_parent hp
  constructor
  · intro hm
    have hxid : x ≠ id := by
      rintro rfl
      simp [Links.splice] at hp
    obtain ⟨p, hpm, hin⟩ := (origin_nested hm).resolve_left hxid
    obtain ⟨c, l, hc, hl, hxl⟩ := (mem_inner_heal h hb).mp hin
    rcases List.mem_cons.mp hxl with rfl | hxl
    · obtain rfl := Option.some.inj (hp.symm.trans hc)
      exact hpm
    · obtain ⟨z, _, hzx⟩ := hl.exists_prev hxl
      simp [(hs.after_iff z x).mp hzx] at hu
  · intro hm
    obtain ⟨l, hl⟩ := splice_after_ends h hb x
    exact inner_heal_subset h hb hm ((mem_inner_heal h hb).mpr ⟨x, l, hp, hl, List.mem_cons_self⟩)

lemma closed_nested_heal : (g.links.splice id).Closed ((g.heal id b).nested id) := by
  intro x y hx
  rcases Links.up_eq_some.mp hx with hu | ⟨_, hp⟩
  · exact mem_nested_heal_of_after h hb (((Links.splice_sound h).after_iff y x).mpr hu)
  · exact mem_nested_heal_of_parent h hb hp

end Heal

lemma get?_eraseAll (g : BlockGraph) (ids : List BlockId) (x : BlockId) :
    (g.eraseAll ids).get? x = if x ∈ ids then none else g.get? x := by
  induction ids generalizing g with
  | nil => rfl
  | cons id ids ih =>
    rw [eraseAll, List.foldl_cons, ← eraseAll, ih, get?_erase]
    grind

lemma nextId_eraseAll (g : BlockGraph) (ids : List BlockId) : (g.eraseAll ids).nextId = g.nextId := by
  induction ids generalizing g with
  | nil => rfl
  | cons id ids ih => exact ih (g.erase id)

lemma links_eraseAll (g : BlockGraph) (ids : List BlockId) : (g.eraseAll ids).links = g.links.drop ids := by
  apply Links.ext_slots
  all_goals
    intro x
    by_cases hx : x ∈ ids
    · simp [links, Links.drop, get?_eraseAll, hx]
    · simp [links, Links.drop, get?_eraseAll, hx]

def felled (g : BlockGraph) (id : BlockId) (b : Block) : BlockGraph :=
  (g.heal id b).eraseAll ((g.heal id b).nested id)

lemma links_felled (h : g.links.Sound) (hb : g.get? id = some b) :
    (g.felled id b).links = (g.links.splice id).drop ((g.heal id b).nested id) := by
  have hid := mem_nested_self (g.heal id b) id
  obtain ⟨hs, hrest⟩ := links_heal h hb
  rw [felled, links_eraseAll]
  apply Links.ext_slots
  · intro x
    simp only [Links.drop, hs]
  all_goals
    intro x
    simp only [Links.drop]
    split
    · rfl
    · rename_i hx
      obtain ⟨hp, hu, ha⟩ := hrest x fun he => hx (he ▸ hid)
      first | exact hp | exact hu | exact ha

lemma remains_felled : Remains g (g.felled id b) := by
  refine (Remains.of_relinked (relinked_heal g id b)).trans ⟨nextId_eraseAll _ _, fun k a ha => ⟨a, ?_, rfl, rfl⟩⟩
  rw [felled, get?_eraseAll] at ha
  split at ha
  · cases ha
  · exact ha

lemma contains_felled : (g.felled id b).contains x = true ↔ g.contains x = true ∧ x ∉ (g.heal id b).nested id := by
  have hc : (g.heal id b).contains x = g.contains x := contains_heal
  rw [contains_eq_isSome, felled, get?_eraseAll, ← hc, contains_eq_isSome]
  split <;> simp [*]

lemma Wired.felled (h : g.Wired) (hb : g.get? id = some b) : (g.felled id b).Wired := by
  apply h.remains remains_felled
  rw [links_felled h.sound hb]
  exact Links.drop_sound (Links.splice_sound h.sound) (closed_nested_heal h.sound hb)

lemma mem_orphansOf (h : g.Wired) {ids : List BlockId} (hb : g.get? k = some b) (hd : b.declaringParent = some d)
    (hm : d ∈ ids) : k ∈ g.orphansOf ids := by
  refine List.mem_map.mpr ⟨b, List.mem_filter.mpr ⟨mem_list.mpr ⟨k, hb⟩, ?_⟩, h.own_id k b hb⟩
  simp [hd, hm]

def StubsGone (g g' : BlockGraph) : Prop :=
  ∀ d, g.contains d = true → g'.contains d = false → ∀ k b, g'.get? k = some b → b.declaringParent ≠ some d

lemma StubsGone.trans {g'' : BlockGraph} (h : StubsGone g g') (h' : StubsGone g' g'') (hr : Remains g' g'') :
    StubsGone g g'' := by
  intro d hd hd'' k b hb hbd
  cases hd' : g'.contains d with
  | true => exact h' d hd' hd'' k b hb hbd
  | false =>
    obtain ⟨a, ha, hdp⟩ := hr.declaringParent hb
    exact h d hd hd' k a ha (hdp.trans hbd)

structure Cleared (ids : List BlockId) (g g' : BlockGraph) : Prop where
  wired : g'.Wired
  remains : Remains g g'
  stubsGone : StubsGone g g'
  gone : ∀ x ∈ ids, g'.contains x = false

namespace Cleared

variable {ids ids' : List BlockId}

lemma refl (h : g.Wired) (hn : ∀ x ∈ ids, g.contains x = false) : Cleared ids g g where
  wired := h
  remains := .refl
  stubsGone d hd hd' := absurd hd (by simp [hd'])
  gone := hn

lemma trans {g'' : BlockGraph} (h : Cleared ids g g') (h' : Cleared ids' g' g'') :
    Cleared (ids ++ ids') g g'' where
  wired := h'.wired
  remains := h.remains.trans h'.remains
  stubsGone := h.stubsGone.trans h'.stubsGone h'.remains
  gone x hx := by
    rcases List.mem_append.mp hx with hx | hx
    · exact h'.remains.gone (h.gone x hx)
    · exact h'.gone x hx

lemma adapt (h : Cleared ids g g') (p : BlockId) : Cleared ids g (g'.adapt p) where
  wired := by
    apply h.wired.remains (.of_relinked relinked_adapt)
    rw [sameJoints_adapt.links_eq]
    exact h.wired.sound
  remains := h.remains.trans (.of_relinked relinked_adapt)
  stubsGone d hd hd' k b hb := by
    obtain ⟨a, ha, hdp⟩ := (Remains.of_relinked relinked_adapt).declaringParent hb
    exact fun hbd => h.stubsGone d hd (relinked_adapt.contains_eq.symm.trans hd') k a ha (hdp.trans hbd)
  gone x hx := relinked_adapt.contains_eq.trans (h.gone x hx)

lemma adaptIfPresent (h : Cleared ids g g') (p : Option BlockId) : Cleared ids g (g'.adaptIfPresent p) := by
  cases p with
  | none => exact h
  | some p =>
    rw [BlockGraph.adaptIfPresent]
    split
    · exact h.adapt p
    · exact h

end Cleared

def removeEach (n : ℕ) (g : BlockGraph) (out stubs : List BlockId) : BlockGraph × List BlockId :=
  stubs.foldl (fun acc stub => let r := removeFrom n stub acc.1; (r.1, acc.2 ++ r.2)) (g, out)

lemma removeFrom_succ (hb : g.get? id = some b) :
    (removeFrom (n + 1) id g).1 =
      (removeEach n (g.felled id b) [] ((g.felled id b).orphansOf ((g.heal id b).nested id))).1.adaptIfPresent
        b.parent := by
  simp only [removeFrom, hb]
  rfl

lemma removeEach_cleared (hr : ∀ g id, g.Wired → g.size ≤ n → Cleared [id] g (removeFrom n id g).1)
    (out stubs : List BlockId) (h : g.Wired) (hn : g.size ≤ n) : Cleared stubs g (removeEach n g out stubs).1 := by
  induction stubs generalizing g out with
  | nil => exact .refl h (by simp)
  | cons stub stubs ih =>
    have hc := hr g stub h hn
    have hle := size_le_of_contains hc.remains.contains
    exact hc.trans (ih (out ++ (removeFrom n stub g).2) hc.wired (Nat.le_trans hle hn))

lemma not_contains_felled : (g.felled id b).contains id = false := by
  rw [← Bool.not_eq_true, contains_felled]
  exact fun hc => hc.2 (mem_nested_self (g.heal id b) id)

lemma Cleared.of_felled (h : g.Wired) (hb : g.get? id = some b)
    (hc : Cleared ((g.felled id b).orphansOf ((g.heal id b).nested id)) (g.felled id b) g') : Cleared [id] g g' where
  wired := hc.wired
  remains := remains_felled.trans hc.remains
  stubsGone d hd hd' k a ha had := by
    cases hdf : (g.felled id b).contains d with
    | true => exact hc.stubsGone d hdf hd' k a ha had
    | false =>
      have hdn : d ∈ (g.heal id b).nested id := by
        by_contra hdn
        simp [contains_felled.mpr ⟨hd, hdn⟩] at hdf
      obtain ⟨a', ha', hdp⟩ := hc.remains.declaringParent ha
      have hgone := hc.gone k (mem_orphansOf (h.felled hb) ha' (hdp.trans had) hdn)
      simp [contains_of_get? ha] at hgone
  gone x hx := by
    obtain rfl := List.mem_singleton.mp hx
    exact hc.remains.gone not_contains_felled

lemma removeFrom_cleared (h : g.Wired) (hn : g.size ≤ n) : Cleared [id] g (removeFrom n id g).1 := by
  induction n generalizing g id with
  | zero =>
    apply Cleared.refl h
    intro x _
    cases hx : g.contains x with
    | false => rfl
    | true =>
      have hlt : empty.size < g.size := size_lt_of_contains (fun k hk => nomatch hk) hx rfl
      omega
  | succ n ih =>
    cases hb : g.get? id with
    | none =>
      simp only [removeFrom, hb]
      apply Cleared.refl h
      intro x hx
      obtain rfl := List.mem_singleton.mp hx
      rw [contains_eq_isSome, hb, Option.isSome_none]
    | some b =>
      rw [removeFrom_succ hb]
      have hlt := size_lt_of_contains remains_felled.contains (contains_of_get? hb) (not_contains_felled (b := b))
      have hle : (g.felled id b).size ≤ n := Nat.le_of_lt_succ (Nat.lt_of_lt_of_le hlt hn)
      apply Cleared.adaptIfPresent
      apply Cleared.of_felled h hb
      exact removeEach_cleared (fun g id => ih) [] _ (h.felled hb) hle

lemma removeBlock_cases (g : BlockGraph) (id : BlockId) :
    (∃ e, removeBlock id g = (.error e, g)) ∨
      g.contains id = true ∧
        removeBlock id g = (.ok (removeFrom g.size id g).2, (removeFrom g.size id g).1) := by
  cases hr : g.require id with
  | error e => exact .inl ⟨e, by simp [removeBlock, hr]⟩
  | ok b => exact .inr ⟨contains_of_get? (require_eq_ok.mp hr), by simp [removeBlock, hr]; rfl⟩

lemma WellLinked.removeBlock (h : g.WellLinked) (id : BlockId) : (removeBlock id g).2.WellLinked := by
  rcases removeBlock_cases g id with ⟨e, he⟩ | ⟨_, hr⟩
  · rwa [he]
  · rw [hr]
    have hc : Cleared [id] g (removeFrom g.size id g).1 := removeFrom_cleared h.toWired (Nat.le_refl g.size)
    refine ⟨hc.wired, fun k b d hb hd => ?_⟩
    obtain ⟨a, ha, hdp⟩ := hc.remains.declaringParent hb
    by_contra hn
    exact hc.stubsGone d (h.declared k a d ha (hdp.trans hd)) ((Bool.not_eq_true _).mp hn) k b hb hd

end BlockStudio.BlockGraph
