import BlockStudio.Proofs.Links.Pruned
import BlockStudio.Proofs.Links.Runs
import Mathlib.Logic.Relation

/-! Removing a block removes exactly what it takes along, and heals every stack around the gaps. -/

namespace BlockStudio.BlockGraph

variable {g g' g'' : BlockGraph} {b : Block} {d id k p x y : BlockId} {n : ℕ} {ids ids' out out' stubs : List BlockId}

def TakesAlong (g : BlockGraph) (p y : BlockId) : Prop :=
  y ∈ g.inner p ∨ ∃ b, g.get? y = some b ∧ b.declaringParent = some p

def Cascade (g : BlockGraph) (id x : BlockId) : Prop := Relation.ReflTransGen g.TakesAlong id x

lemma Pruned.declaringParent (h : Pruned out g g') (hb : g'.get? k = some b) :
    ∃ a, g.get? k = some a ∧ a.declaringParent = b.declaringParent := by
  obtain ⟨a, ha, he⟩ := h.bare k b hb
  have hd : b.bare.declaringParent = a.bare.declaringParent := by rw [he]
  exact ⟨a, ha, hd.symm⟩

lemma Cascade.mono (h : Pruned out g g') (hc : g'.Cascade x y) : g.Cascade x y := by
  induction hc with
  | refl => exact .refl
  | tail _ ht ih =>
    apply ih.tail
    rcases ht with hin | ⟨b, hb, hd⟩
    · exact .inl (h.inner_subset hin)
    · obtain ⟨a, ha, he⟩ := h.declaringParent hb
      exact .inr ⟨a, ha, he.trans hd⟩

lemma Cascade.survives (h : Pruned out g g') (hclosed : ∀ p ∈ out, ∀ y, g.TakesAlong p y → y ∈ out)
    (hc : g.Cascade x y) (hy : y ∉ out) : x ∉ out ∧ g'.Cascade x y := by
  induction hc with
  | refl => exact ⟨hy, .refl⟩
  | @tail p y _ ht ih =>
    have hp : p ∉ out := fun hin => hy (hclosed p hin y ht)
    obtain ⟨hx, hc⟩ := ih hp
    refine ⟨hx, hc.tail ?_⟩
    rcases ht with hin | ⟨b, hb, hd⟩
    · have hp' : g'.contains p = true := (h.contains_iff p).mpr ⟨contains_of_mem_inner hin, hp⟩
      exact .inl ((h.mem_inner hp').mpr ⟨hin, hy⟩)
    · obtain ⟨b', hb'⟩ := contains_iff.mp ((h.contains_iff y).mpr ⟨contains_of_get? hb, hy⟩)
      obtain ⟨a, ha, he⟩ := h.declaringParent hb'
      obtain rfl := Option.some.inj (ha.symm.trans hb)
      exact .inr ⟨b', hb', he.symm.trans hd⟩

section Heal

variable (h : g.Wired) (hb : g.get? id = some b)

include h hb

lemma mem_inner_heal_iff : y ∈ (g.heal id b).inner p ↔ y ∈ g.inner p ∧ y ≠ id := by
  have hs := Links.splice_sound (d := id) h.sound
  rw [mem_inner_heal h.sound hb, inner_eq_flatten]
  constructor
  · rintro ⟨c, l, hc, hl, hy⟩
    obtain ⟨i, hi⟩ := (hs.held_iff p c).mpr hc
    obtain ⟨s, hm, hp⟩ := List.mem_map.mp (Links.Sound.mem_slots.mpr ⟨i, hi⟩)
    obtain ⟨m, hr⟩ := exists_run h.sound s
    have hr' : Run (g.links.splice id).after (some c) (m.filter (· ≠ id)) := hp ▸ Links.run_splice h.sound hr
    obtain ⟨l', hl', hc'⟩ := hr'.chain c rfl
    obtain rfl := hc'.unique hl
    have hym : y ∈ m.filter (· ≠ id) := hl' ▸ hy
    obtain ⟨hym, hne⟩ := List.mem_filter.mp hym
    refine ⟨List.mem_flatten.mpr ⟨_, List.mem_map_of_mem hm, ?_⟩, of_decide_eq_true hne⟩
    rwa [stackAt_eq h.sound hr]
  · rintro ⟨hy, hne⟩
    obtain ⟨_, hl, hy⟩ := List.mem_flatten.mp hy
    obtain ⟨s, hm, rfl⟩ := List.mem_map.mp hl
    obtain ⟨m, hr⟩ := exists_run h.sound s
    rw [stackAt_eq h.sound hr] at hy
    have hr' := Links.run_splice (d := id) h.sound hr
    have hym : y ∈ m.filter (· ≠ id) := List.mem_filter.mpr ⟨hy, decide_eq_true hne⟩
    cases hp : g.links.past id s with
    | none =>
      rw [hp] at hr'
      rw [hr'.eq_nil] at hym
      cases hym
    | some c =>
      rw [hp] at hr'
      obtain ⟨l, hl, hc⟩ := hr'.chain c rfl
      have hslot : some c ∈ (g.links.splice id).slots p := hp ▸ List.mem_map_of_mem hm
      obtain ⟨i, hi⟩ := Links.Sound.mem_slots.mp hslot
      exact ⟨c, l, hs.parent_of_holds hi, hc, hl ▸ hym⟩

lemma cascade_of_mem_nested (hx : x ∈ (g.heal id b).nested id) : g.Cascade id x := by
  have hs := Links.splice_sound (d := id) h.sound
  induction hd : hs.depth x using Nat.strongRecOn generalizing x with
  | _ n ih =>
    rcases origin_nested hx with rfl | ⟨p, hp, hin⟩
    · exact .refl
    · obtain ⟨c, l, hc, hl, hxl⟩ := (mem_inner_heal h.sound hb).mp hin
      have hup := hs.depth_up (hs.up_of_parent hc)
      have hle := hs.depth_le_of_mem_after hl hxl
      exact (ih (hs.depth p) (by omega) hp rfl).tail (.inl ((mem_inner_heal_iff h hb).mp hin).1)

lemma inner_subset_nested_heal (hp : p ∈ (g.heal id b).nested id) : g.inner p ⊆ (g.heal id b).nested id := by
  intro y hy
  by_cases hne : y = id
  · rw [hne]
    exact mem_nested_self _ id
  · exact inner_heal_subset h.sound hb hp ((mem_inner_heal_iff h hb).mpr ⟨hy, hne⟩)

end Heal

structure Uprooted (ids out : List BlockId) (g g' : BlockGraph) : Prop extends Pruned out g g' where
  origin : ∀ x ∈ out, ∃ i ∈ ids, g.Cascade i x
  inner_gone : ∀ p ∈ out, g.inner p ⊆ out

namespace Uprooted

lemma refl (h : g.Wired) : Uprooted ids [] g g where
  toPruned := .of_links_eq h .refl rfl
  origin := by simp
  inner_gone := by simp

lemma trans (h : Uprooted ids out g g') (h' : Uprooted ids' out' g' g'') :
    Uprooted (ids ++ ids') (out ++ out') g g'' where
  toPruned := h.toPruned.trans h'.toPruned
  origin x hx := by
    rcases List.mem_append.mp hx with hx | hx
    · obtain ⟨i, hi, hc⟩ := h.origin x hx
      exact ⟨i, List.mem_append_left ids' hi, hc⟩
    · obtain ⟨i, hi, hc⟩ := h'.origin x hx
      exact ⟨i, List.mem_append_right ids hi, hc.mono h.toPruned⟩
  inner_gone p hp y hy := by
    rcases List.mem_append.mp hp with hp | hp
    · exact List.mem_append_left out' (h.inner_gone p hp hy)
    · by_cases hyo : y ∈ out
      · exact List.mem_append_left out' hyo
      · exact List.mem_append_right out (h'.inner_gone p hp ((h.mem_inner (h'.present p hp)).mpr ⟨hy, hyo⟩))

lemma adaptIfPresent (h : Uprooted ids out g g') (hw : g'.Wired) (p : Option BlockId) :
    Uprooted ids out g (g'.adaptIfPresent p) := by
  have hadapt : ∀ p, Uprooted ids out g (g'.adapt p) := by
    intro p
    have hnone : Uprooted [] [] g' (g'.adapt p) :=
      ⟨.of_links_eq hw relinked_adapt sameJoints_adapt.links_eq, by simp, by simp⟩
    simpa using h.trans hnone
  cases p with
  | none => exact h
  | some p =>
    rw [BlockGraph.adaptIfPresent]
    split
    · exact hadapt p
    · exact h

end Uprooted

lemma uprooted_felled (h : g.Wired) (hb : g.get? id = some b) :
    Uprooted [id] ((g.heal id b).nested id) g (g.felled id b) where
  toPruned := pruned_felled h hb
  origin _ hx := ⟨id, List.mem_singleton_self id, cascade_of_mem_nested h hb hx⟩
  inner_gone _ hp := inner_subset_nested_heal h hb hp

lemma exists_of_mem_orphansOf (h : g.Wired) (hk : k ∈ g.orphansOf ids) :
    ∃ b d, g.get? k = some b ∧ b.declaringParent = some d ∧ d ∈ ids := by
  obtain ⟨b, hm, rfl⟩ := List.mem_map.mp hk
  obtain ⟨hb, hd⟩ := List.mem_filter.mp hm
  obtain ⟨k, hk⟩ := mem_list.mp hb
  rw [h.own_id k b hk]
  cases hp : b.declaringParent with
  | none => simp [hp] at hd
  | some d => exact ⟨b, d, hk, hp, by simpa [hp] using hd⟩

lemma removeEach_snd (n : ℕ) (g : BlockGraph) (out stubs : List BlockId) :
    removeEach n g out stubs = ((removeEach n g [] stubs).1, out ++ (removeEach n g [] stubs).2) := by
  induction stubs generalizing g out with
  | nil => simp [removeEach]
  | cons stub stubs ih =>
    have hstep : ∀ out, removeEach n g out (stub :: stubs) =
        removeEach n (removeFrom n stub g).1 (out ++ (removeFrom n stub g).2) stubs := fun _ => rfl
    rw [hstep, hstep, ih, ih _ ([] ++ _)]
    simp

lemma removeFrom_snd (hb : g.get? id = some b) : (removeFrom (n + 1) id g).2 =
    (g.heal id b).nested id ++
      (removeEach n (g.felled id b) [] ((g.felled id b).orphansOf ((g.heal id b).nested id))).2 := by
  simp only [removeFrom, hb]
  rfl

lemma removeEach_uproots (hr : ∀ g id, g.Wired → g.size ≤ n → Uprooted [id] (removeFrom n id g).2 g (removeFrom n id g).1)
    (stubs : List BlockId) (h : g.Wired) (hn : g.size ≤ n) :
    Uprooted stubs (removeEach n g [] stubs).2 g (removeEach n g [] stubs).1 := by
  induction stubs generalizing g with
  | nil => exact .refl h
  | cons stub stubs ih =>
    have hc : Cleared [stub] g _ := removeFrom_cleared h hn
    have hle := size_le_of_contains hc.remains.contains
    have hstep : removeEach n g [] (stub :: stubs) = removeEach n (removeFrom n stub g).1 (removeFrom n stub g).2 stubs :=
      rfl
    rw [hstep, removeEach_snd]
    exact (hr g stub h hn).trans (ih hc.wired (Nat.le_trans hle hn))

lemma Uprooted.of_felled (h : g.Wired) (hb : g.get? id = some b)
    (hu : Uprooted ((g.felled id b).orphansOf ((g.heal id b).nested id)) out (g.felled id b) g') :
    Uprooted [id] ((g.heal id b).nested id ++ out) g g' := by
  have hboth := (uprooted_felled h hb).trans hu
  refine ⟨hboth.toPruned, fun x hx => ⟨id, List.mem_singleton_self id, ?_⟩, hboth.inner_gone⟩
  obtain ⟨i, hi, hc⟩ := hboth.origin x hx
  rcases List.mem_cons.mp hi with rfl | hi
  · exact hc
  · obtain ⟨a, d, ha, hd, hm⟩ := exists_of_mem_orphansOf (h.felled hb) hi
    obtain ⟨a', ha', he⟩ := (pruned_felled h hb).declaringParent ha
    exact ((cascade_of_mem_nested h hb hm).tail (.inr ⟨a', ha', he.trans hd⟩)).trans hc

lemma removeFrom_uproots (h : g.Wired) (hn : g.size ≤ n) :
    Uprooted [id] (removeFrom n id g).2 g (removeFrom n id g).1 := by
  induction n generalizing g id with
  | zero => exact .refl h
  | succ n ih =>
    cases hb : g.get? id with
    | none =>
      simp only [removeFrom, hb]
      exact .refl h
    | some b =>
      have hlt := size_lt_of_contains remains_felled.contains (contains_of_get? hb) (not_contains_felled (b := b))
      have hle : (g.felled id b).size ≤ n := Nat.le_of_lt_succ (Nat.lt_of_lt_of_le hlt hn)
      have hw := (removeEach_cleared (fun g id => removeFrom_cleared) []
        ((g.felled id b).orphansOf ((g.heal id b).nested id)) (h.felled hb) hle).wired
      rw [removeFrom_succ hb, removeFrom_snd hb]
      refine Uprooted.adaptIfPresent ?_ hw b.parent
      apply Uprooted.of_felled h hb
      exact removeEach_uproots (fun g id => ih) _ (h.felled hb) hle

lemma mem_removeFrom_iff (h : g.Wired) (hid : g.contains id = true) (hn : g.size ≤ n) :
    x ∈ (removeFrom n id g).2 ↔ g.Cascade id x := by
  have hu : Uprooted [id] _ g _ := removeFrom_uproots h hn
  have hc : Cleared [id] g _ := removeFrom_cleared h hn
  constructor
  · intro hx
    obtain ⟨i, hi, hix⟩ := hu.origin x hx
    exact List.mem_singleton.mp hi ▸ hix
  · -- a block that stays is neither the removed one nor held by or derived from one that goes
    have hstay : ∀ y, g.contains y = true → y ∉ (removeFrom n id g).2 → (removeFrom n id g).1.contains y = true :=
      fun y hy hm => (hu.contains_iff y).mpr ⟨hy, hm⟩
    intro hx
    induction hx with
    | refl =>
      by_contra hm
      simpa [hc.gone id] using hstay id hid hm
    | @tail p y _ ht ihp =>
      rcases ht with hin | ⟨b, hb, hd⟩
      · exact hu.inner_gone p ihp hin
      · by_contra hm
        obtain ⟨b', hb'⟩ := contains_iff.mp (hstay y (contains_of_get? hb) hm)
        obtain ⟨a, ha, he⟩ := hu.declaringParent hb'
        obtain rfl := Option.some.inj (ha.symm.trans hb)
        have hp' : (removeFrom n id g).1.contains p = false := by
          rw [← Bool.not_eq_true, hu.contains_iff]
          exact fun hp => hp.2 ihp
        exact hc.stubsGone p (hu.present p ihp) hp' y b' hb' (he.symm.trans hd)

theorem removeBlock_takes_cascade (h : g.WellLinked) (hid : g.contains id = true) :
    ∃ removed g', removeBlock id g = (.ok removed, g') ∧ (∀ x, x ∈ removed ↔ g.Cascade id x) ∧
      Pruned removed g g' := by
  obtain ⟨b, hb⟩ := contains_iff.mp hid
  refine ⟨(removeFrom g.size id g).2, (removeFrom g.size id g).1, ?_, ?_, ?_⟩
  · rw [removeBlock, Edit.get_bind, require_eq_ok.mpr hb, Edit.lift_ok_bind]
    rfl
  · exact fun x => mem_removeFrom_iff h.toWired hid (Nat.le_refl _)
  · exact (removeFrom_uproots h.toWired (Nat.le_refl _)).toPruned

def bracket : Genus where
  name := "bracket"
  kind := .branch
  sockets := [{ label := "do", kind := .typed valueType, command := true }]
  command := true

/-- Block 2 is derived from block 1 and holds it, with block 3 below it and block 5 in it. -/
def heldByStub : BlockGraph :=
  empty.edited [.addBlock bracket "" [], .createStub 1 bracket [], .addBlock bracket "" [], .addBlock bracket "" [],
    .addBlock bracket "" [], .connect 2 "do" 1, .setNext 1 3, .setNext 2 4, .connect 1 "do" 5]

theorem removeBlock_takes_cascade_heldByStub : ∃ g', removeBlock 1 heldByStub = (.ok [1, 5, 2, 3], g') ∧
    (∀ x, x ∈ [1, 5, 2, 3] ↔ heldByStub.Cascade 1 x) ∧ g'.rootStacks = [[4]] := by
  have hin : heldByStub.contains 1 = true := by decide
  obtain ⟨removed, g', hr, hmem, -⟩ := removeBlock_takes_cascade (wellLinked_edited empty_wellLinked _) hin
  have hrun : removeBlock 1 heldByStub = (.ok [1, 5, 2, 3], (removeBlock 1 heldByStub).2) := by rfl
  obtain ⟨hout, hleft⟩ := Prod.mk.inj (hr.symm.trans hrun)
  obtain rfl := Except.ok.inj hout
  exact ⟨g', hr, hmem, hleft ▸ rfl⟩

end BlockStudio.BlockGraph
