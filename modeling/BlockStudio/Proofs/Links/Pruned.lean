import BlockStudio.Proofs.Links.Clump
import BlockStudio.Proofs.Links.Removal

/-! Graphs from which blocks have gone: every stack is left without them. -/

namespace BlockStudio

inductive Run {α : Type} (next : α → Option α) : Option α → List α → Prop
  | stop : Run next none []
  | step {x l} : Run next (next x) l → Run next (some x) (x :: l)

namespace Run

variable {α : Type} {f g : α → Option α} {s : Option α} {x : α} {l : List α}

lemma of_chain (h : Chain f x l) : Run f (some x) (x :: l) := by
  induction h with
  | last hx =>
    apply step
    rw [hx]
    exact stop
  | link hy _ ih =>
    apply step
    rwa [hy]

lemma eq_nil (h : Run f none l) : l = [] := by
  cases h
  rfl

lemma chain (h : Run f s l) : ∀ x, s = some x → ∃ m, l = x :: m ∧ Chain f x m := by
  induction h with
  | stop => nofun
  | @step x l h ih =>
    rintro _ ⟨⟩
    refine ⟨l, rfl, ?_⟩
    cases hx : f x with
    | none =>
      rw [hx] at h
      cases h
      exact .last hx
    | some y =>
      obtain ⟨m, rfl, hm⟩ := ih y hx
      exact .link hx hm

lemma congr (h : Run f s l) (he : ∀ y ∈ l, g y = f y) : Run g s l := by
  induction h with
  | stop => exact stop
  | @step x l _ ih =>
    apply step
    rw [he x List.mem_cons_self]
    exact ih fun y hy => he y (List.mem_cons_of_mem x hy)

end Run

namespace Links

variable {L : Links} {d x y : BlockId} {s : Option BlockId} {l S : List BlockId}

def past (L : Links) (d : BlockId) (s : Option BlockId) : Option BlockId := if s = some d then L.after d else s

lemma run_splice (h : L.Sound) (hr : Run L.after s l) : Run (L.splice d).after (L.past d s) (l.filter (· ≠ d)) := by
  induction hr with
  | stop => exact .stop
  | @step x l _ ih =>
    by_cases hx : x = d
    · subst hx
      have hne : L.after x ≠ some x := fun he => h.after_ne he rfl
      simpa [past, hne] using ih
    · have hs : (L.splice d).after x = L.past d (L.after x) := by simp only [splice, past, if_neg hx]
      rw [past, if_neg (by simpa using hx), List.filter_cons_of_pos (by simpa using hx)]
      exact .step (hs ▸ ih)

lemma up_splice_eq_none (h : L.Sound) (hx : x ≠ d) :
    (L.splice d).up x = none ↔ ∃ y, L.up y = none ∧ L.past d (some y) = some x := by
  rw [up_splice, if_neg hx]
  constructor
  · intro hu
    by_cases hd : L.after d = some x
    · exact ⟨d, by rwa [if_pos hd] at hu, by rwa [past, if_pos rfl]⟩
    · exact ⟨x, by rwa [if_neg hd] at hu, by rw [past, if_neg (by simpa using hx)]⟩
  · rintro ⟨y, hy, hp⟩
    by_cases hyd : y = d
    · subst hyd
      rw [past, if_pos rfl] at hp
      rwa [if_pos hp]
    · rw [past, if_neg (by simpa using hyd)] at hp
      obtain rfl := Option.some.inj hp
      rwa [if_neg fun hd => by simp [h.up_of_after hd] at hy]

lemma Closed.mem_iff (h : L.Sound) (hS : L.Closed S) (hl : Chain L.after x l) : ∀ y ∈ x :: l, (y ∈ S ↔ x ∈ S) := by
  induction hl with
  | last _ =>
    intro y hy
    rw [List.mem_singleton.mp hy]
  | @link x z l hz _ ih =>
    intro y hy
    rcases List.mem_cons.mp hy with rfl | hy
    · exact Iff.rfl
    · exact (ih y hy).trans (hS z x (h.up_of_after hz))

end Links

namespace BlockGraph

variable {g g' g'' : BlockGraph} {b : Block} {c id k p r x y : BlockId} {s : Option BlockId}
  {l out out' : List BlockId}

def stackAt (g : BlockGraph) : Option BlockId → List BlockId
  | some first => g.stack first
  | none => []

def socketStacks (g : BlockGraph) (p : BlockId) : List (List BlockId) := (g.links.slots p).map g.stackAt

def rootStacks (g : BlockGraph) : List (List BlockId) := g.roots.map g.stack

lemma Relinked.bare (h : Relinked g g') (hb : g'.get? k = some b) : ∃ a, g.get? k = some a ∧ b.bare = a.bare := by
  obtain ⟨a, ha, he⟩ := Option.map_eq_some_iff.mp ((h.2 k).symm.trans (by rw [hb, Option.map_some]))
  exact ⟨a, ha, he.symm⟩

lemma exists_run (h : g.links.Sound) (s : Option BlockId) : ∃ l, Run g.links.after s l := by
  cases s with
  | none => exact ⟨[], .stop⟩
  | some x =>
    obtain ⟨l, hl⟩ := after_ends h x
    exact ⟨x :: l, .of_chain hl⟩

lemma stackAt_eq (h : g.links.Sound) (hr : Run g.links.after s l) : g.stackAt s = l := by
  cases s with
  | none =>
    cases hr
    rfl
  | some x =>
    obtain ⟨m, rfl, hm⟩ := hr.chain x rfl
    exact stack_eq h hm

lemma stackAt_eq_of_links (h : g.links.Sound) (hl : g'.links = g.links) (s : Option BlockId) :
    g'.stackAt s = g.stackAt s := by
  obtain ⟨l, hr⟩ := exists_run h s
  rw [stackAt_eq h hr]
  apply stackAt_eq
  · rwa [hl]
  · rwa [hl]

lemma inner_eq_flatten (g : BlockGraph) (p : BlockId) : g.inner p = (g.socketStacks p).flatten := by
  rw [inner, socketStacks]
  induction g.links.slots p with
  | nil => rfl
  | cons s slots ih =>
    cases s with
    | none => simpa [stackAt] using ih
    | some c => simpa [stackAt] using ih

lemma mem_roots_iff (hid : ∀ k b, g.get? k = some b → b.id = k) :
    r ∈ g.roots ↔ g.contains r = true ∧ g.links.up r = none := by
  rw [roots, List.mem_map, contains_iff, up_links]
  constructor
  · rintro ⟨b, hb, rfl⟩
    obtain ⟨hm, hn⟩ := List.mem_filter.mp hb
    obtain ⟨k, hk⟩ := mem_list.mp hm
    obtain rfl := hid k b hk
    exact ⟨⟨b, hk⟩, by simpa [hk, Block.up, and_comm] using hn⟩
  · rintro ⟨⟨b, hb⟩, hup⟩
    refine ⟨b, List.mem_filter.mpr ⟨mem_list.mpr ⟨r, hb⟩, ?_⟩, hid r b hb⟩
    simpa [hb, Block.up, and_comm] using hup

lemma mem_rootStacks_ne_nil (hs : l ∈ g.rootStacks) : l ≠ [] := by
  obtain ⟨r, _, rfl⟩ := List.mem_map.mp hs
  exact List.ne_nil_of_mem (g.mem_stack_self r)

lemma filter_notMem_append (m : List BlockId) :
    (m.filter (· ∉ out)).filter (· ∉ out') = m.filter (· ∉ out ++ out') := by
  simp [List.filter_filter, Bool.and_comm]

lemma contains_of_mem_inner (hy : y ∈ g.inner p) : g.contains p = true := by
  rw [contains_eq_isSome, ← Option.ne_none_iff_isSome]
  intro hp
  simp [inner, (links_eq_none hp).1] at hy

structure Pruned (out : List BlockId) (g g' : BlockGraph) : Prop where
  nodup : out.Nodup
  nextId_eq : g'.nextId = g.nextId
  present : ∀ x ∈ out, g.contains x = true
  contains_iff : ∀ x, g'.contains x = true ↔ g.contains x = true ∧ x ∉ out
  bare : ∀ k b', g'.get? k = some b' → ∃ b, g.get? k = some b ∧ b'.bare = b.bare
  socketStacks : ∀ p, g'.contains p = true → g'.socketStacks p = (g.socketStacks p).map (·.filter (· ∉ out))
  rootStacks : ∀ l, l ∈ g'.rootStacks ↔ l ≠ [] ∧ ∃ m ∈ g.rootStacks, m.filter (· ∉ out) = l

namespace Pruned

lemma contains (h : Pruned out g g') (hx : g'.contains x = true) : g.contains x = true :=
  ((h.contains_iff x).mp hx).1

lemma mem_inner (h : Pruned out g g') (hp : g'.contains p = true) : y ∈ g'.inner p ↔ y ∈ g.inner p ∧ y ∉ out := by
  simp only [inner_eq_flatten, h.socketStacks p hp, List.mem_flatten, List.mem_map, exists_exists_and_eq_and,
    List.mem_filter, decide_eq_true_eq]
  grind

lemma inner_subset (h : Pruned out g g') : g'.inner p ⊆ g.inner p :=
  fun _ hy => ((h.mem_inner (contains_of_mem_inner hy)).mp hy).1

lemma trans (h : Pruned out g g') (h' : Pruned out' g' g'') : Pruned (out ++ out') g g'' where
  nodup := List.nodup_append.mpr ⟨h.nodup, h'.nodup, fun x hx y hy he =>
    ((h.contains_iff y).mp (h'.present y hy)).2 (he ▸ hx)⟩
  nextId_eq := h'.nextId_eq.trans h.nextId_eq
  present x hx := by
    rcases List.mem_append.mp hx with hx | hx
    · exact h.present x hx
    · exact h.contains (h'.present x hx)
  contains_iff x := by rw [h'.contains_iff, h.contains_iff, List.mem_append, not_or, and_assoc]
  bare k b hb := by
    obtain ⟨a, ha, he⟩ := h'.bare k b hb
    obtain ⟨c, hc, he'⟩ := h.bare k a ha
    exact ⟨c, hc, he.trans he'⟩
  socketStacks p hp := by
    rw [h'.socketStacks p hp, h.socketStacks p (h'.contains hp), List.map_map]
    exact List.map_congr_left fun m _ => filter_notMem_append m
  rootStacks l := by
    rw [h'.rootStacks]
    refine and_congr_right fun hne => ⟨?_, ?_⟩
    · rintro ⟨m, hm, rfl⟩
      obtain ⟨-, k, hk, rfl⟩ := (h.rootStacks m).mp hm
      exact ⟨k, hk, (filter_notMem_append k).symm⟩
    · rintro ⟨k, hk, rfl⟩
      rw [← filter_notMem_append] at hne ⊢
      refine ⟨k.filter (· ∉ out), (h.rootStacks _).mpr ⟨fun he => hne (by rw [he]; rfl), k, hk, rfl⟩, rfl⟩

lemma of_links_eq (h : g.Wired) (hr : Relinked g g') (hl : g'.links = g.links) : Pruned [] g g' where
  nodup := List.nodup_nil
  nextId_eq := hr.1
  present := by simp
  contains_iff x := by simp [hr.contains_eq]
  bare k b' hb' := hr.bare hb'
  socketStacks p _ := by
    have hs := stackAt_eq_of_links h.sound hl
    simp [BlockGraph.socketStacks, hl, funext hs]
  rootStacks l := by
    have h' : g'.Wired := h.remains (.of_relinked hr) (hl ▸ h.sound)
    have hs : ∀ x, g'.stack x = g.stack x := fun x => stackAt_eq_of_links h.sound hl (some x)
    have hroots : ∀ r, r ∈ g'.roots ↔ r ∈ g.roots := by
      intro r
      rw [mem_roots_iff h.own_id, mem_roots_iff h'.own_id, hl, hr.contains_eq]
    have hmem : l ∈ g'.rootStacks ↔ l ∈ g.rootStacks := by
      simp only [BlockGraph.rootStacks, List.mem_map, hs, hroots]
    rw [hmem]
    simpa using mem_rootStacks_ne_nil

end Pruned

section Felled

variable (h : g.Wired) (hb : g.get? id = some b)

include h hb

lemma filter_felled (hr : Run g.links.after s l) : l.filter (· ∉ (g.heal id b).nested id) =
    if (g.links.past id s).any (· ∈ (g.heal id b).nested id) then []
    else (g.felled id b).stackAt (g.links.past id s) := by
  have hs := Links.splice_sound (d := id) h.sound
  have hid := mem_nested_self (g.heal id b) id
  have hl := links_felled h.sound hb
  have hclosed := closed_nested_heal h.sound hb
  generalize (g.heal id b).nested id = S at hid hl hclosed ⊢
  have hrest : l.filter (· ∉ S) = (l.filter (· ≠ id)).filter (· ∉ S) := by
    rw [List.filter_filter]
    apply List.filter_congr
    intro x _
    by_cases hx : x = id
    · simp [hx, hid]
    · simp [hx]
  have hrun := Links.run_splice (d := id) h.sound hr
  rw [hrest]
  cases hp : g.links.past id s with
  | none =>
    rw [hp] at hrun
    rw [hrun.eq_nil]
    rfl
  | some y =>
    rw [hp] at hrun
    obtain ⟨m, hm, hc⟩ := hrun.chain y rfl
    have hmem := Links.Closed.mem_iff hs hclosed hc
    rw [hm] at hrun ⊢
    by_cases hy : y ∈ S
    · simpa [hy] using fun z hz => (hmem z (List.mem_cons_of_mem y hz)).mpr hy
    · have hout : ∀ z ∈ y :: m, z ∉ S := fun z hz => mt (hmem z hz).mp hy
      have hrun' : Run (g.felled id b).links.after (some y) (y :: m) := hrun.congr fun z hz => by
        rw [hl]
        exact if_neg (hout z hz)
      rw [stackAt_eq (h.felled hb).sound hrun', List.filter_eq_self.mpr fun z hz => by simpa using hout z hz]
      simp [hy]

lemma socketStacks_felled (hp : (g.felled id b).contains p = true) :
    (g.felled id b).socketStacks p = (g.socketStacks p).map (·.filter (· ∉ (g.heal id b).nested id)) := by
  have hs := Links.splice_sound (d := id) h.sound
  have hpS := (contains_felled.mp hp).2
  have hslots : (g.felled id b).links.slots p = (g.links.slots p).map (g.links.past id) := by
    rw [links_felled h.sound hb]
    exact if_neg hpS
  rw [socketStacks, socketStacks, hslots, List.map_map, List.map_map]
  apply List.map_congr_left
  intro s hm
  obtain ⟨l, hr⟩ := exists_run h.sound s
  have hstay : (g.links.past id s).any (· ∈ (g.heal id b).nested id) = false := by
    cases hy : g.links.past id s with
    | none => rfl
    | some y =>
      have hslot : some y ∈ (g.links.splice id).slots p := hy ▸ List.mem_map_of_mem hm
      obtain ⟨i, hi⟩ := Links.Sound.mem_slots.mp hslot
      simpa using mt (closed_nested_heal h.sound hb y p (hs.up_of_holds hi)).mp hpS
  rw [Function.comp_apply, Function.comp_apply, stackAt_eq h.sound hr, filter_felled h hb hr, hstay]
  rfl

lemma mem_roots_felled : r ∈ (g.felled id b).roots ↔
    r ∉ (g.heal id b).nested id ∧ ∃ q ∈ g.roots, g.links.past id (some q) = some r := by
  have hne : r ∉ (g.heal id b).nested id → r ≠ id := fun hr he => hr (he ▸ mem_nested_self (g.heal id b) id)
  have hpast : ∀ q, g.contains q = true → g.links.past id (some q) = some r → g.contains r = true := by
    intro q hq hp
    rw [Links.past] at hp
    split at hp
    · exact contains_after h.sound hp
    · exact Option.some.inj hp ▸ hq
  rw [mem_roots_iff (h.felled hb).own_id, links_felled h.sound hb, Links.up_drop, contains_felled]
  simp only [mem_roots_iff h.own_id]
  constructor
  · rintro ⟨⟨hr, hrS⟩, hup⟩
    rw [if_neg hrS, Links.up_splice_eq_none h.sound (hne hrS)] at hup
    obtain ⟨q, hq, hp⟩ := hup
    refine ⟨hrS, q, ⟨?_, hq⟩, hp⟩
    rw [Links.past] at hp
    split at hp
    · rename_i he
      exact Option.some.inj he ▸ contains_of_get? hb
    · exact Option.some.inj hp ▸ hr
  · rintro ⟨hrS, q, ⟨hq, hup⟩, hp⟩
    refine ⟨⟨hpast q hq hp, hrS⟩, ?_⟩
    rw [if_neg hrS, Links.up_splice_eq_none h.sound (hne hrS)]
    exact ⟨q, hup, hp⟩

lemma contains_of_mem_nested (hx : x ∈ (g.heal id b).nested id) : g.contains x = true := by
  rcases origin_nested hx with rfl | ⟨p, _, hin⟩
  · exact contains_of_get? hb
  · obtain ⟨c, l, hc, hl, hx⟩ := (mem_inner_heal h.sound hb).mp hin
    have hsame : (g.heal id b).contains x = g.contains x := contains_heal
    rw [← hsame]
    rcases List.mem_cons.mp hx with rfl | hx
    · have hne : x ≠ id := by
        rintro rfl
        simp [Links.splice] at hc
      exact contains_of_parent (((links_heal h.sound hb).2 x hne).1.trans hc)
    · obtain ⟨z, _, hz⟩ := hl.exists_prev hx
      exact contains_of_splice_before h.sound hb (((Links.splice_sound h.sound).after_iff z x).mp hz)

lemma mem_rootStacks_felled : l ∈ (g.felled id b).rootStacks ↔
    l ≠ [] ∧ ∃ m ∈ g.rootStacks, m.filter (· ∉ (g.heal id b).nested id) = l := by
  have hstack : ∀ q, (g.stack q).filter (· ∉ (g.heal id b).nested id) =
      if (g.links.past id (some q)).any (· ∈ (g.heal id b).nested id) then []
      else (g.felled id b).stackAt (g.links.past id (some q)) := by
    intro q
    obtain ⟨m, hm⟩ := after_ends h.sound q
    rw [stack_eq h.sound hm]
    exact filter_felled h hb (.of_chain hm)
  constructor
  · intro hl
    refine ⟨mem_rootStacks_ne_nil hl, ?_⟩
    obtain ⟨r, hr, rfl⟩ := List.mem_map.mp hl
    obtain ⟨hrS, q, hq, hp⟩ := (mem_roots_felled h hb).mp hr
    refine ⟨g.stack q, List.mem_map_of_mem hq, ?_⟩
    rw [hstack, hp]
    simp [hrS, stackAt]
  · rintro ⟨hne, m, hm, rfl⟩
    obtain ⟨q, hq, rfl⟩ := List.mem_map.mp hm
    rw [hstack] at hne ⊢
    cases hp : g.links.past id (some q) with
    | none => simp [hp, stackAt] at hne
    | some r =>
      have hrS : r ∉ (g.heal id b).nested id := by
        intro hr
        simp [hp, hr] at hne
      rw [Option.any_some, decide_eq_false hrS]
      exact List.mem_map_of_mem ((mem_roots_felled h hb).mpr ⟨hrS, q, hq, hp⟩)

lemma pruned_felled : Pruned ((g.heal id b).nested id) g (g.felled id b) where
  nodup := nested_nodup _ id
  nextId_eq := remains_felled.nextId_eq
  present x hx := contains_of_mem_nested h hb hx
  contains_iff x := contains_felled
  bare k b' hb' := by
    rw [felled, get?_eraseAll] at hb'
    split at hb'
    · cases hb'
    · exact (relinked_heal g id b).bare hb'
  socketStacks p hp := socketStacks_felled h hb hp
  rootStacks l := mem_rootStacks_felled h hb

end Felled

end BlockGraph

end BlockStudio
