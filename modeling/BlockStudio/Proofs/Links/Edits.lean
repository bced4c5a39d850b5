import BlockStudio.Proofs.Links.View

namespace BlockStudio

namespace Socket

def bare (s : Socket) : Socket := { s with resolved := none, block := none }

lemma map_fill {α : Type} {f : Socket → α} (hf : ∀ s v, f { s with block := v } = f s) (label : String) (c : BlockId)
    (sockets : List Socket) : (fill label c sockets).map f = sockets.map f := by
  induction sockets with
  | nil => rfl
  | cons s rest ih =>
    rw [fill]
    split
    · simp [hf]
    · simp [ih]

lemma map_replace {α : Type} {f : Socket → α} (hf : ∀ s v, f { s with block := v } = f s) (old : BlockId)
    (new : Option BlockId) (sockets : List Socket) : (replace old new sockets).map f = sockets.map f := by
  rw [replace, List.map_map]
  apply List.map_congr_left
  intro s _
  simp only [Function.comp_apply]
  split
  · exact hf s new
  · rfl

lemma bare_fill (label : String) (c : BlockId) (sockets : List Socket) :
    (fill label c sockets).map bare = sockets.map bare := map_fill (fun _ _ => rfl) label c sockets

lemma bare_replace (old : BlockId) (new : Option BlockId) (sockets : List Socket) :
    (replace old new sockets).map bare = sockets.map bare := map_replace (fun _ _ => rfl) old new sockets

lemma block_replace (old : BlockId) (new : Option BlockId) (sockets : List Socket) :
    (replace old new sockets).map (·.block) =
      (sockets.map (·.block)).map fun s => if s = some old then new else s := by
  rw [replace, List.map_map, List.map_map]
  apply List.map_congr_left
  intro s _
  simp only [Function.comp_apply]
  split
  · rfl
  · rfl

lemma block_fill {label : String} {c : BlockId} {sockets : List Socket} {s : Socket}
    (h : sockets.find? (·.label = label) = some s) :
    ∃ i, (sockets.map (·.block))[i]? = some s.block ∧
      (fill label c sockets).map (·.block) = (sockets.map (·.block)).set i (some c) := by
  induction sockets with
  | nil => cases h
  | cons t rest ih =>
    by_cases ht : t.label = label
    · simp only [List.find?_cons, ht, decide_true, Option.some.injEq] at h
      exact ⟨0, by simp [h], by simp [fill, ht]⟩
    · simp only [List.find?_cons, ht, decide_false] at h
      obtain ⟨i, hi, hf⟩ := ih h
      exact ⟨i + 1, by simpa using hi, by simp [fill, ht, hf]⟩

end Socket

namespace Block

def bare (b : Block) : Block :=
  { b with
    sockets := b.sockets.map Socket.bare
    plug := b.plug.map fun p => { p with resolved := none }
    parent := none
    before := none
    after := none }

def unstacked (b : Block) : Block := { b with before := none, after := none }

def joints (b : Block) : BlockId × Option BlockId × List (Option BlockId) × Option BlockId × Option BlockId ×
    Option BlockId :=
  (b.id, b.declaringParent, b.sockets.map (·.block), b.parent, b.before, b.after)

end Block

namespace BlockGraph

variable {g g' : BlockGraph} {a b : Block} {c d id k p x y : BlockId} {l : List BlockId}

def Relinked (g g' : BlockGraph) : Prop :=
  g'.nextId = g.nextId ∧ ∀ k, (g'.get? k).map Block.bare = (g.get? k).map Block.bare

def Restacked (g g' : BlockGraph) : Prop :=
  g'.nextId = g.nextId ∧ ∀ k, (g'.get? k).map Block.unstacked = (g.get? k).map Block.unstacked

def SameJoints (g g' : BlockGraph) : Prop :=
  g'.nextId = g.nextId ∧ ∀ k, (g'.get? k).map Block.joints = (g.get? k).map Block.joints

structure Remains (g g' : BlockGraph) : Prop where
  nextId_eq : g'.nextId = g.nextId
  exists_old : ∀ k b, g'.get? k = some b →
    ∃ a, g.get? k = some a ∧ a.id = b.id ∧ a.declaringParent = b.declaringParent

structure Wired (g : BlockGraph) : Prop where
  own_id : ∀ k b, g.get? k = some b → b.id = k
  id_le : ∀ k b, g.get? k = some b → k ≤ g.nextId
  sound : g.links.Sound

structure WellLinked (g : BlockGraph) : Prop extends Wired g where
  declared : ∀ k b d, g.get? k = some b → b.declaringParent = some d → g.contains d = true

namespace Relinked

lemma refl : Relinked g g := ⟨rfl, fun _ => rfl⟩

lemma trans {g'' : BlockGraph} (h : Relinked g g') (h' : Relinked g' g'') : Relinked g g'' :=
  ⟨h'.1.trans h.1, fun k => (h'.2 k).trans (h.2 k)⟩

lemma contains_eq (h : Relinked g g') : g'.contains x = g.contains x := by
  have hx := congrArg Option.isSome (h.2 x)
  rwa [Option.isSome_map, Option.isSome_map] at hx

end Relinked

lemma map_get?_modify {α : Type} {f : Block → Block} {p : Block → α}
    (hf : ∀ b, g.get? id = some b → p (f b) = p b) (k : BlockId) :
    ((g.modify id f).get? k).map p = (g.get? k).map p := by
  rw [get?_modify]
  split
  · rename_i hk
    subst hk
    cases hb : g.get? k with
    | none => rfl
    | some b => exact congrArg some (hf b hb)
  · rfl

lemma relinked_modify {f : Block → Block} (hf : ∀ b, g.get? id = some b → (f b).bare = b.bare) :
    Relinked g (g.modify id f) := ⟨rfl, map_get?_modify hf⟩

lemma Relinked.modify (h : Relinked g g') {f : Block → Block} (hf : ∀ b, (f b).bare = b.bare) :
    Relinked g (g'.modify id f) := h.trans (relinked_modify fun b _ => hf b)

lemma sameJoints_modify {f : Block → Block} (hf : ∀ b, g.get? id = some b → (f b).joints = b.joints) :
    SameJoints g (g.modify id f) := ⟨rfl, map_get?_modify hf⟩

namespace Restacked

lemma refl : Restacked g g := ⟨rfl, fun _ => rfl⟩

lemma modify (h : Restacked g g') {f : Block → Block} (hf : ∀ b, (f b).unstacked = b.unstacked) :
    Restacked g (g'.modify id f) := ⟨h.1, fun k => (map_get?_modify (fun b _ => hf b) k).trans (h.2 k)⟩

lemma relinked (h : Restacked g g') : Relinked g g' := by
  refine ⟨h.1, fun k => ?_⟩
  have hk := congrArg (Option.map Block.bare) (h.2 k)
  rwa [Option.map_map, Option.map_map] at hk

end Restacked

lemma SameJoints.links_eq (h : SameJoints g g') : g'.links = g.links := by
  have hk : ∀ x, (∃ a b, g'.get? x = some a ∧ g.get? x = some b ∧ a.joints = b.joints) ∨
      (g'.get? x = none ∧ g.get? x = none) := by
    intro x
    have hx := h.2 x
    cases ha : g'.get? x with
    | none => exact .inr ⟨rfl, by simpa [ha] using hx.symm⟩
    | some a =>
      obtain ⟨b, hb, he⟩ := Option.map_eq_some_iff.mp (hx.symm.trans (by rw [ha, Option.map_some]))
      exact .inl ⟨a, b, rfl, hb, he.symm⟩
  apply Links.ext_slots
  all_goals
    intro x
    rcases hk x with ⟨a, b, ha, hb, he⟩ | ⟨ha, hb⟩
    · simp only [Block.joints, Prod.mk.injEq] at he
      simp [links, ha, hb, he]
    · simp [links, ha, hb]

lemma SameJoints.contains_eq (hj : SameJoints g g') : g'.contains x = g.contains x := by
  have hx := congrArg Option.isSome (hj.2 x)
  rwa [Option.isSome_map, Option.isSome_map] at hx

lemma SameJoints.size_eq (hj : SameJoints g g') : g'.size = g.size :=
  Nat.le_antisymm (size_le_of_contains fun x hx => by rwa [← hj.contains_eq (x := x)])
    (size_le_of_contains fun x hx => by rwa [hj.contains_eq (x := x)])

lemma SameJoints.stack_eq (hj : SameJoints g g') (h : g.links.Sound) (x : BlockId) : g'.stack x = g.stack x := by
  obtain ⟨l, hl⟩ := after_ends h x
  have hl' : Chain g'.links.after x l := hj.links_eq ▸ hl
  rw [BlockGraph.stack_eq h hl, BlockGraph.stack_eq (hj.links_eq ▸ h) hl']

namespace Remains

lemma refl : Remains g g := ⟨rfl, fun _ b hb => ⟨b, hb, rfl, rfl⟩⟩

lemma trans {g'' : BlockGraph} (h : Remains g g') (h' : Remains g' g'') : Remains g g'' where
  nextId_eq := h'.nextId_eq.trans h.nextId_eq
  exists_old k b hb := by
    obtain ⟨a, ha, hid, hdp⟩ := h'.exists_old k b hb
    obtain ⟨c, hc, hid', hdp'⟩ := h.exists_old k a ha
    exact ⟨c, hc, hid'.trans hid, hdp'.trans hdp⟩

lemma of_relinked (h : Relinked g g') : Remains g g' where
  nextId_eq := h.1
  exists_old k b hb := by
    obtain ⟨a, ha, he⟩ := Option.map_eq_some_iff.mp ((h.2 k).symm.trans (by rw [hb, Option.map_some]))
    have hid : a.bare.id = b.bare.id := congrArg Block.id he
    have hdp : a.bare.declaringParent = b.bare.declaringParent := congrArg Block.declaringParent he
    exact ⟨a, ha, hid, hdp⟩

lemma of_sameJoints (h : SameJoints g g') : Remains g g' where
  nextId_eq := h.1
  exists_old k b hb := by
    obtain ⟨a, ha, he⟩ := Option.map_eq_some_iff.mp ((h.2 k).symm.trans (by rw [hb, Option.map_some]))
    exact ⟨a, ha, congrArg Prod.fst he, congrArg (fun j => j.2.1) he⟩

lemma contains (h : Remains g g') (k : BlockId) (hk : g'.contains k = true) : g.contains k = true := by
  obtain ⟨b, hb⟩ := contains_iff.mp hk
  obtain ⟨a, ha, _⟩ := h.exists_old k b hb
  exact contains_of_get? ha

lemma gone (h : Remains g g') (hx : g.contains x = false) : g'.contains x = false := by
  cases hc : g'.contains x with
  | false => rfl
  | true => exact absurd (h.contains x hc) (by simp [hx])

lemma declaringParent (h : Remains g g') (hb : g'.get? k = some b) :
    ∃ a, g.get? k = some a ∧ a.declaringParent = b.declaringParent := by
  obtain ⟨a, ha, _, hdp⟩ := h.exists_old k b hb
  exact ⟨a, ha, hdp⟩

end Remains

lemma Wired.remains (h : g.Wired) (hr : Remains g g') (hs : g'.links.Sound) : g'.Wired where
  own_id k b hb := by
    obtain ⟨a, ha, hid, _⟩ := hr.exists_old k b hb
    exact hid.symm.trans (h.own_id k a ha)
  id_le k b hb := by
    obtain ⟨a, ha, _⟩ := hr.exists_old k b hb
    exact hr.nextId_eq ▸ h.id_le k a ha
  sound := hs

lemma WellLinked.remains (h : g.WellLinked) (hr : Remains g g') (hc : ∀ x, g'.contains x = g.contains x)
    (hs : g'.links.Sound) : g'.WellLinked where
  toWired := h.toWired.remains hr hs
  declared k b d hb hd := by
    obtain ⟨a, ha, hdp⟩ := hr.declaringParent hb
    exact (hc d).trans (h.declared k a d ha (hdp.trans hd))

lemma WellLinked.relink (h : g.WellLinked) (hr : Relinked g g') (hs : g'.links.Sound) : g'.WellLinked :=
  h.remains (.of_relinked hr) (fun _ => hr.contains_eq) hs

lemma WellLinked.same (h : g.WellLinked) (hj : SameJoints g g') : g'.WellLinked :=
  h.remains (.of_sameJoints hj) (fun _ => hj.contains_eq) (hj.links_eq ▸ h.sound)

lemma links_modify (hb : g.get? id = some b) (f : Block → Block) :
    (g.modify id f).links =
      { slots := Function.update g.links.slots id ((f b).sockets.map (·.block))
        parent := Function.update g.links.parent id (f b).parent
        before := Function.update g.links.before id (f b).before
        after := Function.update g.links.after id (f b).after } := by
  apply Links.ext_slots
  all_goals
    intro x
    by_cases hx : x = id
    · subst hx
      simp [links, get?_modify, hb]
    · simp [links, get?_modify, hx]

lemma links_setSockets (hb : g.get? id = some b) (f : List Socket → List Socket) :
    (g.modify id fun b => { b with sockets := f b.sockets }).links =
      { g.links with slots := Function.update g.links.slots id ((f b.sockets).map (·.block)) } := by
  obtain ⟨_, hp, hu, ha⟩ := links_eq_some hb
  rw [links_modify hb]
  simp only [← hp, ← hu, ← ha, Function.update_eq_self]

lemma links_replace (h : g.contains id = true) (old : BlockId) (new : Option BlockId) :
    (g.modify id fun b => { b with sockets := Socket.replace old new b.sockets }).links =
      { g.links with
        slots := Function.update g.links.slots id
          ((g.links.slots id).map fun s => if s = some old then new else s) } := by
  obtain ⟨b, hb⟩ := contains_iff.mp h
  rw [links_setSockets hb, Socket.block_replace, (links_eq_some hb).1]

lemma links_setParent (h : g.contains id = true) (v : Option BlockId) :
    (g.modify id fun b => { b with parent := v }).links =
      { g.links with parent := Function.update g.links.parent id v } := by
  obtain ⟨b, hb⟩ := contains_iff.mp h
  obtain ⟨hs, _, hu, ha⟩ := links_eq_some hb
  rw [links_modify hb]
  simp only [← hs, ← hu, ← ha, Function.update_eq_self]

lemma links_setBefore (h : g.contains id = true) (v : Option BlockId) :
    (g.modify id fun b => { b with before := v }).links =
      { g.links with before := Function.update g.links.before id v } := by
  obtain ⟨b, hb⟩ := contains_iff.mp h
  obtain ⟨hs, hp, _, ha⟩ := links_eq_some hb
  rw [links_modify hb]
  simp only [← hs, ← hp, ← ha, Function.update_eq_self]

lemma links_setAfter (h : g.contains id = true) (v : Option BlockId) :
    (g.modify id fun b => { b with after := v }).links =
      { g.links with after := Function.update g.links.after id v } := by
  obtain ⟨b, hb⟩ := contains_iff.mp h
  obtain ⟨hs, hp, hu, _⟩ := links_eq_some hb
  rw [links_modify hb]
  simp only [← hs, ← hp, ← hu, Function.update_eq_self]

lemma bare_adaptBlock (b : Block) : (g.adaptBlock b).bare = b.bare := by
  have hs : ∀ s, (g.adaptSocket s).bare = s.bare := by
    intro s
    rw [adaptSocket]
    split
    · rfl
    · rfl
  have hp : ∀ t p, ({ adaptPlug t p with resolved := none } : Plug) = { p with resolved := none } := by
    intro t p
    rw [adaptPlug]
    split
    · rfl
    · rfl
  simp [adaptBlock, Block.bare, hs, hp, Function.comp_def]

lemma block_adaptSocket (s : Socket) : (g.adaptSocket s).block = s.block := by
  rw [adaptSocket]
  split
  · rfl
  · rfl

lemma joints_adaptBlock (b : Block) : (g.adaptBlock b).joints = b.joints := by
  simp [adaptBlock, Block.joints, block_adaptSocket, Function.comp_def]

lemma adaptUp_same (n : ℕ) (id : BlockId) (g : BlockGraph) :
    Relinked g (adaptUp n id g) ∧ SameJoints g (adaptUp n id g) := by
  induction n generalizing id g with
  | zero => exact ⟨.refl, rfl, fun _ => rfl⟩
  | succ n ih =>
    rw [adaptUp]
    cases hb : g.get? id with
    | none => exact ⟨.refl, rfl, fun _ => rfl⟩
    | some b =>
      have hr : Relinked g (g.modify id fun _ => g.adaptBlock b) := relinked_modify fun a ha => by
        obtain rfl := Option.some.inj (hb.symm.trans ha)
        exact bare_adaptBlock b
      have hj : SameJoints g (g.modify id fun _ => g.adaptBlock b) := sameJoints_modify fun a ha => by
        obtain rfl := Option.some.inj (hb.symm.trans ha)
        exact joints_adaptBlock b
      dsimp only
      split
      · exact ⟨hr, hj⟩
      · cases b.parent with
        | none => exact ⟨hr, hj⟩
        | some p =>
          obtain ⟨hr', hj'⟩ := ih p (g.modify id fun _ => g.adaptBlock b)
          exact ⟨hr.trans hr', hj'.1.trans hj.1, fun k => (hj'.2 k).trans (hj.2 k)⟩

lemma relinked_adapt : Relinked g (g.adapt id) := (adaptUp_same _ _ _).1

lemma sameJoints_adapt : SameJoints g (g.adapt id) := (adaptUp_same _ _ _).2

end BlockGraph

end BlockStudio
