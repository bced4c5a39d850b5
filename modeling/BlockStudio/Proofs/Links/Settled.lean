import BlockStudio.Proofs.Links.Clump
import BlockStudio.Proofs.Links.Removal

/-! Polymorphic connectors that have taken their types, and what adapting a block brings up to date. -/

namespace BlockStudio

def Socket.untied (s : Socket) : Socket := { s with block := none }

def Socket.untyped (s : Socket) : Socket := { s with resolved := none }

def Block.untyped (b : Block) : Block :=
  { b with sockets := b.sockets.map Socket.untyped, plug := b.plug.map fun p => { p with resolved := none } }

structure Block.OnlyPoly (b : Block) : Prop where
  socket : ∀ s ∈ b.sockets, s.kind.isPoly = false → s.resolved = none
  plug : ∀ p, b.plug = some p → p.kind.isPoly = false → p.resolved = none

namespace BlockGraph

variable {g g' g'' : BlockGraph} {b b' : Block} {c id k p : BlockId} {l stale touched : List BlockId} {n : ℕ}

section AdaptBlock

lemma adaptSocket_congr {s : Socket} (h : ∀ c, s.block = some c → g'.plugTypeOf c = g.plugTypeOf c) :
    g'.adaptSocket s = g.adaptSocket s := by
  cases hc : s.block with
  | none => simp [adaptSocket, hc]
  | some c => simp [adaptSocket, hc, h c hc]

lemma adaptBlock_congr (h : ∀ c ∈ b.children, g'.plugTypeOf c = g.plugTypeOf c) :
    g'.adaptBlock b = g.adaptBlock b := by
  have hs : b.sockets.map g'.adaptSocket = b.sockets.map g.adaptSocket := List.map_congr_left fun s hs =>
    adaptSocket_congr fun c hc => h c (List.mem_filterMap.mpr ⟨s, hs, hc⟩)
  simp only [adaptBlock, hs]

lemma adaptSocket_adaptSocket (s : Socket) : g.adaptSocket (g.adaptSocket s) = g.adaptSocket s := by
  cases h : s.kind.isPoly with
  | true => simp [adaptSocket, h]
  | false => simp [adaptSocket, h]

lemma adaptBlock_adaptBlock (b : Block) : g.adaptBlock (g.adaptBlock b) = g.adaptBlock b := by
  have hs : (b.sockets.map g.adaptSocket).map g.adaptSocket = b.sockets.map g.adaptSocket := by
    simp [Function.comp_def, adaptSocket_adaptSocket]
  have hp : ∀ (t : Option String) (p : Plug), adaptPlug t (adaptPlug t p) = adaptPlug t p := by
    intro t p
    cases h : p.kind.isPoly with
    | true => simp [adaptPlug, h]
    | false => simp [adaptPlug, h]
  simp only [adaptBlock, hs, Block.adaptedType, Option.map_map, Function.comp_def, hp]

lemma adaptBlock_untyped (h : b.OnlyPoly) : g.adaptBlock b.untyped = g.adaptBlock b := by
  have hs : b.untyped.sockets.map g.adaptSocket = b.sockets.map g.adaptSocket := by
    rw [Block.untyped, List.map_map]
    apply List.map_congr_left
    intro s hs
    cases hk : s.kind.isPoly with
    | true => simp [adaptSocket, Socket.untyped, hk]
    | false => simp [adaptSocket, Socket.untyped, hk, ← h.socket s hs hk]
  have hp : ∀ t, b.untyped.plug.map (adaptPlug t) = b.plug.map (adaptPlug t) := by
    intro t
    cases hb : b.plug with
    | none => simp [Block.untyped, hb]
    | some p =>
      cases hk : p.kind.isPoly with
      | true => simp [Block.untyped, hb, adaptPlug, hk]
      | false => simp [Block.untyped, hb, adaptPlug, hk, ← h.plug p hb hk]
  simp only [adaptBlock, hs, hp]
  rfl

lemma children_adaptBlock (b : Block) : (g.adaptBlock b).children = b.children := by
  simp [adaptBlock, Block.children, List.filterMap_map, block_adaptSocket]

lemma onlyPoly_adaptBlock (h : b.OnlyPoly) : (g.adaptBlock b).OnlyPoly where
  socket s hs hk := by
    obtain ⟨a, ha, rfl⟩ := List.mem_map.mp hs
    cases hp : a.kind.isPoly with
    | true => simp [adaptSocket, hp] at hk
    | false => simpa [adaptSocket, hp] using h.socket a ha hp
  plug p hp hk := by
    obtain ⟨q, hq, rfl⟩ := Option.map_eq_some_iff.mp hp
    cases hpoly : q.kind.isPoly with
    | true => simp [adaptPlug, hpoly] at hk
    | false => simpa [adaptPlug, hpoly] using h.plug q hq hpoly

end AdaptBlock

/-- Connectors have taken the types that the links give them, but perhaps for the stale blocks. -/
structure Settled (stale : List BlockId) (g : BlockGraph) : Prop where
  onlyPoly : ∀ k b, g.get? k = some b → b.OnlyPoly
  fresh : ∀ k b, g.get? k = some b → k ∉ stale → g.adaptBlock b = b

lemma Settled.mono (h : g.Settled stale) (hs : stale ⊆ l) : g.Settled l where
  onlyPoly := h.onlyPoly
  fresh k b hb hk := h.fresh k b hb fun hm => hk (hs hm)

section Adapt

lemma get?_adapted (hb : g.get? id = some b) :
    (g.modify id fun _ => g.adaptBlock b).get? k = if k = id then some (g.adaptBlock b) else g.get? k := by
  rw [get?_modify]
  by_cases hk : k = id
  · simp [hk, hb]
  · simp [hk]

lemma plugTypeOf_adapted (hb : g.get? id = some b) (hc : c ≠ id ∨ (g.adaptBlock b).plug = b.plug) :
    (g.modify id fun _ => g.adaptBlock b).plugTypeOf c = g.plugTypeOf c := by
  rw [plugTypeOf, get?_adapted hb, plugTypeOf]
  split
  · rename_i he
    have hp := hc.resolve_left fun hne => hne he
    rw [he, hb, Option.bind_some, Option.bind_some, Block.plugType, hp]
    rfl
  · rfl

lemma Settled.adapted (touched : List BlockId) (h : g.links.Sound) (hs : g.Settled (id :: stale)) (hb : g.get? id = some b)
    (hp : (g.adaptBlock b).plug = b.plug ∨ ∀ q, b.parent = some q → q ∈ touched) :
    (g.modify id fun _ => g.adaptBlock b).Settled (touched ++ stale) := by
  have hcase : ∀ k a, (g.modify id fun _ => g.adaptBlock b).get? k = some a →
      k = id ∧ a = g.adaptBlock b ∨ k ≠ id ∧ g.get? k = some a := by
    intro k a ha
    rw [get?_adapted hb] at ha
    split at ha
    · rename_i hk
      exact .inl ⟨hk, (Option.some.inj ha).symm⟩
    · rename_i hk
      exact .inr ⟨hk, ha⟩
  constructor
  · intro k a ha
    rcases hcase k a ha with ⟨_, rfl⟩ | ⟨_, ha⟩
    · exact onlyPoly_adaptBlock (hs.onlyPoly id b hb)
    · exact hs.onlyPoly k a ha
  · intro k a ha hk
    rw [List.mem_append, not_or] at hk
    rcases hcase k a ha with ⟨_, rfl⟩ | ⟨hne, ha⟩
    · rw [adaptBlock_congr (g := g), adaptBlock_adaptBlock]
      intro c hc
      rw [children_adaptBlock] at hc
      exact plugTypeOf_adapted hb (.inl (h.up_ne (up_of_mem_children h hb hc)))
    · rw [adaptBlock_congr (g := g)]
      · exact hs.fresh k a ha (by simp [hne, hk.2])
      · intro c hc
        refine plugTypeOf_adapted hb (hp.symm.imp_left fun hp he => hk.1 (hp k ?_))
        exact (links_eq_some hb).2.1.symm.trans (parent_of_mem_children h ha (he ▸ hc))

lemma Settled.of_absent (hb : g.get? id = none) (hs : g.Settled (id :: stale)) : g.Settled stale where
  onlyPoly := hs.onlyPoly
  fresh k b hk hm := by
    have hne : k ≠ id := by
      rintro rfl
      simp [hb] at hk
    exact hs.fresh k b hk (by simp [hne, hm])

lemma Settled.adaptUp (h : g.links.Sound) (hs : g.Settled (id :: stale)) (hl : Chain g.links.up id l)
    (hn : l.length < n) : (adaptUp n id g).Settled stale := by
  induction n generalizing g id l with
  | zero => cases hn
  | succ n ih =>
    rw [BlockGraph.adaptUp]
    cases hb : g.get? id with
    | none => exact hs.of_absent hb
    | some b =>
      dsimp only
      have hlinks : (g.modify id fun _ => g.adaptBlock b).links = g.links :=
        (sameJoints_modify fun a ha => by
          obtain rfl := Option.some.inj (hb.symm.trans ha)
          exact joints_adaptBlock b).links_eq
      split
      · rename_i hp
        exact hs.adapted [] h hb (.inl hp)
      · cases hp : b.parent with
        | none => exact hs.adapted [] h hb (.inr (by simp [hp]))
        | some q =>
          have hup : g.links.up id = some q := h.up_of_parent ((links_eq_some hb).2.1.trans hp)
          cases hl with
          | last hx => simp [hup] at hx
          | @link _ y m hy hm =>
            obtain rfl := Option.some.inj (hup.symm.trans hy)
            apply ih (hlinks ▸ h) (hs.adapted [q] h hb (.inr (by simp [hp]))) (hlinks ▸ hm)
            exact Nat.lt_of_succ_lt_succ hn

lemma Settled.adapt (h : g.links.Sound) (hs : g.Settled (id :: stale)) : (g.adapt id).Settled stale := by
  cases hb : g.get? id with
  | none =>
    have hsame : g.adapt id = g := by
      rw [BlockGraph.adapt]
      cases g.size with
      | zero => rfl
      | succ n => simp only [BlockGraph.adaptUp, hb]
    rw [hsame]
    exact hs.of_absent hb
  | some b =>
    obtain ⟨l, hl⟩ := h.up_ends id
    exact hs.adaptUp h hl (length_lt_size (fun _ _ => contains_up h) (contains_of_get? hb) hl)

lemma Settled.adaptIfPresent (h : g.links.Sound) {p : Option BlockId} (hs : g.Settled (p.toList ++ stale)) :
    (g.adaptIfPresent p).Settled stale := by
  cases p with
  | none => exact hs
  | some p =>
    rw [BlockGraph.adaptIfPresent]
    split
    · exact hs.adapt h
    · rename_i hp
      refine Settled.of_absent ?_ hs
      rwa [contains_eq_isSome, Option.not_isSome_iff_eq_none] at hp

end Adapt

def Retied (touched : List BlockId) (g g' : BlockGraph) : Prop :=
  ∀ k b', g'.get? k = some b' → ∃ b, g.get? k = some b ∧ b'.plug = b.plug ∧
    b'.sockets.map Socket.untied = b.sockets.map Socket.untied ∧ (k ∉ touched → b'.sockets = b.sockets)

namespace Retied

lemma refl : Retied touched g g := fun _ b hb => ⟨b, hb, rfl, rfl, fun _ => rfl⟩

lemma trans (h : Retied touched g g') (h' : Retied touched g' g'') : Retied touched g g'' := by
  intro k b'' hb''
  obtain ⟨b', hb', hp', hu', hs'⟩ := h' k b'' hb''
  obtain ⟨b, hb, hp, hu, hs⟩ := h k b' hb'
  exact ⟨b, hb, hp'.trans hp, hu'.trans hu, fun hk => (hs' hk).trans (hs hk)⟩

lemma retie (h : Retied touched g g') (hid : id ∈ touched) {f : List Socket → List Socket}
    (hf : ∀ l, (f l).map Socket.untied = l.map Socket.untied) :
    Retied touched g (g'.modify id fun b => { b with sockets := f b.sockets }) := by
  apply h.trans
  intro k b' hb'
  rw [get?_modify] at hb'
  split at hb'
  · rename_i hk
    obtain ⟨b, hb, rfl⟩ := Option.map_eq_some_iff.mp hb'
    exact ⟨b, hb, rfl, hf b.sockets, fun hn => absurd (hk ▸ hid) hn⟩
  · exact ⟨b', hb', rfl, rfl, fun _ => rfl⟩

lemma modify (h : Retied touched g g') {f : Block → Block} (hp : ∀ b, (f b).plug = b.plug)
    (hs : ∀ b, (f b).sockets = b.sockets) (id : BlockId) : Retied touched g (g'.modify id f) := by
  apply h.trans
  intro k b' hb'
  rw [get?_modify] at hb'
  split at hb'
  · obtain ⟨b, hb, rfl⟩ := Option.map_eq_some_iff.mp hb'
    exact ⟨b, hb, hp b, by rw [hs], fun _ => hs b⟩
  · exact ⟨b', hb', rfl, rfl, fun _ => rfl⟩

lemma onBelow (h : Retied touched g g') {f : Block → Block} (hp : ∀ b, (f b).plug = b.plug)
    (hs : ∀ b, (f b).sockets = b.sockets) (below : Option BlockId) : Retied touched g (onBelow below f g') := by
  cases below with
  | none => exact h
  | some a => exact h.modify hp hs a

end Retied

lemma Settled.retied (hs : g.Settled stale) (hr : Retied touched g g') (h' : g'.links.Sound) :
    g'.Settled (touched ++ stale) where
  onlyPoly k b' hb' := by
    obtain ⟨b, hb, hp, hu, -⟩ := hr k b' hb'
    have hold := hs.onlyPoly k b hb
    refine ⟨fun s hm hk => ?_, fun p hbp => hold.plug p (hp ▸ hbp)⟩
    obtain ⟨t, ht, he⟩ := List.mem_map.mp (hu ▸ List.mem_map_of_mem hm)
    have hkind : t.kind = s.kind := by simpa [Socket.untied] using congrArg Socket.kind he
    have hres : t.resolved = s.resolved := by simpa [Socket.untied] using congrArg Socket.resolved he
    rw [← hres]
    exact hold.socket t ht (hkind ▸ hk)
  fresh k b' hb' hk := by
    rw [List.mem_append, not_or] at hk
    obtain ⟨b, hb, hp, -, hsame⟩ := hr k b' hb'
    have hsock := hsame hk.1
    have hfresh := hs.fresh k b hb hk.2
    have htype : ∀ c ∈ b'.children, g'.plugTypeOf c = g.plugTypeOf c := by
      intro c hc
      obtain ⟨cb', hcb'⟩ := contains_iff.mp (contains_of_mem_children h' hb' hc)
      obtain ⟨cb, hcb, hcp, -⟩ := hr c cb' hcb'
      simp only [plugTypeOf, hcb, hcb', Option.bind_some, Block.plugType, hcp]
    rw [adaptBlock_congr htype]
    have hb : g.adaptBlock b' = { b' with sockets := (g.adaptBlock b).sockets, plug := (g.adaptBlock b).plug } := by
      simp only [adaptBlock, hsock, hp]
      rfl
    rw [hb, hfresh, ← hsock, ← hp]

lemma Settled.untouched (hs : g.Settled stale) (hr : Retied [] g g') (h' : g'.links.Sound) : g'.Settled stale :=
  hs.retied hr h'

end BlockGraph

end BlockStudio
