import BlockStudio.Proofs.Links.Edits

namespace BlockStudio.BlockGraph

variable {g : BlockGraph} {id p y : BlockId}

def inner (g : BlockGraph) (id : BlockId) : List BlockId := ((g.links.slots id).filterMap fun s => s).flatMap g.stack

lemma collectNested_succ (g : BlockGraph) (n : ℕ) (out : List BlockId) (id : BlockId) :
    g.collectNested (n + 1) out id =
      if id ∈ out then out else (g.inner id).foldl (g.collectNested n) (out ++ [id]) := by
  rw [collectNested]
  split
  · rfl
  · cases hb : g.get? id with
    | none => simp [inner, (links_eq_none hb).1]
    | some b => simp [inner, (links_eq_some hb).1, Block.children, List.filterMap_map]

lemma subset_foldl {f : List BlockId → BlockId → List BlockId} (hf : ∀ out m, out ⊆ f out m)
    (ms out : List BlockId) : out ⊆ ms.foldl f out := by
  induction ms generalizing out with
  | nil => exact fun _ h => h
  | cons m ms ih => exact List.Subset.trans (hf out m) (ih _)

lemma subset_collectNested (n : ℕ) (out : List BlockId) (id : BlockId) : out ⊆ g.collectNested n out id := by
  induction n generalizing out id with
  | zero => exact fun _ h => h
  | succ n ih =>
    rw [collectNested_succ]
    split
    · exact fun _ h => h
    · exact List.Subset.trans (List.subset_append_left out [id]) (subset_foldl ih _ _)

lemma mem_collectNested_self (n : ℕ) (out : List BlockId) (id : BlockId) :
    id ∈ g.collectNested (n + 1) out id := by
  rw [collectNested_succ]
  split
  · assumption
  · exact subset_foldl (subset_collectNested n) _ _ (List.mem_append_right out List.mem_cons_self)

lemma nodup_collectNested (n : ℕ) {out : List BlockId} (id : BlockId) (h : out.Nodup) :
    (g.collectNested n out id).Nodup := by
  induction n generalizing out id with
  | zero => exact h
  | succ n ih =>
    rw [collectNested_succ]
    split
    · exact h
    · rename_i hid
      have hstart : (out ++ [id]).Nodup := List.nodup_append.mpr
        ⟨h, List.nodup_singleton id, fun a ha b hb he => hid (List.mem_singleton.mp hb ▸ he ▸ ha)⟩
      generalize out ++ [id] = start at hstart
      induction g.inner id generalizing start with
      | nil => exact hstart
      | cons m ms ihm => exact ihm _ (ih m hstart)

lemma origin_collectNested (n : ℕ) {out : List BlockId} {id y : BlockId} (hy : y ∈ g.collectNested n out id) :
    y ∈ out ∨ y = id ∨ ∃ p ∈ g.collectNested n out id, y ∈ g.inner p := by
  induction n generalizing out id y with
  | zero => exact .inl hy
  | succ n ih =>
    have hself := mem_collectNested_self (g := g) n out id
    rw [collectNested_succ] at hy hself ⊢
    split at hy
    · exact .inl hy
    · rename_i hid
      rw [if_neg hid] at hself ⊢
      have hfold : ∀ (ms start : List BlockId) (y : BlockId), y ∈ ms.foldl (g.collectNested n) start →
          y ∈ start ∨ y ∈ ms ∨ ∃ p ∈ ms.foldl (g.collectNested n) start, y ∈ g.inner p := by
        intro ms
        induction ms with
        | nil => exact fun start y hy => .inl hy
        | cons m ms ihm =>
          intro start y hy
          rcases ihm _ y hy with hm | hms | hp
          · rcases ih hm with hs | rfl | ⟨p, hp, hyp⟩
            · exact .inl hs
            · exact .inr (.inl List.mem_cons_self)
            · exact .inr (.inr ⟨p, subset_foldl (subset_collectNested n) ms _ hp, hyp⟩)
          · exact .inr (.inl (List.mem_cons_of_mem m hms))
          · exact .inr (.inr hp)
      rcases hfold _ _ y hy with hs | hin | hp
      · rcases List.mem_append.mp hs with ho | hi
        · exact .inl ho
        · exact .inr (.inl (List.mem_singleton.mp hi))
      · exact .inr (.inr ⟨id, hself, hin⟩)
      · exact .inr (.inr hp)

section Rank

variable {rank : BlockId → ℕ} {N : ℕ} (hr : ∀ p m, m ∈ g.inner p → rank p < rank m) (hN : ∀ x, rank x ≤ N)

include hr hN

/-- With steps enough for the depth that is left, all that is inside of what the search adds is met too. -/
lemma closed_collectNested (n : ℕ) {out : List BlockId} {id p : BlockId} (hn : N < n + rank id)
    (hp : p ∈ g.collectNested n out id) : p ∈ out ∨ g.inner p ⊆ g.collectNested n out id := by
  induction n generalizing out id p with
  | zero => exact .inl hp
  | succ n ih =>
    rw [collectNested_succ] at hp ⊢
    split at hp
    · exact .inl hp
    · rename_i hid
      rw [if_neg hid]
      have hfold : ∀ (ms start : List BlockId), (∀ m ∈ ms, N < n + rank m) →
          ms ⊆ ms.foldl (g.collectNested n) start ∧ ∀ p ∈ ms.foldl (g.collectNested n) start,
            p ∈ start ∨ g.inner p ⊆ ms.foldl (g.collectNested n) start := by
        intro ms
        induction ms with
        | nil => exact fun start _ => ⟨List.nil_subset _, fun p hp => .inl hp⟩
        | cons m ms ihm =>
          intro start hms
          have hm := hms m List.mem_cons_self
          obtain ⟨hsub, hcl⟩ := ihm (g.collectNested n start m) fun m' h' => hms m' (List.mem_cons_of_mem m h')
          have hkeep := subset_foldl (subset_collectNested (g := g) n) ms (g.collectNested n start m)
          obtain ⟨k, rfl⟩ : ∃ k, n = k + 1 := Nat.exists_eq_add_one.mpr (by have := hN m; omega)
          refine ⟨List.cons_subset.mpr ⟨hkeep (mem_collectNested_self k start m), hsub⟩, fun p hp => ?_⟩
          rcases hcl p hp with hpm | hpi
          · rcases ih hm hpm with hps | hpi
            · exact .inl hps
            · exact .inr (List.Subset.trans hpi hkeep)
          · exact .inr hpi
      obtain ⟨hsub, hcl⟩ := hfold (g.inner id) (out ++ [id]) fun m hm => by
        have hlt := hr id m hm
        omega
      rcases hcl p hp with hs | hpi
      · rcases List.mem_append.mp hs with ho | hi
        · exact .inl ho
        · exact .inr (List.mem_singleton.mp hi ▸ hsub)
      · exact .inr hpi

end Rank

lemma nested_nodup (g : BlockGraph) (id : BlockId) : (g.nested id).Nodup := nodup_collectNested _ id List.nodup_nil

lemma mem_nested_self (g : BlockGraph) (id : BlockId) : id ∈ g.nested id := mem_collectNested_self _ [] id

lemma origin_nested (hy : y ∈ g.nested id) : y = id ∨ ∃ p ∈ g.nested id, y ∈ g.inner p :=
  (origin_collectNested _ hy).resolve_left (List.not_mem_nil)

lemma inner_subset_nested {rank : BlockId → ℕ} (hr : ∀ p m, m ∈ g.inner p → rank p < rank m)
    (hN : ∀ x, rank x ≤ g.size) (hp : p ∈ g.nested id) : g.inner p ⊆ g.nested id :=
  (closed_collectNested hr hN _ (by omega) hp).resolve_left List.not_mem_nil

end BlockStudio.BlockGraph
