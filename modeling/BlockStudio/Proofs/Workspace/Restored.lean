import BlockStudio.Proofs.Links.Edits
import BlockStudio.Proofs.Workspace.Reached
import BlockStudio.Proofs.Workspace.Snapshot

/-! What is read from a snapshot has the ids and the links of the workspace, whatever becomes of the connectors. -/

namespace BlockStudio

open Json

namespace Json

variable {α β : Type} {f : Json → Option α} {g : β → Json}

lemma of_count64?_count {m n : ℕ} (h : count64? (count n) = some m) : m = n := by
  rw [count64?, countBelow?] at h
  split at h
  · exact (Option.some.inj h).symm
  · cases h

lemma of_nullable_count {o p : Option ℕ} (h : nullable count64? (some (countOption o)) = some p) : p = o := by
  cases o with
  | none => exact (Option.some.inj h).symm
  | some n =>
    obtain ⟨m, hm, rfl⟩ := Option.map_eq_some_iff.mp h
    exact congrArg some (of_count64?_count hm)

lemma forall₂_of_listOf? {l : List β} {as : List α} (h : listOf? f (list (l.map g)) = some as) :
    List.Forall₂ (fun b a => f (g b) = some a) l as := by
  rw [listOf?, list?, Option.bind_some] at h
  induction l generalizing as with
  | nil =>
    obtain rfl := Option.some.inj h
    exact .nil
  | cons b l ih =>
    rw [List.map_cons, List.mapM_cons] at h
    simp only [Option.bind_eq_bind, Option.bind_eq_some_iff] at h
    obtain ⟨a, ha, rest, hrest, has⟩ := h
    obtain rfl := Option.some.inj has
    exact .cons ha (ih hrest)

end Json

lemma Socket.block_of_ofJson? {s t : Socket} (h : Socket.ofJson? s.toJson = some t) : t.block = s.block := by
  rw [Socket.ofJson?, Socket.toJson, fields?_object (by rfl) (by decide)] at h
  simp only [List.map_cons, List.map_nil, Option.bind_eq_bind, Option.bind_some, Option.bind_eq_some_iff] at h
  obtain ⟨_, -, _, -, _, -, _, -, _, -, block, hblock, ht⟩ := h
  obtain rfl := Option.some.inj ht
  exact of_nullable_count hblock

lemma Socket.map_block_of_ofJson? {ss ts : List Socket}
    (h : List.Forall₂ (fun s t => Socket.ofJson? s.toJson = some t) ss ts) :
    ts.map (·.block) = ss.map (·.block) := by
  induction h with
  | nil => rfl
  | cons ht _ ih => rw [List.map_cons, List.map_cons, block_of_ofJson? ht, ih]

lemma Block.joints_of_ofJson? {a b : Block} (h : Block.ofJson? a.toJson = some b) : b.joints = a.joints := by
  rw [Block.ofJson?, Block.toJson, fields?_object (by rfl) (by decide)] at h
  rw [Option.bind_eq_bind, Option.bind_some] at h
  obtain ⟨id, hid, h⟩ := Option.bind_eq_some_iff.mp h
  obtain ⟨_, -, h⟩ := Option.bind_eq_some_iff.mp h
  obtain ⟨_, -, h⟩ := Option.bind_eq_some_iff.mp h
  obtain ⟨sockets, hsockets, h⟩ := Option.bind_eq_some_iff.mp h
  obtain ⟨_, -, h⟩ := Option.bind_eq_some_iff.mp h
  obtain ⟨parent, hparent, h⟩ := Option.bind_eq_some_iff.mp h
  obtain ⟨before, hbefore, h⟩ := Option.bind_eq_some_iff.mp h
  obtain ⟨after, hafter, h⟩ := Option.bind_eq_some_iff.mp h
  obtain ⟨declaring, hdeclaring, h⟩ := Option.bind_eq_some_iff.mp h
  obtain ⟨_, -, h⟩ := Option.bind_eq_some_iff.mp h
  obtain ⟨_, -, h⟩ := Option.bind_eq_some_iff.mp h
  obtain ⟨_, -, h⟩ := Option.bind_eq_some_iff.mp h
  obtain ⟨_, -, hb⟩ := Option.bind_eq_some_iff.mp h
  obtain rfl := Option.some.inj hb
  have hslots := Socket.map_block_of_ofJson? (forall₂_of_listOf? hsockets)
  simp only [Block.joints, hslots, of_count64?_count hid, of_nullable_count hparent, of_nullable_count hbefore,
    of_nullable_count hafter, of_nullable_count hdeclaring]

namespace BlockGraph

variable {g g' : BlockGraph} {n : ℕ}

lemma SameJoints.insert {a b : Block} (h : SameJoints g g') (hb : b.joints = a.joints) :
    SameJoints (g.insert a) (g'.insert b) := by
  have hid : b.id = a.id := congrArg Prod.fst hb
  refine ⟨by rw [BlockGraph.insert, BlockGraph.insert, h.1, hid], fun k => ?_⟩
  rw [get?_insert, get?_insert, hid]
  split
  · exact congrArg some hb
  · exact h.2 k

lemma sameJoints_ofBlocks {as bs : List Block} (h : List.Forall₂ (fun a b => b.joints = a.joints) as bs) :
    SameJoints (ofBlocks n as) (ofBlocks n bs) := by
  have key : ∀ {as bs : List Block}, List.Forall₂ (fun a b => b.joints = a.joints) as bs →
      ∀ {g g' : BlockGraph}, SameJoints g g' →
        SameJoints (as.foldl BlockGraph.insert g) (bs.foldl BlockGraph.insert g') := by
    intro as bs h
    induction h with
    | nil => exact fun h => h
    | cons hb _ ih => exact fun h => ih (h.insert hb)
  exact key h ⟨rfl, fun _ => rfl⟩

lemma sameJoints_of_ofJson? (h : g.Wired) (hg : ofJson? g.toJson = some g') : SameJoints g g' := by
  rw [ofJson?, toJson, fields?_object (by rfl) (by decide)] at hg
  simp only [List.map_cons, List.map_nil, Option.bind_eq_bind, Option.bind_some, Option.bind_eq_some_iff] at hg
  obtain ⟨next, hnext, bs, hbs, he⟩ := hg
  obtain rfl := Option.some.inj he
  obtain rfl := of_count64?_count hnext
  have hjoints := (forall₂_of_listOf? hbs).imp fun _ _ h => Block.joints_of_ofJson? h
  have hsame := sameJoints_ofBlocks (n := g.nextId) hjoints
  rwa [ofBlocks_list h.own_id h.id_le] at hsame

end BlockGraph

namespace Workspace

variable {w w' : Workspace}

lemma ofText?_snapshot_eq (w : Workspace) : ofText? w.snapshot = ofJson? w.toJson := by
  rw [ofText?, snapshot, parse?_print w.readable_toJson, Option.bind_some]

lemma sameJoints_of_ofText? (h : w.Linked) (hw : ofText? w.snapshot = some w') :
    w.blocks.SameJoints w'.blocks := by
  rw [ofText?_snapshot_eq, ofJson?, toJson, fields?_object (by rfl) (by decide)] at hw
  simp only [List.map_cons, List.map_nil, Option.bind_eq_bind, Option.bind_some, Option.bind_eq_some_iff] at hw
  obtain ⟨g, hg, t, -, he⟩ := hw
  obtain rfl := Option.some.inj he
  exact BlockGraph.sameJoints_of_ofJson? h.toWired hg

lemma ofText?_snapshot_new (form : String) : ofText? (new form).snapshot = some (new form) := by
  have hnone : ∀ k, (new form).blocks.get? k = none := BlockGraph.get?_empty
  have hids : (new form).idsNamed = [0] := rfl
  rw [ofText?_snapshot_eq]
  refine ofJson?_toJson (fun k b hb => ?_) (fun k b hb => ?_) nofun ?_
  · cases (hnone k).symm.trans hb
  · cases (hnone k).symm.trans hb
  · rw [hids]
    decide

end Workspace

end BlockStudio
