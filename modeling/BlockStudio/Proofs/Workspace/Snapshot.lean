import BlockStudio.Proofs.Json.Records
import BlockStudio.Proofs.Links.View
import BlockStudio.Workspace.Document
import Mathlib.Algebra.Group.Nat.Defs

namespace BlockStudio

open Json

variable {s : Socket} {p : Plug} {b : Block} {c : Component} {t : ComponentTree} {g : BlockGraph} {w : Workspace}

namespace Connector

def Faithful (k : Connector) : Prop := parse k.display = .ok k

lemma ofJson?_toJson {k : Connector} (h : k.Faithful) : ofJson? k.toJson = some k := by
  have hk : parse k.display = .ok k := h
  rw [ofJson?, toJson, text?, Option.bind_some, hk]
  rfl

end Connector

lemma Socket.ofJson?_toJson (hk : s.kind.Faithful) (hb : ∀ id ∈ s.block, id < UInt64.size) :
    Socket.ofJson? s.toJson = some s := by
  rw [Socket.ofJson?, Socket.toJson, fields?_object (by rfl) (by decide)]
  simp only [List.map_cons, List.map_nil, Option.bind_eq_bind, Option.bind_some, required, withDefault, text?, bool?,
    Connector.ofJson?_toJson hk, nullable_text, countOption, nullable_count hb]
  rfl

lemma Plug.ofJson?_toJson (hk : p.kind.Faithful) : Plug.ofJson? p.toJson = some p := by
  rw [Plug.ofJson?, Plug.toJson, fields?_object (by rfl) (by decide)]
  simp only [List.map_cons, List.map_nil, Option.bind_eq_bind, Option.bind_some, required,
    Connector.ofJson?_toJson hk, nullable_text]
  rfl

lemma Remark.ofJson?_toJson (a : Remark) : Remark.ofJson? a.toJson = some a := by
  rw [Remark.ofJson?, Remark.toJson, fields?_object (by rfl) (by decide)]
  cases a
  · rfl
  · rfl
  · rfl

def Block.connectors (b : Block) : List Connector := b.sockets.map (·.kind) ++ b.plug.toList.map (·.kind)

lemma Block.ofJson?_toJson (hk : ∀ k ∈ b.connectors, k.Faithful) (hn : ∀ n ∈ b.id :: b.named, n < UInt64.size) :
    Block.ofJson? b.toJson = some b := by
  simp only [Block.named, List.mem_cons, List.mem_append, Option.mem_toList] at hn
  have hsockets : listOf? Socket.ofJson? (list (b.sockets.map Socket.toJson)) = some b.sockets := by
    refine listOf?_list fun s hs => Socket.ofJson?_toJson (hk _ ?_) fun id hid => hn id ?_
    · exact List.mem_append_left _ (List.mem_map_of_mem hs)
    · exact .inr (.inl (.inl (.inl (.inl (List.mem_filterMap.mpr ⟨s, hs, hid⟩)))))
  have hplug : nullable Plug.ofJson? (some (option Plug.toJson b.plug)) = some b.plug := by
    refine nullable_all (fun _ _ h => nomatch h) fun p hp => Plug.ofJson?_toJson (hk _ ?_)
    exact List.mem_append_right _ (List.mem_map_of_mem (Option.mem_toList.mpr hp))
  have hremark : nullable Remark.ofJson? (some (option Remark.toJson b.remark)) = some b.remark :=
    nullable_all (fun _ _ h => nomatch h) fun a _ => Remark.ofJson?_toJson a
  have hparent := nullable_count fun n h => hn n (.inr (.inl (.inl (.inl (.inr h)))))
  have hbefore := nullable_count fun n h => hn n (.inr (.inl (.inl (.inr h))))
  have hafter := nullable_count fun n h => hn n (.inr (.inl (.inr h)))
  have hdeclaring := nullable_count fun n h => hn n (.inr (.inr h))
  rw [Block.ofJson?, Block.toJson, fields?_object (by rfl) (by decide)]
  dsimp only [List.map_cons, List.map_nil, Option.bind_eq_bind, Option.bind_some]
  apply bind_of_eq (count64?_count (hn b.id (.inl rfl)))
  apply bind_of_eq rfl
  apply bind_of_eq rfl
  apply bind_of_eq hsockets
  apply bind_of_eq hplug
  apply bind_of_eq hparent
  apply bind_of_eq hbefore
  apply bind_of_eq hafter
  apply bind_of_eq hdeclaring
  apply bind_of_eq rfl
  apply bind_of_eq rfl
  apply bind_of_eq rfl
  apply bind_of_eq hremark
  rfl

lemma Component.ofJson?_toJson (hn : ∀ n ∈ c.blocks, n < UInt64.size) : Component.ofJson? c.toJson = some c := by
  have hchildren : listOf? text? (list (c.children.map text)) = some c.children := listOf?_list fun _ _ => rfl
  have hprops : nameMapOf? text? (nameMap text c.properties) = some c.properties :=
    nameMapOf?_nameMap fun _ _ => rfl
  rw [Component.ofJson?, Component.toJson, fields?_object (by rfl) (by decide)]
  simp only [List.map_cons, List.map_nil, Option.bind_eq_bind, Option.bind_some, required, withDefault, text?,
    nullable_text, hchildren, hprops, countSetOf?_countSet hn]
  rfl

lemma ComponentTree.ofJson?_toJson (hn : ∀ c ∈ t.list, ∀ n ∈ c.blocks, n < UInt64.size) :
    ComponentTree.ofJson? t.toJson = some t := by
  have hmap : nameMapOf? Component.ofJson? (nameMap Component.toJson t.components) = some t.components :=
    nameMapOf?_nameMap fun e he => Component.ofJson?_toJson (hn e.2 (List.mem_map_of_mem he))
  rw [ComponentTree.ofJson?, ComponentTree.toJson, fields?_object (by rfl) (by decide)]
  simp only [List.map_cons, List.map_nil, Option.bind_eq_bind, Option.bind_some, withDefault, nullable_text, hmap]
  rfl

namespace BlockGraph

lemma ofBlocks_list (hid : ∀ k b, g.get? k = some b → b.id = k) (hle : ∀ k b, g.get? k = some b → k ≤ g.nextId) :
    ofBlocks g.nextId g.list = g := by
  have hmem : ∀ e ∈ g.blocks.entries, e.2.id = e.1 ∧ e.1 ≤ g.nextId := fun e he =>
    have hg := (SortedMap.get?_eq_some_iff g.blocks e.1 e.2).mpr he
    ⟨hid e.1 e.2 hg, hle e.1 e.2 hg⟩
  have key : ∀ (l : List (BlockId × Block)) (h : BlockGraph), (h.blocks.entries ++ l).Pairwise (·.1 < ·.1) →
      (∀ e ∈ l, e.2.id = e.1 ∧ e.1 ≤ g.nextId) → h.nextId = g.nextId →
      ((l.map Prod.snd).foldl insert h).blocks.entries = h.blocks.entries ++ l ∧
        ((l.map Prod.snd).foldl insert h).nextId = g.nextId := by
    intro l
    induction l with
    | nil => exact fun h _ _ hn => ⟨(List.append_nil _).symm, hn⟩
    | cons e l ih =>
      intro h hp hl hn
      obtain ⟨⟨he, hlt⟩, hl⟩ := List.forall_mem_cons.mp hl
      have hins : (h.insert e.2).blocks.entries = h.blocks.entries ++ [e] := by
        have hlast := SortedMap.insertEntry_of_forall_lt (v := e.2) fun x hx =>
          (List.pairwise_append.mp hp).2.2 x hx e List.mem_cons_self
        rw [insert, he]
        exact hlast
      have hnext : (h.insert e.2).nextId = g.nextId := by
        rw [insert, he, hn]
        exact Nat.max_eq_left hlt
      obtain ⟨hent, hne⟩ := ih (h.insert e.2) (by rwa [hins, List.append_assoc]) hl hnext
      rw [hins, List.append_assoc] at hent
      exact ⟨hent, hne⟩
  obtain ⟨hent, hnext⟩ := key g.blocks.entries { nextId := g.nextId } g.blocks.ascending hmem rfl
  have hb : (ofBlocks g.nextId g.list).blocks = g.blocks := SortedMap.ext_entries hent
  have hn : (ofBlocks g.nextId g.list).nextId = g.nextId := hnext
  generalize ofBlocks g.nextId g.list = h at hb hn
  cases g
  cases h
  cases hb
  cases hn
  rfl

lemma ofJson?_toJson (hid : ∀ k b, g.get? k = some b → b.id = k) (hle : ∀ k b, g.get? k = some b → k ≤ g.nextId)
    (hk : ∀ b ∈ g.list, ∀ k ∈ b.connectors, k.Faithful)
    (hn : g.nextId < UInt64.size ∧ ∀ b ∈ g.list, ∀ n ∈ b.id :: b.named, n < UInt64.size) :
    ofJson? g.toJson = some g := by
  have hblocks : listOf? Block.ofJson? (Json.list (g.list.map Block.toJson)) = some g.list :=
    listOf?_list fun b hb => Block.ofJson?_toJson (hk b hb) (hn.2 b hb)
  rw [ofJson?, toJson, fields?_object (by rfl) (by decide)]
  simp only [List.map_cons, List.map_nil, Option.bind_eq_bind, Option.bind_some, withDefault,
    count64?_count hn.1, hblocks, ofBlocks_list hid hle]
  rfl

end BlockGraph

lemma readable_countOption (n : Option ℕ) : (countOption n).Readable := readable_option fun n _ => .count n

lemma Socket.readable_toJson (s : Socket) : s.toJson.Readable := by
  refine .object ?_
  simp only [List.forall_mem_cons, List.not_mem_nil, false_implies, implies_true, and_true]
  exact ⟨.text _, .text _, .bool _, .bool _, readable_textOption _, readable_countOption _⟩

lemma Plug.readable_toJson (p : Plug) : p.toJson.Readable := by
  refine .object ?_
  simp only [List.forall_mem_cons, List.not_mem_nil, false_implies, implies_true, and_true]
  exact ⟨.text _, readable_textOption _⟩

lemma Remark.readable_toJson (a : Remark) : a.toJson.Readable := by
  refine .object ?_
  simp only [List.forall_mem_cons, List.not_mem_nil, false_implies, implies_true, and_true]
  exact ⟨.text _, .text _⟩

lemma Block.readable_toJson (b : Block) : b.toJson.Readable := by
  refine .object ?_
  simp only [List.forall_mem_cons, List.not_mem_nil, false_implies, implies_true, and_true]
  exact ⟨.count _, .text _, .text _, readable_list fun s _ => s.readable_toJson,
    readable_option fun p _ => p.readable_toJson, readable_countOption _, readable_countOption _,
    readable_countOption _, readable_countOption _, .bool _, .bool _, .bool _,
    readable_option fun a _ => a.readable_toJson⟩

lemma Component.readable_toJson (c : Component) : c.toJson.Readable := by
  refine .object ?_
  simp only [List.forall_mem_cons, List.not_mem_nil, false_implies, implies_true, and_true]
  exact ⟨.text _, .text _, readable_textOption _, readable_list fun _ _ => .text _,
    readable_nameMap fun _ _ => .text _, readable_list fun _ _ => .count _⟩

namespace Workspace

lemma readable_toJson (w : Workspace) : w.toJson.Readable := by
  refine .object ?_
  simp only [List.forall_mem_cons, List.not_mem_nil, false_implies, implies_true, and_true]
  constructor
  · refine .object ?_
    simp only [List.forall_mem_cons, List.not_mem_nil, false_implies, implies_true, and_true]
    exact ⟨.count _, readable_list fun b _ => b.readable_toJson⟩
  · refine .object ?_
    simp only [List.forall_mem_cons, List.not_mem_nil, false_implies, implies_true, and_true]
    exact ⟨readable_textOption _, readable_nameMap fun e _ => e.2.readable_toJson⟩

def connectors (w : Workspace) : List Connector := w.blocks.list.flatMap Block.connectors

def idsNamed (w : Workspace) : List BlockId :=
  w.blocks.nextId :: (w.blocks.list.flatMap (fun b => b.id :: b.named) ++ w.components.list.flatMap (·.blocks.toList))

lemma ofJson?_toJson (hid : ∀ k b, w.blocks.get? k = some b → b.id = k)
    (hle : ∀ k b, w.blocks.get? k = some b → k ≤ w.blocks.nextId) (hk : ∀ k ∈ w.connectors, k.Faithful)
    (hn : ∀ n ∈ w.idsNamed, n < UInt64.size) : ofJson? w.toJson = some w := by
  simp only [idsNamed, List.mem_cons, List.mem_append, List.mem_flatMap, connectors] at hn hk
  have hg : BlockGraph.ofJson? w.blocks.toJson = some w.blocks := by
    refine BlockGraph.ofJson?_toJson hid hle (fun b hb k h => hk k ⟨b, hb, h⟩) ⟨hn _ (.inl rfl), fun b hb n h => ?_⟩
    exact hn n (.inr (.inl ⟨b, hb, List.mem_cons.mp h⟩))
  have ht : ComponentTree.ofJson? w.components.toJson = some w.components :=
    ComponentTree.ofJson?_toJson fun c hc n h => hn n (.inr (.inr ⟨c, hc, h⟩))
  rw [ofJson?, toJson, fields?_object (by rfl) (by decide)]
  simp only [List.map_cons, List.map_nil, Option.bind_eq_bind, Option.bind_some, withDefault, hg, ht]
  rfl

/-- Ids are 64-bit numbers, and a connector has to be one that its own text stands for. -/
theorem ofText?_snapshot (hid : ∀ k b, w.blocks.get? k = some b → b.id = k)
    (hle : ∀ k b, w.blocks.get? k = some b → k ≤ w.blocks.nextId)
    (hk : ∀ k ∈ w.connectors, Connector.parse k.display = .ok k) (hn : ∀ n ∈ w.idsNamed, n < 2 ^ 64) :
    ofText? w.snapshot = some w := by
  rw [ofText?, snapshot, parse?_print w.readable_toJson, Option.bind_some, ofJson?_toJson hid hle hk hn]

def nestedPair : Workspace where
  blocks :=
    (BlockGraph.empty.insert
      { id := 2, genus := "text", label := "\"a\\b\"\n\x01", plug := some { kind := .poly }, parent := some 1 }).insert
      { id := 1, genus := "print", label := "", sockets := [{ label := "item", kind := .listOf "text", block := some 2 }] }
  components := .withRoot "Screen1" formType

theorem ofText?_snapshot_nestedPair : ofText? nestedPair.snapshot = some nestedPair := by
  have hall : ∀ e ∈ nestedPair.blocks.blocks.entries, e.2.id = e.1 ∧ e.1 ≤ nestedPair.blocks.nextId := by decide
  have hmem : ∀ k b, nestedPair.blocks.get? k = some b → b.id = k ∧ k ≤ nestedPair.blocks.nextId := fun k b h =>
    hall (k, b) ((SortedMap.get?_eq_some_iff _ _ _).mp h)
  exact ofText?_snapshot (fun k b h => (hmem k b h).1) (fun k b h => (hmem k b h).2) (by decide +kernel)
    (by decide +kernel)

end Workspace

end BlockStudio
