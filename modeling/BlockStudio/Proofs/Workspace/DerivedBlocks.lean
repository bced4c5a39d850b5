import BlockStudio.Proofs.Workspace.Renaming

namespace BlockStudio.Workspace

open Edit

variable {lang : Language} {w w' : Workspace} {component name old new : String} {record : List Derivation}
  {d : Derivation} {c : Component}

lemma owned_new {form : String} (hform : form ≠ "") : (Workspace.new form).Owned [] := by
  have hempty (x : String) (c : Component) (id : BlockId)
      (hc : (Workspace.new form).components.get? x = some c) : id ∉ c.blocks := by
    obtain ⟨-, rfl⟩ := ComponentTree.get?_withRoot.mp hc
    exact List.not_mem_nil
  refine ⟨linked_new form, .withRoot form formType, ?named, ?registered_le, ?apart, ?recorded, .nil, nofun, nofun,
    nofun⟩
  case named =>
    rw [Option.eq_none_iff_forall_ne_some]
    exact fun c hc => hform (ComponentTree.get?_withRoot.mp hc).1.symm
  case registered_le =>
    exact fun x c id hc hid => absurd hid (hempty x c id hc)
  case apart =>
    exact fun x c _ _ id hc _ hid _ => absurd hid (hempty x c id hc)
  case recorded =>
    exact fun x c id hc hid _ => absurd hid (hempty x c id hc)

namespace Owned

lemma labelled (h : w.Owned record) (hc : w.components.get? name = some c) :
    Labelled name c.blocks.toList w.blocks := by
  intro id hid b hb
  obtain ⟨d, hd, rfl, rfl⟩ := h.recorded name c id hc hid (BlockGraph.contains_of_get? hb)
  exact ⟨d.part, h.label_eq d hd b hb⟩

lemma mem_blocks_iff (h : w.Owned record) (hc : w.components.get? name = some c) (hd : d ∈ record)
    (hin : w.blocks.contains d.block = true) : d.block ∈ c.blocks ↔ d.component = name := by
  obtain ⟨c', hc', hown⟩ := h.owner d hd hin
  constructor
  · exact fun hid => h.apart d.component c' name c d.block hc' hc hown hid
  · rintro rfl
    obtain rfl := Option.some.inj (hc.symm.trans hc')
    exact hown

lemma renameComponent_cases (h : w.Owned record) (old new : String) :
    (∃ e, Workspace.renameComponent old new w = (.error e, w)) ∨
      ∃ c t g, w.components.get? old = some c ∧ ComponentTree.rename old new w.components = (.ok (), t) ∧
        Relabelled old new c.blocks.toList w.blocks g ∧
        Workspace.renameComponent old new w = (.ok (c.blocks.toList.filter w.blocks.contains), ⟨g, t⟩) := by
  obtain ⟨e, he⟩ | ⟨t, hr⟩ := ComponentTree.rename_cases old new w.components
  · exact .inl ⟨e, by rw [Workspace.renameComponent, Edit.bind_error (onComponents_of_eq he)]⟩
  · obtain ⟨c, hc⟩ := Option.isSome_iff_exists.mp (ComponentTree.contains_old_of_rename hr)
    obtain ⟨g, hg, hrun⟩ := renameComponent_run hr hc (h.labelled hc)
    exact .inr ⟨c, t, g, hc, hr, hg, hrun⟩

lemma renamed {t : ComponentTree} {g : BlockGraph} (h : w.Owned record) (hnew : new ≠ "")
    (hc : w.components.get? old = some c) (hr : ComponentTree.rename old new w.components = (.ok (), t))
    (hg : Relabelled old new c.blocks.toList w.blocks g) (hl : (⟨g, t⟩ : Workspace).Linked) :
    (⟨g, t⟩ : Workspace).Owned (record.map (·.renamed old new)) := by
  have hcarried := ComponentTree.carried_of_rename hr
  refine ⟨hl, h.family.rename hr, ?named, ?registered_le, ?apart, ?recorded, List.pairwise_map.mpr h.distinct,
    ?block_le, ?label_eq, ?owner⟩
  case named =>
    show t.get? "" = none
    rw [Option.eq_none_iff_forall_ne_some]
    intro d' hd'
    obtain ⟨x, d, hd, -, hx⟩ := hcarried.back "" d' hd'
    split at hx
    · exact hnew hx.symm
    · rw [← hx, h.named] at hd
      cases hd
  case registered_le =>
    intro y d' id hd' hid
    obtain ⟨x, d, hd, hblocks, -⟩ := hcarried.back y d' hd'
    exact Nat.le_trans (h.registered_le x d id hd (hblocks ▸ hid)) (Nat.le_of_eq hg.nextId_eq.symm)
  case apart =>
    intro y d' y' e' id hd' he' hid hid'
    obtain ⟨x, d, hd, hblocks, rfl⟩ := hcarried.back y d' hd'
    obtain ⟨x', e, he, hblocks', rfl⟩ := hcarried.back y' e' he'
    rw [h.apart x d x' e id hd he (hblocks ▸ hid) (hblocks' ▸ hid')]
  case recorded =>
    intro y d' id hd' hid hin
    obtain ⟨x, d, hd, hblocks, rfl⟩ := hcarried.back y d' hd'
    obtain ⟨e, he, rfl, rfl⟩ := h.recorded x d id hd (hblocks ▸ hid) ((hg.contains_eq id).symm.trans hin)
    exact ⟨_, List.mem_map_of_mem he, rfl, rfl⟩
  case block_le =>
    intro d' hd'
    obtain ⟨d, hd, rfl⟩ := List.mem_map.mp hd'
    exact Nat.le_trans (h.block_le d hd) (Nat.le_of_eq hg.nextId_eq.symm)
  case label_eq =>
    intro d' hd' b hb
    obtain ⟨d, hd, rfl⟩ := List.mem_map.mp hd'
    have hb : g.get? d.block = some b := hb
    have hin : w.blocks.contains d.block = true :=
      (hg.contains_eq d.block).symm.trans (BlockGraph.contains_of_get? hb)
    rw [hg.get?_eq] at hb
    by_cases hown : d.component = old
    · rw [if_pos (SortedSet.mem_toList.mp ((h.mem_blocks_iff hc hd hin).mpr hown))] at hb
      obtain ⟨a, ha, rfl⟩ := Option.map_eq_some_iff.mp hb
      have hlabel : a.label = d.part.label old := hown ▸ h.label_eq d hd a ha
      rw [relabelled_label hlabel, Derivation.label, Derivation.renamed, if_pos hown]
    · rw [if_neg fun hid => hown ((h.mem_blocks_iff hc hd hin).mp (SortedSet.mem_toList.mpr hid))] at hb
      rw [h.label_eq d hd b hb, Derivation.label, Derivation.label, Derivation.renamed, if_neg hown]
  case owner =>
    intro d' hd' hin
    obtain ⟨d, hd, rfl⟩ := List.mem_map.mp hd'
    obtain ⟨e, he, hown⟩ := h.owner d hd ((hg.contains_eq d.block).symm.trans hin)
    obtain ⟨e', he', hblocks⟩ := hcarried.forward d.component e he
    exact ⟨e', he', hblocks ▸ hown⟩

lemma builtOne (h : w.Owned record) (part : Part) :
    (part.build lang component w).2.Owned (record ++ Workspace.built lang component [part] w) := by
  have hall : (([part].mapM (Part.build lang component)) w).2.Owned _ := h.builtAll [part]
  simp only [List.mapM_cons, List.mapM_nil, pure_bind] at hall
  rwa [bind_pure_snd] at hall

lemma run (h : w.Owned record) {e : WorkspaceEdit} (he : ordinary e = true) :
    (e.run w).Owned (Workspace.recorded w record e) := by
  have hl : (e.run w).Linked := h.linked.run e
  have hgraph {e : GraphEdit} (hs : w.blocks.Steady (e.run w.blocks).2) :
      ((WorkspaceEdit.graph e).run w).Owned record :=
    h.undisturbed ⟨hs, rfl⟩ (h.linked.run (.graph e))
  have hfault {α : Type} {r : Except EditError α × BlockGraph} (hs : w.blocks.Steady r.2) :
      w.blocks.Steady (GraphEdit.run.fault r).2 := by
    rcases r with ⟨_ | _, g⟩
    · exact hs
    · exact hs
  cases e with
  | addBlock lang genus label => exact h.undisturbed ((additive_undisturbed w).addBlock genus label w (.refl w)) hl
  | addProcedure lang name params withResult =>
    exact h.undisturbed ((additive_undisturbed w).addProcedure name params withResult w (.refl w)) hl
  | addProcedureCall lang definition =>
    exact h.undisturbed ((additive_undisturbed w).addProcedureCall definition w (.refl w)) hl
  | addComponent name genus parent => exact h.addComponent (of_decide_eq_true he)
  | componentEvent lang component event => exact h.builtOne (.event event)
  | componentGetter lang component property => exact h.builtOne (.getter property)
  | componentSetter lang component property => exact h.builtOne (.setter property)
  | componentMethod lang component method => exact h.builtOne (.method method)
  | componentObject lang component => exact h.builtOne .object
  | componentTypeGetter lang type property =>
    exact h.undisturbed ((additive_undisturbed w).componentTypeGetter type property w (.refl w)) hl
  | componentTypeSetter lang type property =>
    exact h.undisturbed ((additive_undisturbed w).componentTypeSetter type property w (.refl w)) hl
  | componentTypeMethod lang type method =>
    exact h.undisturbed ((additive_undisturbed w).componentTypeMethod type method w (.refl w)) hl
  | generateBlocks lang component => exact h.generateBlocks
  | renameComponent old new =>
    rw [Workspace.recorded]
    rw [WorkspaceEdit.run] at hl ⊢
    obtain ⟨e, hfail⟩ | ⟨c, t, g, hc, hr, hg, hrun⟩ := h.renameComponent_cases old new
    · rw [hfail]
      exact h
    · rw [hrun] at hl ⊢
      exact h.renamed (of_decide_eq_true he) hc hr hg hl
  | removeComponent name => exact h.removeComponent name
  | graph e =>
    cases e with
    | connect parent socket child => exact hgraph (hfault (.connect w.blocks parent socket child))
    | setNext prev next => exact hgraph (hfault (.setNext h.linked prev next))
    | disconnect child => exact hgraph (hfault (.disconnect h.linked child))
    | removeBlock id => exact hgraph (hfault (.removeBlock h.linked id))
    | _ => cases he
  | tree e => cases he

lemma tracked {form : String} {edits : List WorkspaceEdit} (hform : form ≠ "")
    (hedits : ∀ e ∈ edits, ordinary e = true) :
    (tracked form edits).1.Owned (tracked form edits).2 := by
  have key : ∀ (edits : List WorkspaceEdit) (s : Workspace × List Derivation), s.1.Owned s.2 →
      (∀ e ∈ edits, ordinary e = true) → (edits.foldl track s).1.Owned (edits.foldl track s).2 := by
    intro edits
    induction edits with
    | nil => exact fun _ h _ => h
    | cons e edits ih =>
      intro s h hedits
      exact ih (track s e) (h.run (hedits e List.mem_cons_self)) fun e he => hedits e (List.mem_cons_of_mem _ he)
  exact key edits _ (owned_new hform) hedits

end Owned

def Registers (w : Workspace) (name : String) (id : BlockId) : Prop :=
  ∃ c, w.components.get? name = some c ∧ id ∈ c.blocks

lemma Owned.registers_iff (h : w.Owned record) (hd : d ∈ record) (hin : w.blocks.contains d.block = true) :
    w.Registers name d.block ↔ name = d.component := by
  constructor
  · rintro ⟨c, hc, hid⟩
    exact ((h.mem_blocks_iff hc hd hin).mp hid).symm
  · rintro rfl
    exact h.owner d hd hin

structure Follows (record : List Derivation) (old new : String) (w : Workspace) (ids : List BlockId) (w' : Workspace) :
    Prop where
  ascending : ids.Pairwise (· < ·)
  mem_iff : ∀ id, id ∈ ids ↔ w.blocks.contains id = true ∧ ∃ d ∈ record, d.block = id ∧ d.component = old
  relabelled : ∀ d ∈ record, d.component = old → ∀ b, w.blocks.get? d.block = some b →
    w'.blocks.get? d.block = some { b with label := d.part.label new }
  other : ∀ id, id ∉ ids → w'.blocks.get? id = w.blocks.get? id
  nextId_eq : w'.blocks.nextId = w.blocks.nextId
  undone : renameComponent new old w' = (.ok ids, w)

lemma Owned.follows {ids : List BlockId} (h : w.Owned record) (hr : renameComponent old new w = (.ok ids, w')) :
    Follows record old new w ids w' := by
  obtain ⟨e, he⟩ | ⟨c, t, g, hc, ht, hg, hrun⟩ := h.renameComponent_cases old new
  · cases he.symm.trans hr
  obtain ⟨hids, rfl⟩ := Prod.mk.inj (hrun.symm.trans hr)
  obtain rfl := Except.ok.inj hids
  refine ⟨c.blocks.ascending.filter _, fun id => ?mem_iff, fun d hd hown b hb => ?relabelled, fun id hid => ?other,
    hg.nextId_eq, renameComponent_back h.family ht hc (h.labelled hc) hg⟩
  case mem_iff =>
    rw [List.mem_filter, and_comm]
    refine and_congr_right fun hin => ⟨fun hid => h.recorded old c id hc hid hin, ?_⟩
    rintro ⟨d, hd, rfl, hown⟩
    exact (h.mem_blocks_iff hc hd hin).mpr hown
  case relabelled =>
    have hid : d.block ∈ c.blocks.toList := (h.mem_blocks_iff hc hd (BlockGraph.contains_of_get? hb)).mpr hown
    have hlabel : b.label = d.part.label old := hown ▸ h.label_eq d hd b hb
    rw [hg.get?_eq, if_pos hid, hb, Option.map_some, Block.relabelled, hlabel, renamedLabel?_label, Option.getD_some]
  case other =>
    rw [hg.get?_eq]
    split
    · rename_i hown
      have hgone : w.blocks.get? id = none := by
        rw [← Option.not_isSome_iff_eq_none, ← BlockGraph.contains_eq_isSome]
        exact fun hin => hid (List.mem_filter.mpr ⟨hown, hin⟩)
      rw [hgone, Option.map_none]
    · rfl

theorem derived_blocks_follow_names {form : String} {edits : List WorkspaceEdit} (hform : form ≠ "")
    (hedits : ∀ e ∈ edits, ordinary e = true) :
    ∃ w record, tracked form edits = (w, record) ∧ w = (Workspace.new form).edited edits ∧
      record.Pairwise (·.block < ·.block) ∧
      (∀ d ∈ record, ∀ b, w.blocks.get? d.block = some b →
        b.label = d.label ∧ ∀ name, w.Registers name d.block ↔ name = d.component) ∧
      (∀ name id, w.Registers name id → w.blocks.contains id = true → ∃ d ∈ record, d.block = id) ∧
      ∀ old new ids w', renameComponent old new w = (.ok ids, w') → Follows record old new w ids w' := by
  have h := Owned.tracked hform hedits
  refine ⟨_, _, rfl, tracked_fst form edits, h.distinct, fun d hd b hb => ?_, fun name id => ?_,
    fun _ _ _ _ => h.follows⟩
  · exact ⟨h.label_eq d hd b hb, fun name => h.registers_iff hd (BlockGraph.contains_of_get? hb)⟩
  · rintro ⟨c, hc, hid⟩ hin
    obtain ⟨d, hd, he, -⟩ := h.recorded name c id hc hid hin
    exact ⟨d, hd, he⟩

def buttons : Language :=
  ((({} : Language).addComponentType { name := "Button", events := [{ name := "Click" }] }).addGenus
    { name := GenusName.componentEvent, kind := .componentEvent }).addGenus
    { name := GenusName.component, kind := .componentObject, plug := some (.typed "component") }

def buttonEdits : List WorkspaceEdit :=
  [.addComponent "Button1" "Button" "Screen1", .generateBlocks buttons "Button1", .graph (.removeBlock 1)]

theorem derived_blocks_follow_names_buttonEdits :
    "Screen1" ≠ "" ∧ (∀ e ∈ buttonEdits, ordinary e = true) ∧
      ∃ w record, tracked "Screen1" buttonEdits = (w, record) ∧
        record = [⟨1, "Button1", .event "Click"⟩, ⟨2, "Button1", .object⟩] ∧
        w.blocks.contains 1 = false ∧ w.Registers "Button1" 2 ∧
        ∃ w', renameComponent "Button1" "Go" w = (.ok [2], w') ∧ renameComponent "Go" "Button1" w' = (.ok [2], w) := by
  have hform : "Screen1" ≠ "" := by decide
  have hedits : ∀ e ∈ buttonEdits, ordinary e = true := by decide
  obtain ⟨w, record, htracked, -, -, howned, -, hrename⟩ := derived_blocks_follow_names hform hedits
  obtain ⟨rfl, rfl⟩ := Prod.mk.inj htracked
  have hrecord : (tracked "Screen1" buttonEdits).2 = [⟨1, "Button1", .event "Click"⟩, ⟨2, "Button1", .object⟩] := rfl
  have hobject : (⟨2, "Button1", .object⟩ : Derivation) ∈ (tracked "Screen1" buttonEdits).2 := by
    rw [hrecord]
    exact List.mem_cons_of_mem _ List.mem_cons_self
  have hbutton : (tracked "Screen1" buttonEdits).1.components.get? "Button1" = some _ := rfl
  have hgoes : ComponentTree.rename "Button1" "Go" (tracked "Screen1" buttonEdits).1.components = (.ok (), _) := rfl
  obtain ⟨g, -, hrun⟩ := renameComponent_run hgoes hbutton ((Owned.tracked hform hedits).labelled hbutton)
  have hgo : renameComponent "Button1" "Go" (tracked "Screen1" buttonEdits).1 = (.ok [2], _) := hrun
  exact ⟨hform, hedits, _, _, rfl, hrecord, rfl, ((howned _ hobject _ rfl).2 "Button1").mpr rfl, _, hgo,
    (hrename _ _ _ _ hgo).undone⟩

end BlockStudio.Workspace
