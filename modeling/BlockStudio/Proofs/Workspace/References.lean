import BlockStudio.Link.Rules
import BlockStudio.Proofs.Component.Rooted
import BlockStudio.Proofs.Workspace.DerivedBlocks

/-! What the blocks of a component refer to. Their labels are read up to the first dot, and names may have dots. -/

namespace BlockStudio

open Workspace

variable {b : Block} {r : LinkRules} {t t' : ComponentTree} {old new owner member name : String}

lemma Block.member?_eq_some_iff : b.member? = some (owner, member) ↔ '.' ∉ owner.toList ∧ b.label = dotted owner member :=
  Text.cut_eq_some_iff rfl

lemma dotted_inj {member' : String} : dotted name member = dotted name member' ↔ member = member' := by
  rw [dotted, dotted, String.append_right_inj]

lemma dotted_left_inj {name' : String} : dotted name member = dotted name' member ↔ name = name' := by
  rw [dotted, dotted, String.append_left_inj, String.append_left_inj]

lemma dotted_ne (name member : String) : dotted name member ≠ name := by
  intro h
  have hlength := congrArg (fun s => s.toList.length) h
  simp [dotted] at hlength

lemma Block.relabelled_cases (old new : String) (b : Block) :
    (b.relabelled old new).label = new ∨
      (∃ member, b.label = dotted old member ∧ (b.relabelled old new).label = dotted new member) ∨
      (b.relabelled old new).label = b.label := by
  rw [Block.relabelled, renamedLabel?]
  split
  · exact .inl rfl
  · cases hs : Text.stripLead? (old ++ ".") b.label with
    | none => exact .inr (.inr rfl)
    | some member => exact .inr (.inl ⟨member, Text.stripLead?_eq_some_iff.mp hs, rfl⟩)

lemma Block.relabelled_dotted (h : b.label = (Part.event member).label old) :
    (b.relabelled old new).label = dotted new member := relabelled_label h

lemma LinkRules.memberOf?_eq_some_iff {type : String} (hk : (r.kindOf? b.genus).any (·.isMember) = true) :
    r.memberOf? t b = some (type, member) ↔
      ∃ owner c, b.member? = some (owner, member) ∧ t.get? owner = some c ∧ c.genus = type := by
  obtain ⟨kind, hkind, hm⟩ := (Option.any_eq_true _ _).mp hk
  rw [memberOf?, hkind]
  cases b.member? with
  | none => simp
  | some m =>
    simp only [Option.bind_eq_bind, Option.bind_some, hm, if_true, Option.bind_eq_some_iff]
    grind

namespace Workspace

variable {w w' : Workspace} {id : BlockId} {ids : List BlockId}

def StillRefers (r : LinkRules) (w w' : Workspace) (name : String) (id : BlockId) : Prop :=
  ∃ b b' type member, w.blocks.get? id = some b ∧ w'.blocks.get? id = some b' ∧
    r.memberOf? w.components b = some (type, member) ∧ r.memberOf? w'.components b' = some (type, member) ∧
    b'.member? = some (name, member)

lemma get?_renameComponent (hr : renameComponent old new w = (.ok ids, w')) (hown : w.Registers old id)
    (hb : w.blocks.get? id = some b) :
    ComponentTree.rename old new w.components = (.ok (), w'.components) ∧
      w'.blocks.get? id = some (b.relabelled old new) := by
  obtain ⟨e, he⟩ | ⟨t, hrun⟩ := ComponentTree.rename_cases old new w.components
  · rw [renameComponent, Edit.bind_error (onComponents_of_eq he)] at hr
    cases hr
  obtain ⟨c, hc, hid⟩ := hown
  obtain ⟨g, hg, hrename⟩ := renameComponent_relabels hrun hc
  obtain rfl : ⟨g, t⟩ = w' := congrArg Prod.snd (hrename.symm.trans hr)
  have hlisted : id ∈ c.blocks.toList := SortedSet.mem_toList.mpr hid
  refine ⟨hrun, (hg.get?_eq id).trans ?_⟩
  rw [if_pos hlisted, hb, Option.map_some]

lemma stillRefers_iff (ht : w.components.Rooted) (hr : renameComponent old new w = (.ok ids, w'))
    (hown : w.Registers old id) (hb : w.blocks.get? id = some b) (hk : (r.kindOf? b.genus).any (·.isMember) = true) :
    w.StillRefers r w' new id ↔ (∃ member, b.member? = some (old, member)) ∧ '.' ∉ new.toList := by
  obtain ⟨hrun, hb'⟩ := get?_renameComponent hr hown hb
  have hk' : (r.kindOf? (b.relabelled old new).genus).any (·.isMember) = true := hk
  constructor
  · rintro ⟨_, _, type, member, ha, ha', hbefore, hafter, hread⟩
    obtain rfl := Option.some.inj (hb.symm.trans ha)
    obtain rfl := Option.some.inj (hb'.symm.trans ha')
    obtain ⟨owner, co, howner, hco, -⟩ := (LinkRules.memberOf?_eq_some_iff hk).mp hbefore
    obtain ⟨hnew, hlabel'⟩ := Block.member?_eq_some_iff.mp hread
    obtain ⟨hdot, hlabel⟩ := Block.member?_eq_some_iff.mp howner
    refine ⟨⟨member, ?_⟩, hnew⟩
    obtain hbare | ⟨m, hold, hmoved⟩ | hstays := Block.relabelled_cases old new b
    · exact absurd (hlabel'.symm.trans hbare) (dotted_ne new member)
    · obtain rfl := dotted_inj.mp (hlabel'.symm.trans hmoved)
      rw [howner, dotted_left_inj.mp (hlabel.symm.trans hold)]
    · -- a label that stays would name a component that is not there, unless the name does not change
      obtain rfl := dotted_left_inj.mp (hlabel.symm.trans (hstays.symm.trans hlabel'))
      by_cases hne : old = owner
      · rw [howner, hne]
      · have hfree := ComponentTree.not_contains_new_of_rename hrun hne
        exact absurd (ComponentTree.contains_of_get? hco) (by rw [hfree]; exact Bool.false_ne_true)
  · rintro ⟨⟨member, hread⟩, hnew⟩
    obtain ⟨c, hc, -⟩ := hown
    have hc' := ht.get?_rename hrun hc
    rw [substitute, if_pos rfl] at hc'
    have hread' : (b.relabelled old new).member? = some (new, member) :=
      Block.member?_eq_some_iff.mpr ⟨hnew, Block.relabelled_dotted (Block.member?_eq_some_iff.mp hread).2⟩
    exact ⟨b, _, c.genus, member, hb, hb', (LinkRules.memberOf?_eq_some_iff hk).mpr ⟨old, c, hread, hc, rfl⟩,
      (LinkRules.memberOf?_eq_some_iff hk').mpr ⟨new, _, hread', hc', rfl⟩, hread'⟩

theorem rename_keeps_references_iff (r : LinkRules) (old new : String) :
    (∀ w w' ids id b, w.Reached → renameComponent old new w = (.ok ids, w') → w.Registers old id →
      w.blocks.get? id = some b → (r.kindOf? b.genus).any (·.isMember) = true →
      (w.StillRefers r w' new id ↔ (∃ member, b.member? = some (old, member)) ∧ '.' ∉ new.toList)) ∧
    ∀ form edits, form ≠ "" → (∀ e ∈ edits, ordinary e = true) → ∀ w record, tracked form edits = (w, record) →
      ∀ w' ids, renameComponent old new w = (.ok ids, w') → ∀ d ∈ record, d.component = old → d.part ≠ .object →
      ∀ b, w.blocks.get? d.block = some b → (r.kindOf? b.genus).any (·.isMember) = true →
      (w.StillRefers r w' new d.block ↔ '.' ∉ old.toList ∧ '.' ∉ new.toList) := by
  refine ⟨fun w w' ids id b hw hr hown hb hk => stillRefers_iff hw.rooted hr hown hb hk, ?_⟩
  rintro form edits hform hedits w record htracked w' ids hr d hd rfl hpart b hb hk
  have h := Owned.tracked hform hedits
  have hw : (tracked form edits).1.Reached := ⟨form, edits, (tracked_fst form edits).symm⟩
  simp only [htracked] at h hw
  have hown := (h.registers_iff hd (BlockGraph.contains_of_get? hb)).mpr rfl
  rw [stillRefers_iff hw.rooted hr hown hb hk]
  obtain ⟨member, hmember⟩ : ∃ member, b.label = dotted d.component member := by
    have hlabel := h.label_eq d hd b hb
    rw [Derivation.label] at hlabel
    cases hp : d.part with
    | object => exact absurd hp hpart
    | event m | getter m | setter m | method m => exact ⟨m, by rw [hlabel, hp]; rfl⟩
  refine and_congr_left fun _ => ⟨?_, fun hold => ⟨member, Block.member?_eq_some_iff.mpr ⟨hold, hmember⟩⟩⟩
  rintro ⟨m, hm⟩
  exact (Block.member?_eq_some_iff.mp hm).1

def clickEdits : List WorkspaceEdit :=
  [.addComponent "Button1" "Button" "Screen1", .componentEvent buttons "Button1" "Click"]

def buttonRules : LinkRules where
  knownTypes := SortedSet.ofList buttons.types
  kinds := [(GenusName.component, .componentObject), (GenusName.componentEvent, .componentEvent)]
  genera := [(GenusName.component, GenusRules.ofDirectives []), (GenusName.componentEvent, GenusRules.ofDirectives [])]
  propertyTypes := []
  methodParams := []
  methodReturns := []

example : LinkRules.ofLanguage buttons = .ok buttonRules := by rfl

def heardClick : Workspace := (Workspace.new "Screen1").edited clickEdits

lemma tracked_clickEdits : tracked "Screen1" clickEdits = (heardClick, [⟨1, "Button1", .event "Click"⟩]) := by rfl

lemma renameComponent_heardClick (new : String)
    (hr : ComponentTree.rename "Button1" new heardClick.components = (.ok (), t)) :
    ∃ w', renameComponent "Button1" new heardClick = (.ok [1], w') := by
  have howned : heardClick.Owned [⟨1, "Button1", .event "Click"⟩] := by
    have htracked : (tracked "Screen1" clickEdits).1.Owned (tracked "Screen1" clickEdits).2 :=
      Owned.tracked (by decide) (by decide)
    rwa [tracked_clickEdits] at htracked
  have hbutton : heardClick.components.get? "Button1" = some _ := rfl
  obtain ⟨g, -, hrun⟩ := renameComponent_run hr hbutton (howned.labelled hbutton)
  exact ⟨_, hrun⟩

theorem rename_keeps_references_iff_clickEdits :
    "Screen1" ≠ "" ∧ (∀ e ∈ clickEdits, ordinary e = true) ∧ heardClick.Reached ∧
      (∃ w', renameComponent "Button1" "Go" heardClick = (.ok [1], w') ∧
        heardClick.StillRefers buttonRules w' "Go" 1) ∧
      ∃ w', renameComponent "Button1" "My.Button" heardClick = (.ok [1], w') ∧
        ¬ heardClick.StillRefers buttonRules w' "My.Button" 1 := by
  have hform : "Screen1" ≠ "" := by decide
  have hedits : ∀ e ∈ clickEdits, ordinary e = true := by decide
  have hreached : heardClick.Reached := ⟨_, _, rfl⟩
  have hregistered : heardClick.Registers "Button1" 1 := ⟨_, rfl, by decide⟩
  have hblock : heardClick.blocks.get? 1 = some _ := rfl
  obtain ⟨w', hgo⟩ := renameComponent_heardClick "Go" rfl
  obtain ⟨w'', hdotted⟩ := renameComponent_heardClick "My.Button" rfl
  refine ⟨hform, hedits, hreached, ⟨w', hgo, ?_⟩, w'', hdotted, fun hrefers => ?_⟩
  · refine ((rename_keeps_references_iff buttonRules "Button1" "Go").1 _ _ _ _ _ hreached hgo hregistered hblock rfl).mpr ?_
    exact ⟨⟨"Click", Block.member?_eq_some_iff.mpr ⟨by decide, rfl⟩⟩, by decide⟩
  · have hiff := (rename_keeps_references_iff buttonRules "Button1" "My.Button").2 _ _ hform hedits _ _ tracked_clickEdits _ _
      hdotted _ (List.mem_singleton_self _) rfl nofun _ hblock rfl
    exact (hiff.mp hrefers).2 (by decide)

theorem dotted_name_misread :
    ¬ ∀ (r : LinkRules) (form old new : String) (edits : List WorkspaceEdit) (w w' : Workspace) (record : List Derivation)
      (ids : List BlockId) (d : Derivation) (b : Block), tracked form edits = (w, record) →
      renameComponent old new w = (.ok ids, w') → d ∈ record → d.component = old → d.part ≠ .object →
      w.blocks.get? d.block = some b → (r.kindOf? b.genus).any (·.isMember) = true → w.StillRefers r w' new d.block := by
  intro hall
  have hreached : heardClick.Reached := ⟨_, _, rfl⟩
  have hregistered : heardClick.Registers "Button1" 1 := ⟨_, rfl, by decide⟩
  have hblock : heardClick.blocks.get? 1 = some _ := rfl
  obtain ⟨w', hdotted⟩ := renameComponent_heardClick "My.Button" rfl
  have hrefers := hall buttonRules _ _ _ _ _ _ _ _ ⟨1, "Button1", .event "Click"⟩ _ tracked_clickEdits hdotted
    (List.mem_singleton_self _) rfl nofun hblock rfl
  exact ((stillRefers_iff hreached.rooted hdotted hregistered hblock rfl).mp hrefers).2 (by decide)

end Workspace

end BlockStudio
