import BlockStudio.Proofs.Component.Walks
import BlockStudio.Proofs.Workspace.Ownership
import Mathlib.Order.Bounds.Defs

/-! Removing a component takes the blocks of its subtree with all that they take along, in whatever order they go. -/

namespace BlockStudio

namespace ComponentTree

variable {t t' : ComponentTree} {name x : String} {cs : List Component}

lemma Rooted.mem_taken_iff (h : t.Rooted) (ht : t.TakenOut name cs t') :
    x ∈ cs.map (·.name) ↔ t.contains x = true ∧ t.Within name x := by
  constructor
  · intro hx
    obtain ⟨c, hc, rfl⟩ := List.mem_map.mp hx
    obtain ⟨y, hy, hw⟩ := (ht.mem_iff c).mp hc
    obtain rfl := keyed_iff.mp h.family.keyed y c hy
    exact ⟨contains_of_get? hy, hw⟩
  · rintro ⟨hx, hw⟩
    obtain ⟨c, hc⟩ := Option.isSome_iff_exists.mp hx
    exact List.mem_map.mpr ⟨c, (ht.mem_iff c).mpr ⟨x, hc, hw⟩, keyed_iff.mp h.family.keyed x c hc⟩

lemma Rooted.not_contains_taken (h : t.Rooted) (ht : t.TakenOut name cs t') (hw : t.Within name x) :
    t'.contains x = false := by
  rw [← Bool.not_eq_true]
  intro hx
  have hkept : x ∈ t'.components.names := NameMap.mem_names_iff.mpr hx
  rw [ht.names_eq, List.mem_filter] at hkept
  have hin : t.contains x = true := NameMap.mem_names_iff.mp hkept.1
  exact of_decide_eq_true hkept.2 ((h.mem_taken_iff ht).mpr ⟨hin, hw⟩)

end ComponentTree

namespace Workspace

variable {w : Workspace} {name : String}

structure Encompasses (w : Workspace) (name : String) (S : Set BlockId) : Prop where
  registered : ∀ x c, w.components.Within name x → w.components.get? x = some c →
    ∀ id ∈ c.blocks, w.blocks.contains id = true → id ∈ S
  closed : ∀ p ∈ S, ∀ y, w.blocks.TakesAlong p y → y ∈ S

lemma Encompasses.cascade {S : Set BlockId} (h : w.Encompasses name S) {i x : BlockId} (hi : i ∈ S)
    (hc : w.blocks.Cascade i x) : x ∈ S := by
  induction hc with
  | refl => exact hi
  | tail _ ht ih => exact h.closed _ ih _ ht

theorem removeComponent_takes_least (hw : w.Reached) (hname : w.components.contains name = true) :
    ∃ ids w', removeComponent name w = (.ok ids, w') ∧ ids.Nodup ∧
      (∀ x, x ∈ ids ↔ w.blocks.contains x = true ∧ w'.blocks.contains x = false) ∧
      IsLeast {S | w.Encompasses name S} {x | x ∈ ids} ∧
      (∀ x, w.components.Within name x → w'.components.contains x = false) ∧
      ∀ x, ¬ w.components.Within name x → w'.components.get? x =
        (w.components.get? x).map fun d => { d with children := d.children.filter (· ≠ name) } := by
  obtain ⟨c, hc⟩ := Option.isSome_iff_exists.mp hname
  obtain ⟨cs, t, hrun, ht⟩ := hw.rooted.takenOut hc
  have hl : ({ w with components := t } : Workspace).Linked := hw.linked
  obtain ⟨ids, g, hremove, hp, hids⟩ := removeBlocks_takes hl (cs.flatMap fun c => c.blocks.toList)
  have howned (i : BlockId) : i ∈ cs.flatMap (fun c => c.blocks.toList) ↔
      ∃ x c, w.components.Within name x ∧ w.components.get? x = some c ∧ i ∈ c.blocks := by
    simp only [List.mem_flatMap, ht.mem_iff]
    grind [SortedSet.mem_toList]
  refine ⟨ids, ⟨g, t⟩, ?run, hp.nodup, fun x => ?gone, ⟨?encompasses, ?least⟩, fun x hx => ?removed, fun x hx => ?kept⟩
  case run =>
    rw [removeComponent, Edit.bind_ok (onComponents_of_eq hrun), hremove]
  case gone =>
    constructor
    · intro hx
      exact ⟨hp.present x hx, by rw [← Bool.not_eq_true, hp.contains_iff]; exact fun hin => hin.2 hx⟩
    · rintro ⟨hin, hout⟩
      by_contra hx
      exact Bool.false_ne_true (hout.symm.trans ((hp.contains_iff x).mpr ⟨hin, hx⟩))
  case encompasses =>
    constructor
    · intro x c hx hc id hid hin
      exact (hids id).mpr ⟨id, (howned id).mpr ⟨x, c, hx, hc, hid⟩, hin, .refl⟩
    · intro p hp y hy
      obtain ⟨i, hi, hin, hc⟩ := (hids p).mp hp
      exact (hids y).mpr ⟨i, hi, hin, hc.tail hy⟩
  case least =>
    intro S hS x hx
    obtain ⟨i, hi, hin, hcascade⟩ := (hids x).mp hx
    obtain ⟨y, c, hy, hc, hid⟩ := (howned i).mp hi
    exact hS.cascade (hS.registered y c hy hc i hid hin) hcascade
  case removed =>
    exact hw.rooted.not_contains_taken ht hx
  case kept =>
    exact ht.get?_eq x fun hin => hx ((hw.rooted.mem_taken_iff ht).mp hin).2

def rows : Language :=
  (((({} : Language).addComponentType { name := "Button", events := [{ name := "Click" }] }).addComponentType
    { name := "Row", properties := [{ name := "Visible", type := "boolean" }] }).addGenus
    { name := GenusName.componentEvent, kind := .componentEvent }).addGenus
    { name := GenusName.componentSetter, kind := .componentSetter, command := true }

/-- A button in a row. A click on it hides the row, and from a block below that another is derived. -/
def hiddenRow : Workspace :=
  (Workspace.new "Screen1").edited
    [.addComponent "Row1" "Row" "Screen1", .addComponent "Button1" "Button" "Row1",
      .componentEvent rows "Button1" "Click", .componentSetter rows "Row1" "Visible",
      .graph (.connect 1 "do" 2), .graph (.addBlock BlockGraph.bracket "" []), .graph (.setNext 2 3),
      .graph (.createStub 3 BlockGraph.bracket []), .graph (.addBlock BlockGraph.bracket "" []),
      .graph (.connect 4 "do" 5), .graph (.addBlock BlockGraph.bracket "" []), .graph (.setNext 4 6)]

theorem removeComponent_takes_least_hiddenRow :
    hiddenRow.Reached ∧ hiddenRow.components.contains "Row1" = true ∧
      ∃ w', removeComponent "Row1" hiddenRow = (.ok [1, 2, 3, 4, 5], w') ∧
        IsLeast {S | hiddenRow.Encompasses "Row1" S} {x | x ∈ [1, 2, 3, 4, 5]} ∧ w'.blocks.rootStacks = [[6]] ∧
        w'.components.contains "Button1" = false ∧ w'.components.contains "Screen1" = true := by
  have hreached : hiddenRow.Reached := ⟨_, _, rfl⟩
  have hname : hiddenRow.components.contains "Row1" = true := by rfl
  obtain ⟨ids, w', hr, -, -, hleast, -⟩ := removeComponent_takes_least hreached hname
  have hrun : removeComponent "Row1" hiddenRow = (.ok [1, 2, 3, 4, 5], (removeComponent "Row1" hiddenRow).2) := by rfl
  obtain ⟨hids, rfl⟩ := Prod.mk.inj (hr.symm.trans hrun)
  obtain rfl := Except.ok.inj hids
  exact ⟨hreached, hname, _, hrun, hleast, rfl, rfl, rfl⟩

end Workspace

end BlockStudio
