import BlockStudio.Proofs.Links.Labels
import BlockStudio.Proofs.Workspace.Reached

/-! The counter of ids. Edits move it on and make new blocks only under the ids that it passes. -/

namespace BlockStudio

namespace BlockGraph

variable {g g' g'' : BlockGraph} {id x : BlockId}

structure Onward (g g' : BlockGraph) : Prop where
  nextId_le : g.nextId ≤ g'.nextId
  contains : ∀ x, x ≤ g.nextId → g'.contains x = true → g.contains x = true

namespace Onward

lemma refl (g : BlockGraph) : Onward g g := ⟨Nat.le_refl _, fun _ _ h => h⟩

lemma trans (h : Onward g g') (h' : Onward g' g'') : Onward g g'' where
  nextId_le := Nat.le_trans h.nextId_le h'.nextId_le
  contains x hx hin := h.contains x hx (h'.contains x (Nat.le_trans hx h.nextId_le) hin)

lemma of_contains_eq (hn : g'.nextId = g.nextId) (hc : ∀ x, g'.contains x = g.contains x) : Onward g g' :=
  ⟨Nat.le_of_eq hn.symm, fun x _ hin => (hc x).symm.trans hin⟩

lemma modify (f : Block → Block) : Onward g (g.modify id f) := of_contains_eq rfl fun _ => contains_modify f

lemma change (f : Block → Block) : Onward g (BlockGraph.change id f g).2 := by
  obtain ⟨e, he⟩ | ⟨-, he⟩ := change_cases g id f
  · exact he ▸ refl g
  · exact he ▸ modify f

end Onward

lemma Steady.onward (h : Steady g g') : Onward g g' := ⟨h.nextId_le, fun _ => h.contains⟩

lemma onward_run (h : g.WellLinked) (e : GraphEdit) : Onward g (e.run g).2 := by
  have hfault : ∀ {α : Type} {r : Except EditError α × BlockGraph}, Onward g r.2 →
      Onward g (GraphEdit.run.fault r).2 := fun {_ r} hr => (GraphEdit.fault_snd r).symm ▸ hr
  cases e with
  | addBlock genus label extra => exact (Steady.addBlock g genus label extra).onward
  | createStub declaring genus sockets => exact hfault (Steady.createStub g declaring genus sockets).onward
  | connect parent socket child => exact hfault (Steady.connect g parent socket child).onward
  | setNext prev next => exact hfault (Steady.setNext h prev next).onward
  | disconnect child => exact hfault (Steady.disconnect h child).onward
  | removeBlock id => exact hfault (Steady.removeBlock h id).onward
  | relabel id label => exact hfault (.change _)
  | setActive id on => exact hfault (.change _)
  | setBad id on => exact hfault (.change _)
  | setShouldReport id on => exact hfault (.change _)
  | annotate id remark => exact .modify _
  | adapt id => exact .of_contains_eq relinked_adapt.1 fun _ => relinked_adapt.contains_eq

end BlockGraph

namespace Workspace

variable {w : Workspace} {i : BlockId}

lemma kept_onward (w : Workspace) : Kept fun w' => w'.Linked ∧ w.blocks.Onward w'.blocks where
  graph e _ hw := ⟨BlockGraph.WellLinked.run hw.1 e, hw.2.trans (BlockGraph.onward_run hw.1 e)⟩
  tree _ _ hw := hw
  owner _ _ _ hw := hw

lemma onward_run (h : w.Linked) (e : WorkspaceEdit) : w.blocks.Onward (e.run w).blocks :=
  ((kept_onward w).run ⟨h, .refl _⟩ e).2

end Workspace

namespace WorkspaceEdit

variable {w : Workspace} {i : BlockId}

def answer? (w : Workspace) : WorkspaceEdit → Option BlockId
  | addBlock lang genus label => (Workspace.addBlock lang genus label w).1.toOption
  | graph (.addBlock genus label extra) => some (w.blocks.addBlock genus label extra).2
  | graph (.createStub declaring genus sockets) => (BlockGraph.createStub declaring genus sockets w.blocks).1.toOption
  | _ => none

def made (w : Workspace) (e : WorkspaceEdit) : List ℕ :=
  List.range' (w.blocks.nextId + 1) ((e.run w).blocks.nextId - w.blocks.nextId)

lemma mem_made {e : WorkspaceEdit} {i : ℕ} (h : w.Linked) :
    i ∈ e.made w ↔ w.blocks.nextId < i ∧ i ≤ (e.run w).blocks.nextId := by
  have hle := (Workspace.onward_run h e).nextId_le
  rw [made, List.mem_range'_1]
  omega

lemma contains_added (g : BlockGraph) (genus : Genus) (label : String) (extra : List SocketDef) :
    (g.addBlock genus label extra).1.contains (g.nextId + 1) = true := by
  obtain ⟨b, -, -, hget⟩ := g.addBlock_get? genus label extra
  exact BlockGraph.contains_of_get? ((hget (g.nextId + 1)).trans (if_pos rfl))

lemma answer?_eq_some {e : WorkspaceEdit} (h : e.answer? w = some i) :
    i = w.blocks.nextId + 1 ∧ (e.run w).blocks.nextId = w.blocks.nextId + 1 ∧ (e.run w).blocks.contains i = true := by
  cases e with
  | addBlock lang genus label =>
    rw [answer?, Workspace.addBlock] at h
    rw [run, Workspace.addBlock]
    cases hg : lang.requireGenus genus with
    | error err =>
      rw [hg, Edit.lift_error_bind] at h
      cases h
    | ok g =>
      rw [Edit.lift_ok_bind]
      rw [hg, Edit.lift_ok_bind] at h
      obtain rfl := Option.some.inj h
      exact ⟨rfl, rfl, contains_added w.blocks g label []⟩
  | graph e =>
    cases e with
    | addBlock genus label extra =>
      obtain rfl := Option.some.inj h
      exact ⟨rfl, rfl, contains_added w.blocks genus label extra⟩
    | createStub d genus sockets =>
      rw [answer?] at h
      rw [run, GraphEdit.run, GraphEdit.fault_snd]
      obtain ⟨err, hr⟩ | ⟨b, -, hr⟩ := BlockGraph.createStub_cases w.blocks d genus sockets
      · rw [hr] at h
        cases h
      · rw [hr] at h ⊢
        obtain rfl := Option.some.inj h
        exact ⟨rfl, rfl, (BlockGraph.contains_modify _).trans (contains_added w.blocks genus b.label sockets)⟩
    | _ => cases h
  | _ => cases h

end WorkspaceEdit

end BlockStudio
