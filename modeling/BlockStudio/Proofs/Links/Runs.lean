import BlockStudio.Proofs.Links.Connect
import BlockStudio.Proofs.Links.Creation
import BlockStudio.Proofs.Links.Removal

namespace BlockStudio

inductive GraphEdit where
  | addBlock (genus : Genus) (label : String) (extra : List SocketDef)
  | createStub (declaring : BlockId) (genus : Genus) (sockets : List SocketDef)
  | connect (parent : BlockId) (socket : String) (child : BlockId)
  | setNext (prev next : BlockId)
  | disconnect (child : BlockId)
  | removeBlock (id : BlockId)
  | relabel (id : BlockId) (label : String)
  | setActive (id : BlockId) (on : Bool)
  | setBad (id : BlockId) (on : Bool)
  | setShouldReport (id : BlockId) (on : Bool)
  | annotate (id : BlockId) (remark : Option Remark)
  | adapt (id : BlockId)

def GraphEdit.run (g : BlockGraph) : GraphEdit → Option EditError × BlockGraph
  | addBlock genus label extra => (none, (g.addBlock genus label extra).1)
  | createStub declaring genus sockets => fault (BlockGraph.createStub declaring genus sockets g)
  | connect parent socket child => fault (BlockGraph.connect parent socket child g)
  | setNext prev next => fault (BlockGraph.setNext prev next g)
  | disconnect child => fault (BlockGraph.disconnect child g)
  | removeBlock id => fault (BlockGraph.removeBlock id g)
  | relabel id label => fault (BlockGraph.relabel id label g)
  | setActive id on => fault (BlockGraph.setActive id on g)
  | setBad id on => fault (BlockGraph.setBad id on g)
  | setShouldReport id on => fault (BlockGraph.setShouldReport id on g)
  | annotate id remark => (none, g.annotate id remark)
  | adapt id => (none, g.adapt id)
where
  fault {α : Type} (r : Except EditError α × BlockGraph) : Option EditError × BlockGraph :=
    match r with
    | (.ok _, g) => (none, g)
    | (.error e, g) => (some e, g)

lemma GraphEdit.fault_snd {α : Type} (r : Except EditError α × BlockGraph) : (run.fault r).2 = r.2 := by
  rcases r with ⟨_ | _, g⟩
  · rfl
  · rfl

namespace BlockGraph

variable {g : BlockGraph} {a b c d id k p x y : BlockId} {l : List BlockId}

def edited (edits : List GraphEdit) (g : BlockGraph) : BlockGraph := edits.foldl (fun g e => (e.run g).2) g

structure InOrder (g : BlockGraph) : Prop where
  own_id : ∀ k b, g.get? k = some b → b.id = k ∧ k ≤ g.nextId
  held_iff : ∀ p c, (∃ b, g.get? p = some b ∧ c ∈ b.children) ↔ ∃ b, g.get? c = some b ∧ b.parent = some p
  held_once : ∀ p q (b d : Block) (i j : ℕ) (s t : Socket) c, g.get? p = some b → g.get? q = some d →
    b.sockets[i]? = some s → d.sockets[j]? = some t → s.block = some c → t.block = some c → p = q ∧ i = j
  after_iff : ∀ x y, (∃ b, g.get? x = some b ∧ b.after = some y) ↔ ∃ b, g.get? y = some b ∧ b.before = some x
  one_up : ∀ k b, g.get? k = some b → b.parent = none ∨ b.before = none
  named_present : ∀ k b x, g.get? k = some b → x ∈ b.named → g.contains x = true
  climb_ends : ∀ x, ∃ l, Chain (fun y => (g.get? y).bind Block.up) x l ∧
    g.topOfClump x = (x :: l).getLast (List.cons_ne_nil x l) ∧ ∀ c, g.encloses c x = true ↔ c ∈ x :: l

lemma WellLinked.inOrder (h : g.WellLinked) : g.InOrder where
  own_id k b hb := ⟨h.own_id k b hb, h.id_le k b hb⟩
  held_iff p c := by
    rw [← mem_slots_links, Links.Sound.mem_slots, h.sound.held_iff]
    simp only [links, Option.bind_eq_some_iff]
  held_once p q b d i j s t c hb hd hs ht hsc htc := by
    apply h.sound.held_once p i q j c
    · simp [Links.Holds, (links_eq_some hb).1, hs, hsc]
    · simp [Links.Holds, (links_eq_some hd).1, ht, htc]
  after_iff x y := by simpa only [links, Option.bind_eq_some_iff] using h.sound.after_iff x y
  one_up k b hb := by
    obtain ⟨_, hp, hu, _⟩ := links_eq_some hb
    simpa only [hp, hu] using h.sound.one_up k
  named_present k b x hb hx := by
    obtain ⟨_, hp, hu, ha⟩ := links_eq_some hb
    simp only [Block.named, List.mem_append, Option.mem_toList] at hx
    rcases hx with (((hx | hx) | hx) | hx) | hx
    · obtain ⟨i, hi⟩ : ∃ i, g.links.Holds k i x := by
        rw [← Links.Sound.mem_slots]
        exact mem_slots_links.mpr ⟨b, hb, hx⟩
      exact contains_held h.sound hi
    · exact contains_up h.sound (h.sound.up_of_parent (hp.trans hx))
    · exact contains_up h.sound (Links.up_of_before (hu.trans hx))
    · exact contains_after h.sound (ha.trans hx)
    · exact h.declared k b x hb hx
  climb_ends x := by
    obtain ⟨l, hl⟩ := h.sound.up_ends x
    exact ⟨l, hl.congr fun y _ => up_links.symm, topOfClump_eq h.sound hl, fun c => encloses_iff h.sound hl⟩

lemma WellLinked.run (h : g.WellLinked) (e : GraphEdit) : (e.run g).2.WellLinked := by
  have hfault : ∀ {α : Type} {r : Except EditError α × BlockGraph}, r.2.WellLinked →
      (GraphEdit.run.fault r).2.WellLinked := by
    rintro α ⟨_ | _, g⟩ hr
    · exact hr
    · exact hr
  cases e with
  | addBlock genus label extra => exact h.addBlock genus label extra
  | createStub declaring genus sockets => exact hfault (h.createStub declaring genus sockets)
  | connect parent socket child => exact hfault (h.connect parent socket child)
  | setNext prev next => exact hfault (h.setNext prev next)
  | disconnect child => exact hfault (h.disconnect child)
  | removeBlock id => exact hfault (h.removeBlock id)
  | relabel id label => exact hfault (h.change (f := fun b => { b with label }) (fun _ => rfl) id)
  | setActive id on => exact hfault (h.change (f := fun b => { b with active := on }) (fun _ => rfl) id)
  | setBad id on => exact hfault (h.change (f := fun b => { b with bad := on }) (fun _ => rfl) id)
  | setShouldReport id on => exact hfault (h.change (f := fun b => { b with shouldReport := on }) (fun _ => rfl) id)
  | annotate id remark => exact h.annotate id remark
  | adapt id => exact h.adapt id

lemma wellLinked_edited (h : g.WellLinked) (edits : List GraphEdit) : (g.edited edits).WellLinked := by
  induction edits generalizing g with
  | nil => exact h
  | cons e edits ih => exact ih (h.run e)

lemma run_failed (h : g.WellLinked) {e : GraphEdit} {err : EditError} (hf : (e.run g).1 = some err) :
    (e.run g).2 = g := by
  have hfault : ∀ {α : Type} {r : Except EditError α × BlockGraph} {P : Prop}, (∃ e, r = (.error e, g)) ∨ P →
      (P → ∃ a g', r = (.ok a, g')) → (GraphEdit.run.fault r).1 = some err → (GraphEdit.run.fault r).2 = g := by
    rintro α r P (⟨e, rfl⟩ | hp) hok hr
    · rfl
    · obtain ⟨a, g', rfl⟩ := hok hp
      cases hr
  have hchange : ∀ id (f : Block → Block), (GraphEdit.run.fault (change id f g)).1 = some err →
      (GraphEdit.run.fault (change id f g)).2 = g := fun id f => hfault (change_cases g id f) fun hr => ⟨_, _, hr.2⟩
  cases e with
  | addBlock => cases hf
  | createStub d genus sockets =>
    exact hfault (createStub_cases g d genus sockets) (fun ⟨_, _, hr⟩ => ⟨_, _, hr⟩) hf
  | connect parent socket child =>
    exact hfault (connect_cases g parent socket child) (fun ⟨_, _, _, hr⟩ => ⟨_, _, hr⟩) hf
  | setNext prev next => exact hfault (setNext_cases h prev next) (fun ⟨_, _, _, hr⟩ => ⟨_, _, hr⟩) hf
  | disconnect child => exact hfault (disconnect_cases h child) (fun ⟨_, _, hr, _⟩ => ⟨_, _, hr⟩) hf
  | removeBlock id => exact hfault (removeBlock_cases g id) (fun ⟨_, hr⟩ => ⟨_, _, hr⟩) hf
  | relabel id label => exact hchange id _ hf
  | setActive id on => exact hchange id _ hf
  | setBad id on => exact hchange id _ hf
  | setShouldReport id on => exact hchange id _ hf
  | annotate => cases hf
  | adapt => cases hf

theorem edits_keep_order (edits : List GraphEdit) :
    (empty.edited edits).InOrder ∧ ∀ (e : GraphEdit) (err : EditError),
      (e.run (empty.edited edits)).1 = some err → (e.run (empty.edited edits)).2 = empty.edited edits := by
  have h := wellLinked_edited empty_wellLinked edits
  exact ⟨h.inOrder, fun e err hf => run_failed h hf⟩

end BlockGraph

end BlockStudio
