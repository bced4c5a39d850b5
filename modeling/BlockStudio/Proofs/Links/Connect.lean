import BlockStudio.Proofs.Links.Edits

namespace BlockStudio.BlockGraph

variable {g g' : BlockGraph} {b : Block} {a c id n p t x y : BlockId} {l : List BlockId} {label : String}

lemma requireFree_eq_ok : g.requireFree c = .ok () ↔
    ∃ b, g.get? c = some b ∧ b.parent = none ∧ b.before = none := by
  cases hb : g.get? c with
  | none => simp [requireFree, require, hb, bind, Except.bind]
  | some b =>
    cases hp : b.parent with
    | none => cases hu : b.before <;> simp [requireFree, require, hb, bind, Except.bind, hp, hu, pure, Except.pure]
    | some p => simp [requireFree, require, hb, bind, Except.bind, hp]

lemma free_of_requireFree (hf : g.requireFree c = .ok ()) :
    g.contains c = true ∧ g.links.parent c = none ∧ g.links.before c = none := by
  obtain ⟨b, hb, hp, hu⟩ := requireFree_eq_ok.mp hf
  obtain ⟨_, hpar, hbef, _⟩ := links_eq_some hb
  exact ⟨contains_of_get? hb, hpar.trans hp, hbef.trans hu⟩

lemma requireOpenSocket_eq_ok : g.requireOpenSocket p label = .ok () ↔
    ∃ b s, g.get? p = some b ∧ b.socket? label = some s ∧ s.block = none := by
  cases hb : g.get? p with
  | none => simp [requireOpenSocket, require, hb, bind, Except.bind]
  | some b =>
    cases hs : b.socket? label with
    | none => simp [requireOpenSocket, require, hb, bind, Except.bind, hs]
    | some s => cases ho : s.block <;> simp [requireOpenSocket, require, hb, bind, Except.bind, hs, ho, pure, Except.pure]

def plugged (g : BlockGraph) (parent : BlockId) (label : String) (child : BlockId) : BlockGraph :=
  (g.modify parent fun b => { b with sockets := Socket.fill label child b.sockets }).modify child
    fun b => { b with parent := some parent }

lemma connect_cases (g : BlockGraph) (p : BlockId) (label : String) (c : BlockId) :
    (∃ e, connect p label c g = (.error e, g)) ∨
      g.requireFree c = .ok () ∧ g.encloses c p = false ∧ g.requireOpenSocket p label = .ok () ∧
        connect p label c g = (.ok (), (g.plugged p label c).adapt p) := by
  cases hf : g.requireFree c with
  | error e => exact .inl ⟨e, by simp [connect, hf]⟩
  | ok _ =>
    cases he : g.encloses c p with
    | true => exact .inl ⟨.cycle p c, by simp [connect, hf, he]⟩
    | false =>
      cases ho : g.requireOpenSocket p label with
      | error e => exact .inl ⟨e, by simp [connect, hf, he, ho]⟩
      | ok _ => exact .inr ⟨rfl, rfl, rfl, by simp [connect, hf, he, ho]; rfl⟩

lemma relinked_plugged : Relinked g (g.plugged p label c) :=
  (Relinked.refl.modify fun b => by simp [Block.bare, Socket.bare_fill]).modify fun _ => rfl

lemma links_plugged (hb : g.get? p = some b) {s : Socket} (hs : b.socket? label = some s) (hn : s.block = none)
    (hc : g.contains c = true) :
    ∃ i, (g.links.slots p)[i]? = some none ∧ (g.plugged p label c).links = g.links.plug p i c := by
  obtain ⟨i, hi, hf⟩ := Socket.block_fill (c := c) hs
  have hsl := (links_eq_some hb).1
  refine ⟨i, by rw [hsl, hi, hn], ?_⟩
  rw [plugged, links_setParent (by rw [contains_modify, hc]), links_setSockets hb, hf, Links.plug, hsl]

lemma WellLinked.connect (h : g.WellLinked) (p : BlockId) (label : String) (c : BlockId) :
    (connect p label c g).2.WellLinked := by
  rcases connect_cases g p label c with ⟨e, he⟩ | ⟨hf, hcy, ho, hr⟩
  · rwa [he]
  · obtain ⟨hc, hpar, hbef⟩ := free_of_requireFree hf
    obtain ⟨pb, s, hp, hs, hn⟩ := requireOpenSocket_eq_ok.mp ho
    obtain ⟨i, hi, hl⟩ := links_plugged hp hs hn hc
    obtain ⟨l, hup⟩ := h.sound.up_ends p
    have hnot : c ∉ p :: l := by
      rw [← encloses_iff h.sound hup, hcy]
      exact Bool.false_ne_true
    have hs' := Links.plug_sound h.sound hi hpar hbef hup hnot
    rw [hr]
    exact (h.relink relinked_plugged (hl ▸ hs')).same sameJoints_adapt

lemma change_eq (hc : g.contains id = true) (f : Block → Block) : change id f g = (.ok (), g.modify id f) := by
  obtain ⟨b, hb⟩ := contains_iff.mp hc
  simp [change, require_eq_ok.mpr hb, Edit.modify]

lemma change_cases (g : BlockGraph) (id : BlockId) (f : Block → Block) :
    (∃ e, change id f g = (.error e, g)) ∨ g.contains id = true ∧ change id f g = (.ok (), g.modify id f) := by
  cases hc : g.require id with
  | error e => exact .inl ⟨e, by simp [change, hc]⟩
  | ok b => exact .inr ⟨contains_of_get? (require_eq_ok.mp hc), change_eq (contains_of_get? (require_eq_ok.mp hc)) f⟩

/-- The graph with the stack from `n` to `t` set under `a`, whose block below so far is `old`. -/
def grafted (g : BlockGraph) (a n t : BlockId) (old : Option BlockId) : BlockGraph :=
  let g := (g.modify a fun b => { b with after := some n }).modify n fun b => { b with before := some a }
  match old with
  | none => g
  | some o => (g.modify t fun b => { b with after := some o }).modify o fun b => { b with before := some t }

lemma restacked_grafted {old : Option BlockId} : Restacked g (g.grafted a n t old) := by
  have hr : Restacked g ((g.modify a fun b => { b with after := some n }).modify n
      fun b => { b with before := some a }) := by
    refine (Restacked.refl.modify ?_).modify ?_
    · exact fun _ => rfl
    · exact fun _ => rfl
  cases old with
  | none => exact hr
  | some o =>
    refine (hr.modify ?_).modify ?_
    · exact fun _ => rfl
    · exact fun _ => rfl

lemma links_grafted (h : g.links.Sound) (ha : g.contains a = true) (hn : g.contains n = true)
    (ht : g.contains t = true) (hta : t ≠ a) (hend : g.links.after t = none) (hb : g.links.before n = none) :
    (g.grafted a n t (g.links.after a)).links = g.links.graft a n t := by
  have hl : ((g.modify a fun b => { b with after := some n }).modify n fun b => { b with before := some a }).links =
      { g.links with
        before := Function.update g.links.before n (some a)
        after := Function.update g.links.after a (some n) } := by
    rw [links_setBefore (by rw [contains_modify, hn]), links_setAfter ha]
  cases ho : g.links.after a with
  | none =>
    refine hl.trans (Links.ext_slots (fun _ => rfl) (fun _ => rfl) (fun x => ?_) fun x => ?_)
    · simp [Links.graft, ho, Function.update_apply]
    · simp only [Links.graft, ho, Function.update_apply]
      grind
  | some o =>
    have hoc : g.contains o = true := contains_after h ho
    have hon : o ≠ n := by
      rintro rfl
      simp [(h.after_iff a o).mp ho] at hb
    simp only [grafted]
    rw [links_setBefore (by simp [contains_modify, hoc]), links_setAfter (by simp [contains_modify, ht]), hl]
    refine Links.ext_slots (fun _ => rfl) (fun _ => rfl) (fun x => ?_) fun x => ?_
    · simp only [Links.graft, ho, Function.update_apply, Option.some.injEq]
      grind
    · simp only [Links.graft, ho, Function.update_apply]
      grind

def lowest (g : BlockGraph) (n : BlockId) : BlockId := (g.stack n).getLast?.getD n

lemma lowest_eq (h : g.links.Sound) (hl : Chain g.links.after n l) :
    g.lowest n = (n :: l).getLast (List.cons_ne_nil n l) := by
  rw [lowest, stack_eq h hl, List.getLast?_eq_some_getLast (List.cons_ne_nil n l), Option.getD_some]

lemma contains_lowest (h : g.links.Sound) (hn : g.contains n = true) : g.contains (g.lowest n) = true := by
  obtain ⟨l, hl⟩ := after_ends h n
  refine contains_of_mem_stack h hn ?_
  rw [lowest_eq h hl, stack_eq h hl]
  exact List.getLast_mem _

lemma setNext_cases (h : g.WellLinked) (a n : BlockId) :
    (∃ e, setNext a n g = (.error e, g)) ∨
      g.requireFree n = .ok () ∧ g.contains a = true ∧ g.encloses n a = false ∧
        setNext a n g = (.ok (), g.grafted a n (g.lowest n) (g.links.after a)) := by
  cases hf : g.requireFree n with
  | error e => exact .inl ⟨e, by simp [setNext, hf]⟩
  | ok _ =>
    cases hr : g.require a with
    | error e => exact .inl ⟨e, by simp [setNext, hf, hr]⟩
    | ok b =>
      cases he : g.encloses n a with
      | true => exact .inl ⟨.cycle a n, by simp [setNext, hf, hr, he]⟩
      | false =>
        have hb := require_eq_ok.mp hr
        have hac := contains_of_get? hb
        obtain ⟨nb, hn, _⟩ := requireFree_eq_ok.mp hf
        have hnc := contains_of_get? hn
        have hab := (links_eq_some hb).2.2.2
        refine .inr ⟨rfl, hac, rfl, ?_⟩
        simp only [setNext, Edit.get_bind, hf, Edit.lift_ok_bind, hr, he, Bool.false_eq_true, if_false]
        rw [Edit.bind_ok (change_eq hac _), Edit.bind_ok (change_eq ((contains_modify _).trans hnc) _), hab]
        cases ho : b.after with
        | none => rfl
        | some o =>
          -- both ends of the splice are there, so that the last two changes go through
          have htc : g.contains (g.lowest n) = true := contains_lowest h.sound hnc
          have hoc : g.contains o = true := contains_after h.sound (hab.trans ho)
          dsimp only
          rw [Edit.bind_ok (change_eq (by simpa only [contains_modify, lowest] using htc) _),
            change_eq (by simpa only [contains_modify] using hoc)]
          rfl

lemma notMem_of_not_encloses (h : g.links.Sound) (hcy : g.encloses n a = false) (hm : Chain g.links.after n l) :
    a ∉ n :: l := by
  intro ha
  obtain ⟨k, hk⟩ := h.up_ends a
  have hn : g.encloses n a = true := (encloses_iff h hk).mpr (h.mem_up_of_mem_after hm ha hk)
  exact Bool.false_ne_true (hcy.symm.trans hn)

lemma links_setNext (h : g.links.Sound) (hf : g.requireFree n = .ok ()) (ha : g.contains a = true)
    (hcy : g.encloses n a = false) :
    (g.grafted a n (g.lowest n) (g.links.after a)).links = g.links.graft a n (g.lowest n) := by
  obtain ⟨hn, -, hb⟩ := free_of_requireFree hf
  obtain ⟨m, hm⟩ := after_ends h n
  have ht := (lowest_eq h hm).symm
  have hta : g.lowest n ≠ a := fun he => notMem_of_not_encloses h hcy hm (he ▸ ht ▸ List.getLast_mem _)
  exact links_grafted h ha hn (contains_lowest h hn) hta (ht ▸ hm.getLast_eq_none) hb

lemma WellLinked.setNext (h : g.WellLinked) (a n : BlockId) : (setNext a n g).2.WellLinked := by
  rcases setNext_cases h a n with ⟨e, he⟩ | ⟨hf, ha, hcy, hr⟩
  · rwa [he]
  · obtain ⟨-, hp, hb⟩ := free_of_requireFree hf
    obtain ⟨l, hup⟩ := h.sound.up_ends a
    obtain ⟨m, hm⟩ := after_ends h.sound n
    have hnot : n ∉ a :: l := by
      rw [← encloses_iff h.sound hup, hcy]
      exact Bool.false_ne_true
    have hs := Links.graft_sound h.sound hp hb hm (lowest_eq h.sound hm).symm hup hnot
    rw [hr]
    exact h.relink restacked_grafted.relinked (links_setNext h.sound hf ha hcy ▸ hs)

lemma disconnect_of_parent (h : g.WellLinked) (hb : g.get? c = some b) (hp : b.parent = some p) :
    ∃ g', disconnect c g = (.ok (), g') ∧ Relinked g g' ∧ g'.links = g.links.cut c := by
  have hc := contains_of_get? hb
  obtain ⟨_, hpar, _, _⟩ := links_eq_some hb
  rw [hp] at hpar
  obtain ⟨i, hi⟩ := (h.sound.held_iff p c).mpr hpar
  let g₁ := g.modify p fun p => { p with sockets := Socket.replace c none p.sockets }
  let g₂ := g₁.modify c fun b => { b with parent := none }
  have hrel : Relinked g g₂ := by
    refine (Relinked.refl.modify ?_).modify ?_
    · exact fun b => by simp [Block.bare, Socket.bare_replace]
    · exact fun _ => rfl
  have hlinks : g₂.links = g.links.cut c := by
    rw [links_setParent ((contains_modify _).trans hc), links_replace (contains_of_holds hi),
      Links.cut_of_parent h.sound hpar]
  refine ⟨g₂.adapt p, by simp [disconnect, require_eq_ok.mpr hb, hp]; rfl, hrel.trans relinked_adapt, ?_⟩
  rw [sameJoints_adapt.links_eq, hlinks]

lemma disconnect_of_before (h : g.WellLinked) (hb : g.get? c = some b) (hp : b.parent = none)
    (hu : b.before = some a) :
    ∃ g', disconnect c g = (.ok (), g') ∧ Restacked g g' ∧ g'.links = g.links.cut c := by
  have hc := contains_of_get? hb
  obtain ⟨_, _, hbef, _⟩ := links_eq_some hb
  rw [hu] at hbef
  have ha := contains_of_after ((h.sound.after_iff a c).mpr hbef)
  let g₁ := g.modify a fun a => { a with after := none }
  let g₂ := g₁.modify c fun b => { b with before := none }
  have hrel : Restacked g g₂ := by
    refine (Restacked.refl.modify ?_).modify ?_
    · exact fun _ => rfl
    · exact fun _ => rfl
  refine ⟨g₂, by simp [disconnect, require_eq_ok.mpr hb, hp, hu]; rfl, hrel, ?_⟩
  rw [links_setBefore ((contains_modify _).trans hc), links_setAfter ha, Links.cut_of_before h.sound hbef]

lemma disconnect_present (h : g.WellLinked) (hc : g.contains c = true) :
    ∃ g', disconnect c g = (.ok (), g') ∧ Relinked g g' ∧ g'.links = g.links.cut c := by
  obtain ⟨b, hb⟩ := contains_iff.mp hc
  cases hp : b.parent with
  | some p => exact disconnect_of_parent h hb hp
  | none =>
    cases hu : b.before with
    | some a =>
      obtain ⟨g', hr, hrel, hl⟩ := disconnect_of_before h hb hp hu
      exact ⟨g', hr, hrel.relinked, hl⟩
    | none =>
      obtain ⟨_, hpar, hbef, _⟩ := links_eq_some hb
      refine ⟨g, by simp [disconnect, require_eq_ok.mpr hb, hp, hu]; rfl, .refl, ?_⟩
      rw [Links.cut_of_free h.sound (hpar.trans hp) (hbef.trans hu)]

lemma disconnect_cases (h : g.WellLinked) (c : BlockId) :
    (∃ e, disconnect c g = (.error e, g)) ∨
      g.contains c = true ∧
        ∃ g', disconnect c g = (.ok (), g') ∧ Relinked g g' ∧ g'.links = g.links.cut c := by
  cases hr : g.require c with
  | error e => exact .inl ⟨e, by simp [disconnect, hr]⟩
  | ok b =>
    have hc := contains_of_get? (require_eq_ok.mp hr)
    exact .inr ⟨hc, disconnect_present h hc⟩

lemma WellLinked.disconnect (h : g.WellLinked) (c : BlockId) : (disconnect c g).2.WellLinked := by
  rcases disconnect_cases h c with ⟨e, he⟩ | ⟨_, g', hr, hrel, hl⟩
  · rwa [he]
  · rw [hr]
    exact h.relink hrel (hl ▸ Links.cut_sound h.sound)

end BlockStudio.BlockGraph
