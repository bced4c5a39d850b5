import BlockStudio.Proofs.Compile.Lockstep
import BlockStudio.Proofs.Workspace.Reached

/-! Lexical scope: the names that are handed down to a block are those that the links up from it bind. -/

namespace BlockStudio

namespace BlockGraph

variable {g : BlockGraph} {b : Block} {p r x y : BlockId} {s t : Socket}

lemma depth_le_of_encloses (h : g.links.Sound) (hr : g.encloses r x = true) : h.depth r ≤ h.depth x := by
  obtain ⟨l, hl⟩ := h.up_ends x
  obtain ⟨m, hm, hs⟩ := hl.of_mem ((encloses_iff h hl).mp hr)
  rw [h.depth_eq hl, h.depth_eq hm]
  simpa using hs.length_le

lemma eq_of_mem_sockets (h : g.links.Sound) (hb : g.get? p = some b) (hs : s ∈ b.sockets) (ht : t ∈ b.sockets)
    (hsx : s.block = some x) (htx : t.block = some x) : s = t := by
  obtain ⟨i, hi⟩ := List.mem_iff_getElem?.mp hs
  obtain ⟨j, hj⟩ := List.mem_iff_getElem?.mp ht
  have hslots := (links_eq_some hb).1
  have hij := (h.held_once p i p j x (by simp [Links.Holds, hslots, hi, hsx])
    (by simp [Links.Holds, hslots, hj, htx])).2
  subst hij
  exact Option.some.inj (hi.symm.trans hj)

end BlockGraph

lemma Scope.binds_push (scope : Scope) (names : List String) (name : String) :
    (scope.push names).binds name = true ↔ name ∈ names ∨ scope.binds name = true := by
  simp [Scope.binds, Scope.push]

namespace Gen

def sameRun (live : Bool) : Lockstep live live where
  rel x y := x = y
  pure _ := rfl
  bind {_ _ x _ f g} hx hf := by
    subst hx
    cases ho : x.outcome with
    | ok a => rw [bind_ok ho, bind_ok ho, hf a ho]
    | error e => rw [bind_error ho, bind_error ho]
  fault _ _ _ := rfl
  note _ _ _ _ := rfl
  hole _ _ _ := rfl
  catchInternal _ hx := hx ▸ rfl

end Gen

namespace Compilation

open Gen

structure Plugged (c : Compilation) (x p : BlockId) (b : Block) (genus : Genus) (s : Socket) : Prop where
  parent : (c.block? x).bind (·.parent) = some p
  block : c.block? p = some b
  genus : c.lang.genus? b.genus = some genus
  socket : s ∈ b.sockets
  holds : s.block = some x

/-- The name is bound for `x` on the way up to `r`, where the last global definition around it ends the search. -/
inductive Bound (c : Compilation) (r : BlockId) : BlockId → String → Prop
  | here {x p b genus s names name} : x ≠ r → c.Plugged x p b genus s → c.bindsIn genus.kind b s.label = some names →
      name ∈ names → Bound c r x name
  | around {x p b genus s name} : x ≠ r → c.Plugged x p b genus s → cutsOff genus.kind s.label = false →
      Bound c r p name → Bound c r x name
  | above {x y name} : x ≠ r → (c.block? x).bind (·.before) = some y → Bound c r y name → Bound c r x name

variable (c : Compilation) (r : BlockId)

def scopeIn (p x : BlockId) (outer : Scope) : Scope :=
  match c.block? p with
  | none => []
  | some b =>
    match c.lang.genus? b.genus, b.sockets.find? fun s => s.block = some x with
    | some genus, some s => c.innerScope genus.kind b outer s.label
    | _, _ => []

def scopeWithin : Nat → BlockId → Scope
  | 0, _ => []
  | n + 1, x =>
    if x = r then []
    else
      match (c.block? x).bind (·.before), (c.block? x).bind (·.parent) with
      | some above, _ => scopeWithin n above
      | none, some p => c.scopeIn p x (scopeWithin n p)
      | none, none => []

def scopeAbove (x : BlockId) : Scope := c.scopeWithin r (c.workspace.blocks.size + 1) x

variable {c r} {n m : ℕ} {l : List BlockId} {id p x y : BlockId} {b : Block} {genus : Genus} {s : Socket}
  {scope : Scope} {name label : String}

lemma scopeWithin_eq (hl : Chain c.workspace.blocks.links.up x l) (hn : l.length < n) (hm : l.length < m) :
    c.scopeWithin r n x = c.scopeWithin r m x := by
  induction hl generalizing n m with
  | @last x hx =>
    obtain ⟨n, rfl⟩ := Nat.exists_eq_add_one.mpr (Nat.zero_lt_of_lt hn)
    obtain ⟨m, rfl⟩ := Nat.exists_eq_add_one.mpr (Nat.zero_lt_of_lt hm)
    obtain ⟨hb, hp⟩ : (c.block? x).bind (·.before) = none ∧ (c.block? x).bind (·.parent) = none :=
      Links.up_eq_none.mp hx
    simp only [scopeWithin, hb, hp]
  | @link x y l hy _ ih =>
    obtain ⟨n, rfl⟩ := Nat.exists_eq_add_one.mpr (Nat.zero_lt_of_lt hn)
    obtain ⟨m, rfl⟩ := Nat.exists_eq_add_one.mpr (Nat.zero_lt_of_lt hm)
    have hrest := ih (Nat.lt_of_succ_lt_succ hn) (Nat.lt_of_succ_lt_succ hm)
    obtain hb | ⟨hb, hp⟩ : (c.block? x).bind (·.before) = some y ∨
        (c.block? x).bind (·.before) = none ∧ (c.block? x).bind (·.parent) = some y := Links.up_eq_some.mp hy
    · simp only [scopeWithin, hb, hrest]
    · simp only [scopeWithin, hb, hp, hrest]

lemma binds_innerScope {kind : BlockKind} : (c.innerScope kind b scope label).binds name = true ↔
    (∃ names, c.bindsIn kind b label = some names ∧ name ∈ names) ∨
      cutsOff kind label = false ∧ scope.binds name = true := by
  rw [innerScope]
  split
  · rename_i hcut
    obtain ⟨rfl, -⟩ : kind = .globalDef ∧ label = "initialize to" := by simpa [cutsOff] using hcut
    simp [hcut, bindsIn, Scope.binds]
  · rename_i hcut
    cases hnames : c.bindsIn kind b label with
    | none => simp [hcut]
    | some names => simp [hcut, Scope.binds_push]

section Linked

lemma scopeAbove_root : c.scopeAbove r r = [] := by simp [scopeAbove, scopeWithin]

variable (h : c.workspace.Linked)

include h

lemma scopeAbove_of_before (hx : x ≠ r) (hb : c.workspace.blocks.links.before x = some y) :
    c.scopeAbove r x = c.scopeAbove r y := by
  obtain ⟨l, hl⟩ := h.sound.up_ends y
  have hlen := BlockGraph.up_length_le h.sound (.link (Links.up_of_before hb) hl)
  have hb' : (c.block? x).bind (·.before) = some y := hb
  rw [List.length_cons] at hlen
  rw [scopeAbove, scopeWithin, if_neg hx]
  simp only [hb']
  exact scopeWithin_eq hl (by omega) (by omega)

lemma scopeAbove_of_parent (hx : x ≠ r) (hp : c.workspace.blocks.links.parent x = some p) :
    c.scopeAbove r x = c.scopeIn p x (c.scopeAbove r p) := by
  obtain ⟨l, hl⟩ := h.sound.up_ends p
  have hlen := BlockGraph.up_length_le h.sound (.link (h.sound.up_of_parent hp) hl)
  have hb' : (c.block? x).bind (·.before) = none := h.sound.before_of_parent hp
  have hp' : (c.block? x).bind (·.parent) = some p := hp
  rw [List.length_cons] at hlen
  rw [scopeAbove, scopeWithin, if_neg hx]
  simp only [hb', hp']
  rw [scopeWithin_eq hl (by omega) (by omega : l.length < c.workspace.blocks.size + 1)]
  rfl

lemma scopeIn_eq (hb : c.block? p = some b) (hg : c.lang.genus? b.genus = some genus) (hs : s ∈ b.sockets)
    (hx : s.block = some x) (outer : Scope) : c.scopeIn p x outer = c.innerScope genus.kind b outer s.label := by
  obtain ⟨t, ht⟩ : ∃ t, b.sockets.find? (fun t => t.block = some x) = some t :=
    Option.isSome_iff_exists.mp (List.find?_isSome.mpr ⟨s, hs, decide_eq_true hx⟩)
  have hsame : s = t := BlockGraph.eq_of_mem_sockets h.sound hb hs (List.mem_of_find?_eq_some ht) hx
    (by simpa using List.find?_some ht)
  simp only [scopeIn, hb, hg, ht, hsame]

lemma scopeAbove_of_chain (hl : Chain c.workspace.blocks.links.after x l) (hr : ∀ z ∈ l, z ≠ r) (hy : y ∈ x :: l) :
    c.scopeAbove r y = c.scopeAbove r x := by
  induction hl with
  | last _ => rw [List.mem_singleton.mp hy]
  | @link x z l hz _ ih =>
    rcases List.mem_cons.mp hy with rfl | hy
    · rfl
    · rw [ih (fun w hw => hr w (List.mem_cons_of_mem z hw)) hy]
      exact scopeAbove_of_before h (hr z List.mem_cons_self) ((h.sound.after_iff x z).mp hz)

lemma scopeAbove_of_mem_stack (hy : y ∈ c.workspace.blocks.stack r) : c.scopeAbove r y = [] := by
  obtain ⟨l, hl⟩ := BlockGraph.after_ends h.sound r
  rw [BlockGraph.stack_eq h.sound hl] at hy
  rw [scopeAbove_of_chain h hl (fun z hz he => hl.notMem (by rwa [he] at hz)) hy, scopeAbove_root]

lemma scopeAbove_of_held (hr : c.workspace.blocks.encloses r x = true) (hb : c.block? x = some b)
    (hg : c.lang.genus? b.genus = some genus) (hs : b.socket? label = some s) (hid : s.block = some id)
    (hy : y ∈ c.workspace.blocks.stack id) :
    c.scopeAbove r y = c.innerScope genus.kind b (c.scopeAbove r x) label := by
  have hchild : id ∈ b.children := Block.mem_children_of_socket? hs hid
  have hbelow : ∀ z ∈ c.workspace.blocks.stack id, z ≠ r := by
    rintro z hz rfl
    have hlt := BlockGraph.depth_lt_of_mem_stack h.sound hb hchild hz
    have hle := BlockGraph.depth_le_of_encloses h.sound hr
    omega
  have hlabel : s.label = label := by simpa using List.find?_some hs
  obtain ⟨l, hl⟩ := BlockGraph.after_ends h.sound id
  have hstack := BlockGraph.stack_eq h.sound hl
  rw [hstack] at hbelow hy
  calc c.scopeAbove r y
      = c.scopeAbove r id := scopeAbove_of_chain h hl (fun z hz => hbelow z (List.mem_cons_of_mem id hz)) hy
    _ = c.scopeIn x id (c.scopeAbove r x) :=
        scopeAbove_of_parent h (hbelow id List.mem_cons_self) (BlockGraph.parent_of_mem_children h.sound hb hchild)
    _ = c.innerScope genus.kind b (c.scopeAbove r x) label := by
        rw [scopeIn_eq h hb hg (List.mem_of_find?_eq_some hs) hid, hlabel]

lemma encloses_of_held (hr : c.workspace.blocks.encloses r x = true) (hb : c.block? x = some b)
    (hs : b.socket? label = some s) (hid : s.block = some id) (hy : y ∈ c.workspace.blocks.stack id) :
    c.workspace.blocks.encloses r y = true :=
  BlockGraph.encloses_trans h.sound (encloses_child h.toWired hr hb (Block.mem_children_of_socket? hs hid))
    (BlockGraph.encloses_of_mem_stack h.sound hy)

lemma exists_plugged (hp : c.workspace.blocks.links.parent x = some p) :
    ∃ b s, c.block? p = some b ∧ s ∈ b.sockets ∧ s.block = some x := by
  obtain ⟨b, hb, hx⟩ := BlockGraph.mem_slots_links.mp (Links.Sound.mem_slots.mpr ((h.sound.held_iff p x).mpr hp))
  obtain ⟨s, hs, hx⟩ := List.mem_filterMap.mp hx
  exact ⟨b, s, hb, hs, hx⟩

lemma binds_scopeIn (hx : x ≠ r) (hp : c.workspace.blocks.links.parent x = some p)
    (ih : (c.scopeAbove r p).binds name = true ↔ c.Bound r p name) :
    (c.scopeIn p x (c.scopeAbove r p)).binds name = true ↔ c.Bound r x name := by
  obtain ⟨b, s, hb, hs, hsx⟩ := exists_plugged h hp
  constructor
  · intro hn
    cases hg : c.lang.genus? b.genus with
    | none =>
      simp only [scopeIn, hb, hg] at hn
      cases hn
    | some genus =>
      have hplug : c.Plugged x p b genus s := ⟨hp, hb, hg, hs, hsx⟩
      rw [scopeIn_eq h hb hg hs hsx, binds_innerScope] at hn
      rcases hn with ⟨names, hnames, hn⟩ | ⟨hcut, hn⟩
      · exact .here hx hplug hnames hn
      · exact .around hx hplug hcut (ih.mp hn)
  · intro hn
    cases hn with
    | here _ hplug hnames hn =>
      obtain rfl := Option.some.inj (hp.symm.trans hplug.parent)
      rw [scopeIn_eq h hplug.block hplug.genus hplug.socket hplug.holds, binds_innerScope]
      exact .inl ⟨_, hnames, hn⟩
    | around _ hplug hcut hn =>
      obtain rfl := Option.some.inj (hp.symm.trans hplug.parent)
      rw [scopeIn_eq h hplug.block hplug.genus hplug.socket hplug.holds, binds_innerScope]
      exact .inr ⟨hcut, ih.mpr hn⟩
    | above _ hb _ =>
      have hnone := h.sound.before_of_parent hp
      cases hnone.symm.trans hb

lemma binds_scopeAbove (r x : BlockId) (name : String) : (c.scopeAbove r x).binds name = true ↔ c.Bound r x name := by
  obtain ⟨l, hl⟩ := h.sound.up_ends x
  induction hl with
  | @last x hx =>
    obtain ⟨hb, hp⟩ : (c.block? x).bind (·.before) = none ∧ (c.block? x).bind (·.parent) = none :=
      Links.up_eq_none.mp hx
    refine iff_of_false (by simp [scopeAbove, scopeWithin, hb, hp, Scope.binds]) fun hn => ?_
    cases hn with
    | here _ hplug => cases hp.symm.trans hplug.parent
    | around _ hplug => cases hp.symm.trans hplug.parent
    | above _ hy => cases hb.symm.trans hy
  | @link x y l hy _ ih =>
    by_cases hx : x = r
    · subst hx
      rw [scopeAbove_root]
      refine iff_of_false (by simp [Scope.binds]) fun hn => ?_
      cases hn <;> contradiction
    rcases Links.up_eq_some.mp hy with hb | ⟨-, hp⟩
    · rw [scopeAbove_of_before h hx hb, ih]
      refine ⟨.above hx hb, fun hn => ?_⟩
      have hnone := h.sound.parent_of_before hb
      cases hn with
      | here _ hplug => cases hnone.symm.trans hplug.parent
      | around _ hplug => cases hnone.symm.trans hplug.parent
      | above _ hz hn => exact Option.some.inj (hz.symm.trans hb) ▸ hn
    · rw [scopeAbove_of_parent h hx hp]
      exact binds_scopeIn h hx hp ih

lemma blockForm_size (hr : c.workspace.blocks.encloses r x = true) (hb : c.block? x = some b) (hid : id ∈ b.children)
    (hy : y ∈ c.workspace.blocks.stack id) (scope : Scope) :
    c.blockForm c.workspace.blocks.size scope y = c.code scope y := by
  have hself : c.Local c.workspace.blocks r := ⟨fun _ _ => rfl, fun _ _ _ _ _ _ => rfl⟩
  have hry := BlockGraph.encloses_trans h.sound (encloses_child h.toWired hr hb hid)
    (BlockGraph.encloses_of_mem_stack h.sound hy)
  have hd := BlockGraph.depth_lt_of_mem_stack h.sound hb hid hy
  exact blockForm_local h.toWired h.toWired hself hry (by rw [depth]; omega) (by omega) scope

lemma code_scopeAbove (hr : c.workspace.blocks.encloses r x = true) (hb : c.block? x = some b)
    (hg : c.lang.genus? b.genus = some genus) :
    c.code (c.scopeAbove r x) x =
      c.genusForm (fun _ y => c.code (c.scopeAbove r y) y) genus b (c.scopeAbove r x) := by
  have hbeside : Beside c (sameRun c.live) (c.blockForm c.workspace.blocks.size)
      (fun _ y => c.code (c.scopeAbove r y) y) genus b (c.scopeAbove r x) := by
    refine ⟨fun label s id hs hid y hy => ?_, fun _ _ _ _ => rfl, fun _ _ => rfl⟩
    rw [← scopeAbove_of_held h hr hb hg hs hid hy]
    exact blockForm_size h hr hb (Block.mem_children_of_socket? hs hid) hy _
  calc c.code (c.scopeAbove r x) x
      = c.genusForm (c.blockForm c.workspace.blocks.size) genus b (c.scopeAbove r x) := by
        rw [code, depth, blockForm]
        simp only [hb, hg]
    _ = c.genusForm (fun _ y => c.code (c.scopeAbove r y) y) genus b (c.scopeAbove r x) := hbeside.genusForm

end Linked

structure Resolves (c : Compilation) (gen : Scope → BlockId → Gen Form) (genus : Genus) (b : Block) (scope : Scope)
    (bound : Prop) (code : Gen Form) : Prop where
  getter_lexical : genus.kind = .variableGet → bound →
    code = pure (reported b (.call "lexical-value" [.word b.label]))
  getter_global : genus.kind = .variableGet → ¬ bound → code = pure (reported b (.call "get-var" [.word b.label]))
  setter_lexical : genus.kind = .variableSet → bound →
    ∀ value, (c.socketExpr gen b scope "to").outcome = .ok value →
      code.outcome = .ok (reported b (.call "set-lexical!" [.word b.label, value]))
  setter_global : genus.kind = .variableSet → ¬ bound →
    ∀ value, (c.socketExpr gen b scope "to").outcome = .ok value →
      code.outcome = .ok (reported b (.call "set-var!" [.word b.label, value]))
  argument_lexical : genus.kind = .argument → bound →
    code = pure (reported b (.call "lexical-value" [.word b.label]))
  argument_unbound : genus.kind = .argument → ¬ bound → code = Gen.fault b.id (.unbound b.label)

section Active

variable (ha : b.active = true) (hb : b.bad = false) {gen : Scope → BlockId → Gen Form} {f : Form}

include ha hb

lemma genusForm_active : c.genusForm gen genus b scope =
    catchInternal c.live .blank (c.kindForm gen genus b scope) >>= fun code => pure (reported b code) := by
  simp [genusForm, ha, hb]

lemma genusForm_of_ok (h : (c.kindForm gen genus b scope).outcome = .ok f) :
    (c.genusForm gen genus b scope).outcome = .ok (reported b f) := by
  rw [genusForm_active ha hb, catchInternal_ok h, bind_ok h]
  rfl

lemma genusForm_of_pure (h : c.kindForm gen genus b scope = pure f) :
    c.genusForm gen genus b scope = pure (reported b f) := by
  rw [genusForm_active ha hb, h]
  rfl

lemma genusForm_of_fault {p : Problem} (h : c.kindForm gen genus b scope = Gen.fault b.id p)
    (hi : p.isInternal = false) : c.genusForm gen genus b scope = Gen.fault b.id p := by
  rw [genusForm_active ha hb, h, catchInternal_error (e := ⟨b.id, p⟩) rfl hi]
  rfl

lemma genusForm_of_setter (hk : genus.kind = .variableSet) {value : Form}
    (hv : (c.socketExpr gen b scope "to").outcome = .ok value) : (c.genusForm gen genus b scope).outcome =
      .ok (reported b (.call (if scope.binds b.label then "set-lexical!" else "set-var!") [.word b.label, value])) := by
  apply genusForm_of_ok ha hb
  simp only [kindForm, hk, setterForm]
  rw [bind_ok hv]
  rfl

lemma resolves_genusForm (gen : Scope → BlockId → Gen Form) :
    c.Resolves gen genus b scope (scope.binds b.label = true) (c.genusForm gen genus b scope) where
  getter_lexical hk hbound := genusForm_of_pure ha hb (by simp only [kindForm, hk, variableForm, hbound, if_true])
  getter_global hk hbound := genusForm_of_pure ha hb (by simp only [kindForm, hk, variableForm, if_neg hbound])
  setter_lexical hk hbound value hv := by
    rw [genusForm_of_setter ha hb hk hv, if_pos hbound]
  setter_global hk hbound value hv := by
    rw [genusForm_of_setter ha hb hk hv, if_neg hbound]
  argument_lexical hk hbound :=
    genusForm_of_pure ha hb (by simp only [kindForm, hk, argumentForm, variableForm, hbound, if_true])
  argument_unbound hk hbound :=
    genusForm_of_fault ha hb (by simp only [kindForm, hk, argumentForm, if_neg hbound]) rfl

end Active

structure Unbound (c : Compilation) (r x : BlockId) (name : String) : Prop where
  below : c.workspace.blocks.encloses r x = true
  isArgument : ∃ b genus, c.block? x = some b ∧ c.lang.genus? b.genus = some genus ∧ genus.kind = .argument ∧
    b.active = true ∧ b.bad = false ∧ b.label = name
  notBound : ¬ c.Bound r x name

def reportsUnbound (R : BlockId → String → Prop) (live : Bool) : Lockstep live live :=
  reporting (fun id p => ∀ name, p = .unbound name → R id name) live

lemma blockForm_reportsUnbound (h : c.workspace.Linked) (n : ℕ) (hid : c.workspace.blocks.encloses r id = true) :
    (reportsUnbound (c.Unbound r) c.live).rel (c.blockForm n (c.scopeAbove r id) id)
      (c.blockForm n (c.scopeAbove r id) id) := by
  refine blockForm_rel (c := c) (K := reportsUnbound (c.Unbound r) c.live)
    (fun scope x => c.workspace.blocks.encloses r x = true ∧ scope = c.scopeAbove r x)
    (fun _ _ _ _ => .noted fun _ _ he => nomatch he) (fun n scope x b genus hx hb hg ih => ?_) ⟨hid, rfl⟩
  obtain ⟨hr, rfl⟩ := hx
  constructor
  · intro label s id hs hid y hy
    exact ih _ y ⟨encloses_of_held h hr hb hs hid hy, (scopeAbove_of_held h hr hb hg hs hid hy).symm⟩
  · intro hk ha hbad hbinds
    have hfree : ¬ c.Bound r x b.label := by
      rw [← binds_scopeAbove h, hbinds]
      exact Bool.false_ne_true
    refine .stop fun _ name he => ?_
    obtain rfl := Problem.unbound.inj he
    rw [h.own_id x b hb]
    exact ⟨hr, ⟨b, genus, hb, hg, hk, ha, hbad, rfl⟩, hfree⟩
  · exact fun _ _ => .stop fun _ _ he => nomatch he

lemma unbound_of_mem_unit (h : c.workspace.Linked) {d : Diagnostic} (hd : d ∈ (c.unit r).2)
    (hp : d.problem = .unbound name) : c.Unbound r d.block name := by
  refine reported_of_mem_unit (R := fun id p => ∀ name, p = .unbound name → c.Unbound r id name) (fun y hy => ?_) hd
    (hp ▸ rfl) name hp
  rw [← scopeAbove_of_mem_stack h hy]
  exact blockForm_reportsUnbound h c.depth (BlockGraph.encloses_of_mem_stack h.sound hy)

theorem scopes_follow_links (hw : c.workspace.Reached) (r : BlockId) :
    (∀ y ∈ c.workspace.blocks.stack r, c.scopeAbove r y = []) ∧
    (∀ x b genus, c.workspace.blocks.encloses r x = true → c.block? x = some b →
      c.lang.genus? b.genus = some genus →
      c.code (c.scopeAbove r x) x =
        c.genusForm (fun _ y => c.code (c.scopeAbove r y) y) genus b (c.scopeAbove r x) ∧
      (b.active = true → b.bad = false →
        c.Resolves (fun _ y => c.code (c.scopeAbove r y) y) genus b (c.scopeAbove r x) (c.Bound r x b.label)
          (c.code (c.scopeAbove r x) x))) ∧
    ∀ d ∈ (c.unit r).2, ∀ name, d.problem = .unbound name → c.Unbound r d.block name := by
  have h := hw.linked
  refine ⟨fun y hy => scopeAbove_of_mem_stack h hy, fun x b genus hr hb hg => ?_,
    fun d hd name hp => unbound_of_mem_unit h hd hp⟩
  have hcode := code_scopeAbove h hr hb hg
  refine ⟨hcode, fun ha hbad => ?_⟩
  rw [hcode, ← binds_scopeAbove h]
  exact resolves_genusForm ha hbad _

def naming : Language :=
  ((((({} : Language).addGenus
    { name := GenusName.procedure, kind := .procedureDef,
      sockets := [{ label := "do", kind := .typed "cmd", command := true }] }).addGenus
    { name := GenusName.argument, kind := .argument, plug := some (.typed "argument") }).addGenus
    { name := "foreach", kind := .forEach, command := true,
      sockets := [{ label := "variable", kind := .typed "argument" }, { label := "in list", kind := .typed "list" },
        { label := "do", kind := .typed "cmd", command := true }] }).addGenus
    { name := "setter", kind := .variableSet, command := true,
      sockets := [{ label := "to", kind := .typed "value" }] }).addGenus
    { name := "getter", kind := .variableGet, plug := some (.typed "value") }

/-- A loop in a procedure. Block 5 is its list, and block 7 is in its body; both get the name that the loop binds. -/
def loopInProcedure : Compilation where
  lang := naming
  rules :=
    { knownTypes := .empty, kinds := [], genera := [], propertyTypes := [], methodParams := [], methodReturns := [] }
  workspace := (Workspace.new "Screen1").edited
    [.addProcedure naming "show" ["all"] false, .addBlock naming "foreach" "", .graph (.connect 1 "do" 3),
      .addBlock naming GenusName.argument "item", .graph (.connect 3 "variable" 4),
      .addBlock naming "getter" "item", .graph (.connect 3 "in list" 5),
      .addBlock naming "setter" "all", .graph (.connect 3 "do" 6),
      .addBlock naming "getter" "item", .graph (.connect 6 "to" 7)]
  live := false

theorem scopes_follow_links_loopInProcedure :
    loopInProcedure.workspace.Reached ∧
    loopInProcedure.code (loopInProcedure.scopeAbove 1 5) 5 = pure (.call "get-var" [.word "item"]) ∧
    loopInProcedure.code (loopInProcedure.scopeAbove 1 7) 7 = pure (.call "lexical-value" [.word "item"]) := by
  have hw : loopInProcedure.workspace.Reached := ⟨_, _, rfl⟩
  have hblocks := (scopes_follow_links hw 1).2.1
  have hlist : ¬ loopInProcedure.Bound 1 5 "item" := by
    rw [← binds_scopeAbove hw.linked]
    decide
  have hbody : loopInProcedure.Bound 1 7 "item" := by
    rw [← binds_scopeAbove hw.linked]
    decide
  exact ⟨hw, ((hblocks 5 _ _ (by decide) rfl rfl).2 rfl rfl).getter_global rfl hlist,
    ((hblocks 7 _ _ (by decide) rfl rfl).2 rfl rfl).getter_lexical rfl hbody⟩

end Compilation

end BlockStudio
