import BlockStudio.Proofs.Collection.FirstMatch
import BlockStudio.Proofs.Compile.Scoping

namespace BlockStudio

namespace BlockGraph

variable {g : BlockGraph} {x y : BlockId}

def Around (g : BlockGraph) (x y : BlockId) : Prop := ∃ b id, g.get? x = some b ∧ id ∈ b.children ∧ y ∈ g.stack id

def Acyclic (g : BlockGraph) : Prop := ∀ x, ¬ Relation.TransGen g.Around x x

lemma acyclic_of_sound (h : g.links.Sound) : g.Acyclic := by
  have hdeeper (x y : BlockId) (hxy : Relation.TransGen g.Around x y) : h.depth x < h.depth y := by
    induction hxy with
    | single hstep =>
      obtain ⟨b, id, hb, hid, hy⟩ := hstep
      exact depth_lt_of_mem_stack h hb hid hy
    | tail _ hstep ih =>
      obtain ⟨b, id, hb, hid, hy⟩ := hstep
      exact ih.trans (depth_lt_of_mem_stack h hb hid hy)
  exact fun x hx => Nat.lt_irrefl _ (hdeeper x x hx)

end BlockGraph

namespace Compilation

open Gen

variable {c : Compilation} {gen : Scope → BlockId → Gen Form} {genus : Genus} {b : Block} {scope : Scope} {f : Form}
  {args : List Form} {label : String} {labels : List String} {id : BlockId} {n m : ℕ}

lemma blockForm_eq_of_around (hac : c.workspace.blocks.Acyclic) {above : List BlockId} (hd : above.Nodup)
    (ha : ∀ y ∈ above, c.workspace.blocks.contains y = true ∧ Relation.TransGen c.workspace.blocks.Around y id)
    (hn : c.workspace.blocks.size < n + above.length) (hm : c.workspace.blocks.size < m + above.length)
    (scope : Scope) : c.blockForm n scope id = c.blockForm m scope id := by
  have hlength := BlockGraph.length_le_size_of_subset hd fun y hy => (ha y hy).1
  induction n generalizing m id above scope with
  | zero => omega
  | succ n ih =>
    obtain ⟨m, rfl⟩ : ∃ k, m = k + 1 := Nat.exists_eq_add_one.mpr (by omega)
    simp only [blockForm]
    split
    · rfl
    · rename_i b hb
      split
      · rfl
      · rename_i genus _
        have hbeside : Beside c (sameRun c.live) (c.blockForm n) (c.blockForm m) genus b scope := by
          refine ⟨fun label s x hs hx y hy => ?_, fun _ _ _ _ => rfl, fun _ _ => rfl⟩
          have hstep : c.workspace.blocks.Around id y := ⟨b, x, hb, Block.mem_children_of_socket? hs hx, hy⟩
          have hnew : id ∉ above := fun hid => hac id (ha id hid).2
          have habove : ∀ z ∈ id :: above, c.workspace.blocks.contains z = true ∧
              Relation.TransGen c.workspace.blocks.Around z y := by
            refine List.forall_mem_cons.mpr ⟨⟨BlockGraph.contains_of_get? hb, .single hstep⟩, fun z hz => ?_⟩
            exact ⟨(ha z hz).1, (ha z hz).2.tail hstep⟩
          have hlonger := BlockGraph.length_le_size_of_subset (List.nodup_cons.mpr ⟨hnew, hd⟩) fun z hz =>
            (habove z hz).1
          rw [List.length_cons] at hlonger
          exact ih (List.nodup_cons.mpr ⟨hnew, hd⟩) habove (by rw [List.length_cons]; omega)
            (by rw [List.length_cons]; omega) _ hlonger
        exact hbeside.genusForm

lemma code_of_acyclic (hac : c.workspace.blocks.Acyclic) (hb : c.block? id = some b)
    (hg : c.lang.genus? b.genus = some genus) (scope : Scope) : c.code scope id = c.genusForm c.code genus b scope := by
  have hbeside : Beside c (sameRun c.live) (c.blockForm c.workspace.blocks.size) c.code genus b scope := by
    refine ⟨fun label s x hs hx y hy => ?_, fun _ _ _ _ => rfl, fun _ _ => rfl⟩
    have hstep : c.workspace.blocks.Around id y := ⟨b, x, hb, Block.mem_children_of_socket? hs hx, hy⟩
    refine blockForm_eq_of_around hac (List.nodup_singleton id) ?_ ?_ ?_ _
    · intro z hz
      obtain rfl := List.mem_singleton.mp hz
      exact ⟨BlockGraph.contains_of_get? hb, .single hstep⟩
    · exact Nat.lt_succ_self _
    · rw [depth]
      omega
  calc c.code scope id
      = c.genusForm (c.blockForm c.workspace.blocks.size) genus b scope := by
        rw [code, depth, blockForm]
        simp only [hb, hg]
    _ = c.genusForm c.code genus b scope := hbeside.genusForm

def heldForm (c : Compilation) (scope : Scope) (s : Socket) : Option Form :=
  match s.block with
  | some child => (c.code scope child).outcome.toOption
  | none => some Yail.null

def LinesUp (c : Compilation) (scope : Scope) (b : Block) (args : List Form) : Prop :=
  args.map some = b.sockets.map (c.heldForm scope)

def callOf (c : Compilation) (genus : Genus) (b : Block) (args : List Form) : Option Form :=
  match genus.kind with
  | .procedureCall => some (.list (.call "get-var" [.word b.label] :: args))
  | .componentMethod => b.member?.map fun m => .call "call-component-method"
      [.symbol m.1, .symbol m.2, Yail.runtimeList args, c.coercionTypes b]
  | .primitive => genus.primitive.map fun p => .call "call-yail-primitive"
      [.word p.op, Yail.runtimeList args, c.coercionTypes b, .str p.description]
  | _ => none

lemma heldForm_of_socketExpr (h : (c.socketExpr c.code b scope label).outcome = .ok f) :
    (b.socket? label).bind (c.heldForm scope) = some f := by
  rw [socketExpr] at h
  cases hs : b.socket? label with
  | none =>
    rw [hs] at h
    cases h
  | some s =>
    rw [hs] at h
    dsimp only at h
    rw [Option.bind_some, heldForm]
    cases hx : s.block with
    | some child =>
      rw [hx] at h
      dsimp only at h ⊢
      rw [h]
      rfl
    | none =>
      rw [hx] at h
      dsimp only at h ⊢
      split at h
      · split at h
        · exact congrArg some (Except.ok.inj h)
        · cases h
      · obtain ⟨-, -, hnull⟩ := exists_of_bind_ok h
        exact congrArg some (Except.ok.inj hnull)

lemma heldForms_of_exprs (h : (c.exprs c.code b scope labels).outcome = .ok args) :
    args.map some = labels.map fun label => (b.socket? label).bind (c.heldForm scope) := by
  induction labels generalizing args with
  | nil =>
    obtain rfl := Except.ok.inj h
    rfl
  | cons label labels ih =>
    obtain ⟨e, he, hrest⟩ := exists_of_bind_ok h
    obtain ⟨es, hes, rfl⟩ := exists_of_bind_pure_ok hrest
    rw [List.map_cons, List.map_cons, heldForm_of_socketExpr he, ih hes]

lemma exists_args_of_kindForm (hk : genus.kind ∈ [BlockKind.procedureCall, .componentMethod, .primitive])
    (h : (c.kindForm gen genus b scope).outcome = .ok f) :
    ∃ args, (c.socketArgs gen b scope).outcome = .ok args ∧ c.callOf genus b args = some f := by
  simp only [List.mem_cons, List.not_mem_nil, or_false] at hk
  rw [kindForm] at h
  obtain hk | hk | hk := hk
  · simp only [hk, callForm] at h
    split at h
    · obtain ⟨_, hstale, -⟩ := exists_of_bind_ok h
      cases hstale
    obtain ⟨args, hargs, rfl⟩ := exists_of_bind_pure_ok h
    exact ⟨args, hargs, by rw [callOf, hk]⟩
  · simp only [hk, methodForm] at h
    obtain ⟨m, hm, hcall⟩ := exists_of_bind_ok h
    obtain ⟨args, hargs, rfl⟩ := exists_of_bind_pure_ok hcall
    refine ⟨args, hargs, ?_⟩
    rw [memberOf] at hm
    cases hmember : b.member? with
    | none =>
      rw [hmember] at hm
      cases hm
    | some m' =>
      rw [hmember] at hm
      obtain rfl := Except.ok.inj hm
      simp only [callOf, hk, hmember, Option.map_some]
  · simp only [hk, primitiveForm] at h
    cases hp : genus.primitive with
    | none =>
      rw [hp] at h
      cases h
    | some p =>
      rw [hp] at h
      obtain ⟨args, hargs, rfl⟩ := exists_of_bind_pure_ok h
      exact ⟨args, hargs, by simp only [callOf, hk, hp, Option.map_some]⟩

lemma exists_kindForm_of_genusForm (hactive : b.active = true) (hbad : b.bad = false)
    (h : (c.genusForm gen genus b scope).outcome = .ok f) (hf : f.isBlank = false) :
    ∃ code, (c.kindForm gen genus b scope).outcome = .ok code ∧ f = reported b code := by
  rw [genusForm_active hactive hbad] at h
  obtain ⟨code, hcode, rfl⟩ := exists_of_bind_pure_ok h
  refine ⟨code, ?_, rfl⟩
  cases hx : (c.kindForm gen genus b scope).outcome with
  | ok code' =>
    rw [catchInternal_ok hx, hx] at hcode
    exact hcode
  | error e =>
    cases hi : e.problem.isInternal with
    | false =>
      rw [catchInternal_error hx hi, hx] at hcode
      cases hcode
    | true =>
      rw [catchInternal_internal hx hi] at hcode
      obtain rfl := Except.ok.inj hcode
      rw [reported, if_neg (by simp [Form.isBlank, Form.blank])] at hf
      cases hf

theorem arguments_line_up_iff (hac : c.workspace.blocks.Acyclic) (hb : c.block? id = some b)
    (hg : c.lang.genus? b.genus = some genus)
    (hk : genus.kind ∈ [BlockKind.procedureCall, .componentMethod, .primitive]) (hactive : b.active = true)
    (hbad : b.bad = false) (hrun : (c.code scope id).outcome = .ok f) (hf : f.isBlank = false) :
    ∃ args call, c.callOf genus b args = some call ∧ f = reported b call ∧ args.length = b.sockets.length ∧
      args.map some = b.sockets.map (fun s => (b.socket? s.label).bind (c.heldForm scope)) ∧
      (c.LinesUp scope b args ↔
        ∀ s ∈ b.sockets, ∀ t, b.socket? s.label = some t → c.heldForm scope t = c.heldForm scope s) ∧
      ((b.sockets.map (·.label)).Nodup → c.LinesUp scope b args) := by
  rw [code_of_acyclic hac hb hg] at hrun
  obtain ⟨call, hcall, rfl⟩ := exists_kindForm_of_genusForm hactive hbad hrun hf
  obtain ⟨args, hargs, hof⟩ := exists_args_of_kindForm hk hcall
  have hforms : args.map some = b.sockets.map (fun s => (b.socket? s.label).bind (c.heldForm scope)) := by
    rw [heldForms_of_exprs hargs, List.map_map]
    rfl
  have hiff : c.LinesUp scope b args ↔
      ∀ s ∈ b.sockets, ∀ t, b.socket? s.label = some t → c.heldForm scope t = c.heldForm scope s := by
    rw [LinesUp, hforms, List.map_inj_left]
    refine forall₂_congr fun s hs => ?_
    obtain ⟨t, ht⟩ := exists_find?_key Socket.label hs
    have ht : b.socket? s.label = some t := ht
    simp [ht]
  refine ⟨args, call, hof, rfl, ?_, hforms, hiff, fun hd => hiff.mpr fun s hs t ht => ?_⟩
  · have hlength := congrArg List.length hforms
    rwa [List.length_map, List.length_map] at hlength
  · have hs' : b.socket? s.label = some s := find?_key_of_nodup Socket.label hd hs
    rw [Option.some.inj (ht.symm.trans hs')]

def procedures : Language :=
  ((({} : Language).addGenus { name := GenusName.procedureWithResult, kind := .procedureWithResult }).addGenus
    { name := GenusName.argument, kind := .argument }).addGenus { name := GenusName.caller, kind := .procedureCall }
    |>.addGenus { name := "number", kind := .number }

def twinCall : Compilation where
  lang := procedures
  rules :=
    { knownTypes := .empty, kinds := [], genera := [], propertyTypes := [], methodParams := [], methodReturns := [] }
  workspace := (Workspace.new "Screen1").edited [.addProcedure procedures "f" ["x", "x"] true,
    .addProcedureCall procedures 1, .addBlock procedures "number" "1", .graph (.connect 4 "x" 5)]
  live := false

lemma twinCall_acyclic : twinCall.workspace.blocks.Acyclic :=
  BlockGraph.acyclic_of_sound (Workspace.Reached.linked ⟨_, _, rfl⟩).sound

def twinSocket (held : Option BlockId) : Socket := { label := "x", kind := .typed "value", block := held }

def twinBlock : Block where
  id := 4
  genus := GenusName.caller
  label := "f"
  sockets := [twinSocket (some 5), twinSocket none]
  declaringParent := some 1

def twinForm : Form := .list [.call "get-var" [.word "f"], .word "1", .word "1"]

lemma twinCall_block : twinCall.block? 4 = some twinBlock := by rfl

lemma twinCall_code : (twinCall.code [] 4).outcome = .ok twinForm := by rfl

theorem arguments_line_up_iff_twinCall : twinCall.workspace.blocks.Acyclic ∧ twinCall.block? 4 = some twinBlock ∧
    (twinCall.code [] 4).outcome = .ok twinForm ∧ ∃ args, twinForm = .list (.call "get-var" [.word "f"] :: args) ∧
      args.length = 2 ∧ ¬ twinCall.LinesUp [] twinBlock args := by
  have hg : twinCall.lang.genus? twinBlock.genus = some { name := GenusName.caller, kind := .procedureCall } := by rfl
  obtain ⟨args, call, hof, hform, hlength, -, hiff, -⟩ :=
    arguments_line_up_iff twinCall_acyclic twinCall_block hg (by decide) rfl rfl twinCall_code rfl
  obtain rfl := Option.some.inj hof
  refine ⟨twinCall_acyclic, twinCall_block, twinCall_code, args, hform, hlength, fun hlines => ?_⟩
  have hsame := hiff.mp hlines (twinSocket none) (List.mem_cons_of_mem _ List.mem_cons_self) (twinSocket (some 5)) rfl
  have hvalue : twinCall.heldForm [] (twinSocket (some 5)) = some (.word "1") := by rfl
  have hone : "1" = "*the-null-value*" := Form.word.inj (Option.some.inj (hvalue.symm.trans hsame))
  exact absurd hone (by decide)

theorem twin_argument_repeated :
    ¬ ∀ (c : Compilation) (scope : Scope) (id : BlockId) (b : Block) (genus : Genus) (f : Form),
      c.workspace.blocks.Acyclic → c.block? id = some b → c.lang.genus? b.genus = some genus →
      genus.kind ∈ [BlockKind.procedureCall, .componentMethod, .primitive] → b.active = true → b.bad = false →
      (c.code scope id).outcome = .ok f → f.isBlank = false →
        ∃ args call, c.callOf genus b args = some call ∧ f = reported b call ∧ c.LinesUp scope b args := by
  intro hall
  have hg : twinCall.lang.genus? twinBlock.genus = some { name := GenusName.caller, kind := .procedureCall } := by rfl
  obtain ⟨args, call, hof, hform, hlines⟩ :=
    hall twinCall [] 4 twinBlock _ twinForm twinCall_acyclic twinCall_block hg (by decide) rfl rfl twinCall_code rfl
  obtain rfl := Option.some.inj hof
  have hargs : [Form.word "1", .word "1"] = args := by
    simpa [twinForm, reported, twinBlock] using hform
  subst hargs
  have hnull : twinCall.heldForm [] (twinSocket none) = some Yail.null := rfl
  have hlast : some (Form.word "1") = twinCall.heldForm [] (twinSocket none) :=
    (List.cons.inj (List.cons.inj hlines).2).1
  have hone : "1" = "*the-null-value*" := Form.word.inj (Option.some.inj (hlast.trans hnull))
  exact absurd hone (by decide)

end Compilation

end BlockStudio
