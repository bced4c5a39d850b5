import BlockStudio.Compile.Program
import BlockStudio.Proofs.Links.Clump

/-! The code of a clump is made from the clump, the components, and which declarations are there. -/

namespace BlockStudio

namespace Block

variable {b : Block} {x : BlockId} {label : String}

def shown (b : Block) (remark : Option Remark) (watched : Bool) : Block := { b with remark, shouldReport := watched }

lemma shown_label (remark : Option Remark) (watched : Bool) : (b.shown remark watched).label = b.label := rfl

lemma mem_children {s : Socket} (hs : s ∈ b.sockets) (hx : s.block = some x) : x ∈ b.children :=
  List.mem_filterMap.mpr ⟨s, hs, hx⟩

lemma mem_children_of_socket? {s : Socket} (hs : b.socket? label = some s) (hx : s.block = some x) :
    x ∈ b.children :=
  mem_children (List.mem_of_find?_eq_some hs) hx

lemma mem_children_of_child? (h : b.child? label = some x) : x ∈ b.children := by
  obtain ⟨s, hs, hx⟩ := Option.bind_eq_some_iff.mp h
  exact mem_children_of_socket? hs hx

end Block

lemma Workspace.procedureParams_eq {w : Workspace} {id : BlockId} {b : Block} (hb : w.blocks.get? id = some b) :
    w.procedureParams id = ((b.sockets.filter fun s => isArgLabel s.label).filterMap (·.block)).filterMap fun x =>
      (w.blocks.get? x).map (·.label) := by
  simp [procedureParams, hb, List.map_filterMap]

namespace Compilation

variable {c : Compilation} {g : BlockGraph} {gen gen' : Scope → BlockId → Gen Form} {b : Block}

def withBlocks (c : Compilation) (g : BlockGraph) : Compilation := { c with workspace := { c.workspace with blocks := g } }

structure Alike (c : Compilation) (g : BlockGraph) (gen gen' : Scope → BlockId → Gen Form) (b : Block) : Prop where
  stack : ∀ x ∈ b.children, g.stack x = c.workspace.blocks.stack x
  gen : ∀ x ∈ b.children, ∀ y ∈ g.stack x, ∀ scope, gen' scope y = gen scope y
  label : ∀ x ∈ b.children, (g.get? x).map (·.label) = (c.block? x).map (·.label)
  params : (c.withBlocks g).workspace.procedureParams b.id = c.workspace.procedureParams b.id
  stale : (c.withBlocks g).isStale b = c.isStale b

lemma stackForms_congr {scope : Scope} {l : List BlockId} (h : ∀ y ∈ l, gen' scope y = gen scope y) :
    stackForms gen' scope l = stackForms gen scope l := by
  induction l with
  | nil => rfl
  | cons y l ih =>
    rw [stackForms, stackForms, h y List.mem_cons_self, ih fun z hz => h z (List.mem_cons_of_mem y hz)]

namespace Alike

variable (h : Alike c g gen gen' b) (scope : Scope) (label : String)

include h

lemma socketExpr : (c.withBlocks g).socketExpr gen' b scope label = c.socketExpr gen b scope label := by
  rw [Compilation.socketExpr, Compilation.socketExpr]
  cases hs : b.socket? label with
  | none => rfl
  | some s =>
    cases hx : s.block with
    | none =>
      simp only [hx]
      rfl
    | some x =>
      simp only [hx]
      exact h.gen x (Block.mem_children_of_socket? hs hx) x (g.mem_stack_self x) scope

lemma stackOf : (c.withBlocks g).stackOf gen' scope (b.child? label) = c.stackOf gen scope (b.child? label) := by
  cases hx : b.child? label with
  | none => rfl
  | some x =>
    have hc := Block.mem_children_of_child? hx
    have hg : stackForms gen' scope (g.stack x) = stackForms gen scope (g.stack x) :=
      stackForms_congr fun y hy => h.gen x hc y hy scope
    simp only [Compilation.stackOf, ← h.stack x hc]
    exact hg

lemma socketBody : (c.withBlocks g).socketBody gen' b scope label = c.socketBody gen b scope label := by
  rw [Compilation.socketBody, Compilation.socketBody, h.stackOf]

lemma exprs (labels : List String) : (c.withBlocks g).exprs gen' b scope labels = c.exprs gen b scope labels := by
  induction labels with
  | nil => rfl
  | cons label labels ih => rw [Compilation.exprs, Compilation.exprs, h.socketExpr, ih]

lemma socketArgs : (c.withBlocks g).socketArgs gen' b scope = c.socketArgs gen b scope := h.exprs scope _

lemma socketArgsOfType : (c.withBlocks g).socketArgsOfType gen' b scope = c.socketArgsOfType gen b scope :=
  h.exprs scope _

lemma nameIn : (c.withBlocks g).nameIn b label = c.nameIn b label := by
  cases hx : b.child? label with
  | none => simp only [Compilation.nameIn, hx, Option.bind_none]
  | some x =>
    have hl := h.label x (Block.mem_children_of_child? hx)
    have hg : (c.withBlocks g).block? x = g.get? x := rfl
    simp only [Compilation.nameIn, hx, Option.bind_some, hg]
    cases hb : c.block? x with
    | none =>
      rw [hb, Option.map_none, Option.map_eq_none_iff] at hl
      rw [hl]
    | some d =>
      rw [hb, Option.map_some, Option.map_eq_some_iff] at hl
      obtain ⟨d', hd', hl⟩ := hl
      rw [hd']
      exact congrArg pure hl

lemma handlerBody (params : List String) (scope : Option Scope) :
    (c.withBlocks g).handlerBody gen' b params scope = c.handlerBody gen b params scope := by
  cases scope with
  | none => rfl
  | some scope => exact h.stackOf (scope.push params) "do"

lemma handler (scope : Option Scope) : (c.withBlocks g).handler gen' b scope = c.handler gen b scope := by
  simp only [Compilation.handler, h.handlerBody]
  rfl

lemma kindForm (genus : Genus) : (c.withBlocks g).kindForm gen' genus b scope = c.kindForm gen genus b scope := by
  unfold Compilation.kindForm
  cases genus.kind with
  | number => rfl
  | text => rfl
  | truth => rfl
  | falsity => rfl
  | color => rfl
  | branch => simp only [branchForm, h.socketExpr, h.socketBody]
  | choose => simp only [chooseForm, h.socketExpr]
  | whileLoop => simp only [whileForm, h.socketExpr, h.socketBody]
  | forEach => simp only [forEachForm, h.nameIn, h.socketExpr, h.socketBody]
  | forRange => simp only [forRangeForm, h.nameIn, h.socketExpr, h.socketBody]
  | globalDef => simp only [h.socketExpr]
  | variableGet => rfl
  | variableSet => simp only [setterForm, h.socketExpr]
  | argument => rfl
  | procedureDef => simp only [procedureForm, h.params, h.socketBody]
  | procedureWithResult => simp only [functionForm, h.params, h.socketExpr]
  | procedureCall => simp only [callForm, h.stale, h.socketArgs]
  | componentEvent => exact h.handler (some scope)
  | componentGetter => rfl
  | componentSetter =>
    simp only [propertySetForm, h.socketExpr]
    rfl
  | componentMethod =>
    simp only [methodForm, h.socketArgs]
    rfl
  | componentObject => rfl
  | componentTypeGetter => simp only [typeGetForm, h.socketExpr]
  | componentTypeSetter =>
    simp only [typeSetForm, h.socketExpr]
    rfl
  | componentTypeMethod =>
    simp only [typeMethodForm, h.socketExpr, h.socketArgsOfType]
    rfl
  | primitive =>
    simp only [primitiveForm, h.socketArgs]
    rfl

lemma genusForm (genus : Genus) : (c.withBlocks g).genusForm gen' genus b scope = c.genusForm gen genus b scope := by
  simp only [Compilation.genusForm, h.handler, h.kindForm]
  rfl

end Alike

section Shown

variable (c : Compilation) (gen : Scope → BlockId → Gen Form) (b : Block) (remark : Option Remark) (watched : Bool)
  (scope : Scope)

lemma socketExpr_shown (label : String) :
    c.socketExpr gen (b.shown remark watched) scope label = c.socketExpr gen b scope label := rfl

lemma exprs_shown (labels : List String) :
    c.exprs gen (b.shown remark watched) scope labels = c.exprs gen b scope labels := by
  induction labels with
  | nil => rfl
  | cons label labels ih => rw [exprs, exprs, socketExpr_shown, ih]

lemma socketArgs_shown : c.socketArgs gen (b.shown remark watched) scope = c.socketArgs gen b scope :=
  exprs_shown c gen b remark watched scope _

lemma socketArgsOfType_shown :
    c.socketArgsOfType gen (b.shown remark watched) scope = c.socketArgsOfType gen b scope :=
  exprs_shown c gen b remark watched scope _

lemma literal_shown (token : Option String) (p : Problem) :
    literal (b.shown remark watched) token p = literal b token p := by
  cases token with
  | none => rfl
  | some t => rfl

lemma kindForm_shown (genus : Genus) :
    c.kindForm gen genus (b.shown remark watched) scope = c.kindForm gen genus b scope := by
  unfold kindForm
  rw [Block.shown_label]
  cases genus.kind with
  | number => exact literal_shown b remark watched _ _
  | color => exact literal_shown b remark watched _ _
  | procedureCall =>
    simp only [callForm, socketArgs_shown]
    rfl
  | componentMethod =>
    simp only [methodForm, socketArgs_shown]
    rfl
  | componentTypeMethod =>
    simp only [typeMethodForm, socketArgsOfType_shown]
    rfl
  | primitive =>
    simp only [primitiveForm, socketArgs_shown]
    rfl
  | _ => rfl

lemma genusForm_plain (genus : Genus) : c.genusForm gen genus b.plain scope = c.genusForm gen genus b scope := by
  have hkind : c.kindForm gen genus b.plain scope = c.kindForm gen genus b scope :=
    kindForm_shown c gen b none b.shouldReport scope genus
  simp only [genusForm, hkind]
  rfl

end Shown

structure Local (c : Compilation) (g : BlockGraph) (r : BlockId) : Prop where
  same : BlockGraph.SameBelow c.workspace.blocks g r
  declared : ∀ x b d, c.workspace.blocks.encloses r x = true → c.block? x = some b → b.declaringParent = some d →
    g.contains d = c.workspace.blocks.contains d

section Local

variable {r id : BlockId} (h : c.workspace.blocks.Wired) (h' : g.Wired) (hl : c.Local g r)

include hl

lemma Local.isStale (hr : c.workspace.blocks.encloses r id = true) (hb : c.block? id = some b) :
    (c.withBlocks g).isStale b = c.isStale b := by
  rw [Compilation.isStale, Compilation.isStale]
  cases hd : b.declaringParent with
  | none => rfl
  | some d =>
    have hc := hl.declared id b d hr hb hd
    rw [BlockGraph.contains_eq_isSome, BlockGraph.contains_eq_isSome] at hc
    show (g.get? d).isNone = (c.workspace.blocks.get? d).isNone
    rw [← Option.not_isSome, ← Option.not_isSome, hc]

include h

omit hl in
lemma encloses_child (hr : c.workspace.blocks.encloses r id = true) (hb : c.block? id = some b) {x : BlockId}
    (hx : x ∈ b.children) : c.workspace.blocks.encloses r x = true := by
  have hu := BlockGraph.up_of_mem_children h.sound hb hx
  exact BlockGraph.encloses_trans h.sound hr (BlockGraph.encloses_of_up h.sound hu)

lemma Local.label (hr : c.workspace.blocks.encloses r id = true) (hb : c.block? id = some b) :
    ∀ x ∈ b.children, (g.get? x).map (·.label) = (c.block? x).map (·.label) :=
  fun _ hx => hl.same.map_eq (fun _ => rfl) (encloses_child h hr hb hx)

lemma Local.procedureParams (hr : c.workspace.blocks.encloses r id = true) (hb : c.block? id = some b) :
    (c.withBlocks g).workspace.procedureParams b.id = c.workspace.procedureParams b.id := by
  obtain ⟨b', hb', hp⟩ := hl.same.exists_same hr hb
  have hs : b'.sockets = b.sockets := Block.eq_of_plain (fun _ => rfl) hp
  rw [h.own_id id b hb, Workspace.procedureParams_eq hb', Workspace.procedureParams_eq hb, hs]
  refine List.filterMap_congr fun x hx => hl.label h hr hb x ?_
  obtain ⟨s, hs, hx⟩ := List.mem_filterMap.mp hx
  exact Block.mem_children (List.mem_filter.mp hs).1 hx

include h'

lemma Local.stack_child (hr : c.workspace.blocks.encloses r id = true) (hb : c.block? id = some b) :
    ∀ x ∈ b.children, g.stack x = c.workspace.blocks.stack x :=
  fun _ hx => hl.same.stack_eq h.sound h'.sound (encloses_child h hr hb hx)

lemma Local.alike (hr : c.workspace.blocks.encloses r id = true) (hb : c.block? id = some b)
    (hgen : ∀ x ∈ b.children, ∀ y ∈ g.stack x, ∀ scope, gen' scope y = gen scope y) : c.Alike g gen gen' b where
  stack := hl.stack_child h h' hr hb
  gen := hgen
  label := hl.label h hr hb
  params := hl.procedureParams h hr hb
  stale := hl.isStale hr hb

/-- Blocks nest less deep than either graph has blocks, so the bounds do not matter. -/
lemma blockForm_local {n m : ℕ} (hr : c.workspace.blocks.encloses r id = true)
    (hn : c.workspace.blocks.size < n + h.sound.depth id) (hm : g.size < m + h'.sound.depth id) (scope : Scope) :
    (c.withBlocks g).blockForm m scope id = c.blockForm n scope id := by
  induction n generalizing m id scope with
  | zero =>
    have hd := BlockGraph.depth_le_size h.sound id
    omega
  | succ n ih =>
    obtain ⟨m, rfl⟩ : ∃ k, m = k + 1 := by
      have hd := BlockGraph.depth_le_size h'.sound id
      exact Nat.exists_eq_add_one.mpr (by omega)
    have hg : (c.withBlocks g).block? id = g.get? id := rfl
    simp only [blockForm, hg]
    cases hb : c.block? id with
    | none =>
      rw [hl.same.none_same hr hb]
      rfl
    | some b =>
      obtain ⟨b', hb', hp⟩ := hl.same.exists_same hr hb
      have hgenus : b'.genus = b.genus := Block.eq_of_plain (fun _ => rfl) hp
      have hchildren : b'.children = b.children := Block.eq_of_plain (fun _ => rfl) hp
      have halike : c.Alike g (c.blockForm n) ((c.withBlocks g).blockForm m) b := by
        apply hl.alike h h' hr hb
        intro x hx y hy scope
        have hd' := BlockGraph.depth_lt_of_mem_stack h'.sound hb' (hchildren ▸ hx) hy
        rw [hl.stack_child h h' hr hb x hx] at hy
        have hd := BlockGraph.depth_lt_of_mem_stack h.sound hb hx hy
        have hry := BlockGraph.encloses_trans h.sound (encloses_child h hr hb hx)
          (BlockGraph.encloses_of_mem_stack h.sound hy)
        exact ih hry (by omega) (by omega) scope
      have hlang : (c.withBlocks g).lang.genus? b.genus = c.lang.genus? b.genus := rfl
      simp only [hb', hgenus, hlang]
      cases c.lang.genus? b.genus with
      | none => rfl
      | some genus =>
        calc (c.withBlocks g).genusForm ((c.withBlocks g).blockForm m) genus b' scope
            = (c.withBlocks g).genusForm ((c.withBlocks g).blockForm m) genus b'.plain scope :=
              (genusForm_plain _ _ _ _ _).symm
          _ = (c.withBlocks g).genusForm ((c.withBlocks g).blockForm m) genus b scope := by
              rw [hp, genusForm_plain]
          _ = c.genusForm (c.blockForm n) genus b scope := halike.genusForm scope genus

lemma code_local (hr : c.workspace.blocks.encloses r id = true) (scope : Scope) :
    (c.withBlocks g).code scope id = c.code scope id := by
  apply blockForm_local h h' hl hr
  · rw [depth]
    omega
  · have hd : (c.withBlocks g).depth = g.size + 1 := rfl
    omega

lemma clumpForm_local : (c.withBlocks g).clumpForm r = c.clumpForm r := by
  have hr := BlockGraph.encloses_self h.sound r
  have hstack : (c.withBlocks g).workspace.blocks.stack r = c.workspace.blocks.stack r :=
    hl.same.stack_eq h.sound h'.sound hr
  have hforms : stackForms (c.withBlocks g).code [] (c.workspace.blocks.stack r) =
      stackForms c.code [] (c.workspace.blocks.stack r) :=
    stackForms_congr fun y hy => code_local h h' hl (BlockGraph.encloses_of_mem_stack h.sound hy) []
  rw [clumpForm, clumpForm, hstack]
  split
  · rename_i he
    rw [← he, hforms]
  · exact code_local h h' hl hr []

lemma unit_local : (c.withBlocks g).unit r = c.unit r := by
  rw [Compilation.unit, Compilation.unit, clumpForm_local h h' hl]
  rfl

end Local

end Compilation

end BlockStudio
