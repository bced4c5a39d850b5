import BlockStudio.Proofs.Compile.Locality
import BlockStudio.Proofs.Compile.Outcome

/-! Two generators side by side: what their single steps keep holds of all the code they make. -/

namespace BlockStudio

def Problem.isAround : Problem → Bool
  | unbound _ | staleCall | missingBlock => true
  | _ => false

namespace Compilation

variable (c : Compilation)

def bindsIn (kind : BlockKind) (b : Block) (label : String) : Option (List String) :=
  match kind with
  | .procedureDef => if label = "do" then some (c.workspace.procedureParams b.id) else none
  | .procedureWithResult => if label = "return" then some (c.workspace.procedureParams b.id) else none
  | .componentEvent => if label = "do" then eventParams? c.lang c.workspace b else none
  | .forEach | .forRange =>
    if label = "do" then ((b.child? "variable").bind c.block?).map fun name => [name.label] else none
  | _ => none

def cutsOff (kind : BlockKind) (label : String) : Bool := kind = .globalDef && label = "initialize to"

def innerScope (kind : BlockKind) (b : Block) (scope : Scope) (label : String) : Scope :=
  if cutsOff kind label then []
  else
    match c.bindsIn kind b label with
    | some names => scope.push names
    | none => scope

def inMode (live : Bool) : Compilation := { c with live }

end Compilation

namespace Gen

variable {α β : Type}

def hole (live : Bool) (id : BlockId) (label : String) (optional : Bool) : Gen Form :=
  if live then
    if optional then pure Yail.null else fault id (.emptySocket label)
  else do
    note (Fault.diagnostic live ⟨id, .emptySocket label⟩)
    return Yail.null

/-- A relation between a run in one mode and a run in another that all steps of the generator keep. -/
structure Lockstep (live live' : Bool) where
  rel : ∀ {α : Type}, Gen α → Gen α → Prop
  pure : ∀ {α : Type} (a : α), rel (pure a) (pure a)
  bind : ∀ {α β : Type} {x y : Gen α} {f g : α → Gen β}, rel x y →
    (∀ a, x.outcome = .ok a → rel (f a) (g a)) → rel (x >>= f) (y >>= g)
  fault : ∀ {α : Type} (id : BlockId) (p : Problem), p.isAround = false → rel (fault id p : Gen α) (fault id p)
  note : ∀ (id : BlockId) (p : Problem), p = .badBlock ∨ p.isInternal = true → p.isAround = false →
    rel (note (Fault.diagnostic live ⟨id, p⟩)) (note (Fault.diagnostic live' ⟨id, p⟩))
  hole : ∀ (id : BlockId) (label : String) (optional : Bool),
    rel (hole live id label optional) (hole live' id label optional)
  catchInternal : ∀ {α : Type} {x y : Gen α} (a : α), rel x y →
    rel (catchInternal live a x) (catchInternal live' a y)

def reporting (R : BlockId → Problem → Prop) (live : Bool) : Lockstep live live where
  rel x _ := x.Sat (fun d => d.problem.isAround = true → R d.block d.problem)
    (fun e => e.problem.isAround = true → R e.block e.problem) fun _ => True
  pure _ := .pure trivial
  bind {_ _ x _ _ _} h hf := Sat.bind (P := fun a => x.outcome = .ok a) ⟨h.note, h.fault, fun _ ha => ha⟩ hf
  fault _ _ hp := .stop fun hr => nomatch hp.symm.trans hr
  note _ _ _ hp := .noted fun hr => nomatch hp.symm.trans hr
  hole id label optional := by
    rw [hole]
    split
    · split
      · exact .pure trivial
      · exact .stop fun hr => nomatch hr
    · exact (Sat.noted fun hr => nomatch hr).bind fun _ _ => .pure trivial
  catchInternal _ h := h.catchInternal (fun _ he => he) trivial

end Gen

namespace Compilation

open Gen

variable {c : Compilation} {live : Bool} {K : Lockstep c.live live} {gen gen' : Scope → BlockId → Gen Form}
  {genus : Genus} {b : Block} {scope inner : Scope} {label : String}

lemma nameIn_eq_ok {name : String} (h : (c.nameIn b label).outcome = .ok name) :
    ((b.child? label).bind c.block?).map (fun d => [d.label]) = some [name] := by
  rw [nameIn] at h
  split at h
  · rename_i d hd
    rw [hd, Option.map_some, Except.ok.inj h]
  · cases h

structure Beside (c : Compilation) (K : Lockstep c.live live) (gen gen' : Scope → BlockId → Gen Form) (genus : Genus)
    (b : Block) (scope : Scope) : Prop where
  held : ∀ label s x, b.socket? label = some s → s.block = some x → ∀ y ∈ c.workspace.blocks.stack x,
    K.rel (gen (c.innerScope genus.kind b scope label) y) (gen' (c.innerScope genus.kind b scope label) y)
  unbound : genus.kind = .argument → b.active = true → b.bad = false → scope.binds b.label = false →
    K.rel (fault b.id (.unbound b.label) : Gen Form) (fault b.id (.unbound b.label))
  stale : genus.kind = .procedureCall → c.isStale b = true →
    K.rel (fault b.id .staleCall : Gen PUnit) (fault b.id .staleCall)

lemma stackForms_rel {l : List BlockId} (h : ∀ y ∈ l, K.rel (gen scope y) (gen' scope y)) :
    K.rel (stackForms gen scope l) (stackForms gen' scope l) := by
  induction l with
  | nil => exact K.pure []
  | cons y l ih =>
    refine K.bind (h y List.mem_cons_self) fun form _ => ?_
    exact K.bind (ih fun z hz => h z (List.mem_cons_of_mem y hz)) fun forms _ => K.pure _

namespace Beside

variable (h : Beside c K gen gen' genus b scope)

include h

lemma socketExpr (hi : c.innerScope genus.kind b scope label = inner) :
    K.rel (c.socketExpr gen b inner label) ((c.inMode live).socketExpr gen' b inner label) := by
  rw [Compilation.socketExpr, Compilation.socketExpr]
  cases hs : b.socket? label with
  | none => exact K.fault _ _ rfl
  | some s =>
    cases hx : s.block with
    | none =>
      simp only [hx]
      exact K.hole b.id label s.optional
    | some x =>
      simp only [hx]
      exact hi ▸ h.held label s x hs hx x (BlockGraph.mem_stack_self _ x)

lemma stackOf (hi : c.innerScope genus.kind b scope label = inner) :
    K.rel (c.stackOf gen inner (b.child? label)) ((c.inMode live).stackOf gen' inner (b.child? label)) := by
  cases hx : b.child? label with
  | none => exact K.pure []
  | some x =>
    obtain ⟨s, hs, hx⟩ := Option.bind_eq_some_iff.mp hx
    exact stackForms_rel fun y hy => hi ▸ h.held label s x hs hx y hy

lemma socketBody (hi : c.innerScope genus.kind b scope label = inner) :
    K.rel (c.socketBody gen b inner label) ((c.inMode live).socketBody gen' b inner label) :=
  K.bind (h.stackOf hi) fun _ _ => K.pure _

lemma exprs (hi : ∀ label, c.innerScope genus.kind b scope label = scope) (labels : List String) :
    K.rel (c.exprs gen b scope labels) ((c.inMode live).exprs gen' b scope labels) := by
  induction labels with
  | nil => exact K.pure []
  | cons label labels ih => exact K.bind (h.socketExpr (hi label)) fun _ _ => K.bind ih fun _ _ => K.pure _

omit h in
lemma nameIn (b : Block) (label : String) : K.rel (c.nameIn b label) ((c.inMode live).nameIn b label) := by
  rw [Compilation.nameIn, Compilation.nameIn]
  cases hx : (b.child? label).bind c.block? with
  | none =>
    have hx' : (b.child? label).bind (c.inMode live).block? = none := hx
    simp only [hx']
    exact K.fault _ _ rfl
  | some name =>
    have hx' : (b.child? label).bind (c.inMode live).block? = some name := hx
    simp only [hx']
    exact K.pure name.label

omit h in
lemma memberOf (b : Block) : K.rel (memberOf b) (memberOf b) := by
  rw [Compilation.memberOf]
  split
  · exact K.pure _
  · exact K.fault _ _ rfl

omit h in
lemma ownerType (b : Block) : K.rel (c.ownerType b) ((c.inMode live).ownerType b) := by
  show K.rel (c.ownerType b) (c.ownerType b)
  rw [Compilation.ownerType]
  split
  · exact K.pure _
  · exact K.fault _ _ rfl

omit h in
lemma literal (b : Block) (token : Option String) {p : Problem} (hp : p.isAround = false) :
    K.rel (literal b token p) (literal b token p) := by
  cases token with
  | none => exact K.fault _ _ hp
  | some t => exact K.pure _

lemma handler (scope' : Option Scope) (hk : genus.kind = .componentEvent) (hs : ∀ s ∈ scope', s = scope) :
    K.rel (c.handler gen b scope') ((c.inMode live).handler gen' b scope') := by
  refine K.bind (memberOf b) fun (component, event) _ => ?_
  have hp : eventParams? (c.inMode live).lang (c.inMode live).workspace b = eventParams? c.lang c.workspace b := rfl
  simp only [hp]
  cases hparams : eventParams? c.lang c.workspace b with
  | none => exact K.fault _ _ rfl
  | some params =>
    refine K.bind ?_ fun _ _ => K.pure _
    cases scope' with
    | none => exact K.pure _
    | some scope' =>
      obtain rfl := hs scope' rfl
      exact h.stackOf (by simp [innerScope, cutsOff, bindsIn, hk, hparams])

lemma kindForm (ha : b.active = true) (hb : b.bad = false) :
    K.rel (c.kindForm gen genus b scope) ((c.inMode live).kindForm gen' genus b scope) := by
  unfold Compilation.kindForm
  cases hk : genus.kind with
  | number => exact literal b _ rfl
  | text => exact K.pure _
  | truth => exact K.pure _
  | falsity => exact K.pure _
  | color => exact literal b _ rfl
  | branch =>
    have hi : ∀ label, c.innerScope genus.kind b scope label = scope := fun _ => by rw [hk]; rfl
    refine K.bind (h.socketExpr (hi _)) fun _ _ => K.bind (h.socketBody (hi _)) fun _ _ => ?_
    split
    · exact K.bind (h.socketBody (hi _)) fun _ _ => K.pure _
    · exact K.pure _
  | choose =>
    have hi : ∀ label, c.innerScope genus.kind b scope label = scope := fun _ => by rw [hk]; rfl
    exact K.bind (h.socketExpr (hi _)) fun _ _ => K.bind (h.socketExpr (hi _)) fun _ _ =>
      K.bind (h.socketExpr (hi _)) fun _ _ => K.pure _
  | whileLoop =>
    have hi : ∀ label, c.innerScope genus.kind b scope label = scope := fun _ => by rw [hk]; rfl
    exact K.bind (h.socketExpr (hi _)) fun _ _ => K.bind (h.socketBody (hi _)) fun _ _ => K.pure _
  | forEach =>
    refine K.bind (nameIn b "variable") fun name hn => ?_
    have hbody : c.innerScope genus.kind b scope "do" = scope.push [name] := by
      simp [innerScope, cutsOff, bindsIn, hk, nameIn_eq_ok hn]
    exact K.bind (h.socketExpr (by rw [hk]; rfl)) fun _ _ => K.bind (h.socketBody hbody) fun _ _ => K.pure _
  | forRange =>
    refine K.bind (nameIn b "variable") fun name hn => ?_
    have hbody : c.innerScope genus.kind b scope "do" = scope.push [name] := by
      simp [innerScope, cutsOff, bindsIn, hk, nameIn_eq_ok hn]
    exact K.bind (h.socketExpr (by rw [hk]; rfl)) fun _ _ => K.bind (h.socketExpr (by rw [hk]; rfl)) fun _ _ =>
      K.bind (h.socketExpr (by rw [hk]; rfl)) fun _ _ => K.bind (h.socketBody hbody) fun _ _ => K.pure _
  | globalDef => exact K.bind (h.socketExpr (by rw [hk]; rfl)) fun _ _ => K.pure _
  | variableGet => exact K.pure _
  | variableSet => exact K.bind (h.socketExpr (by rw [hk]; rfl)) fun _ _ => K.pure _
  | argument =>
    simp only [argumentForm]
    split
    · exact K.pure _
    · rename_i hunbound
      exact h.unbound hk ha hb (by simpa using hunbound)
  | procedureDef => exact K.bind (h.socketBody (by rw [hk]; rfl)) fun _ _ => K.pure _
  | procedureWithResult => exact K.bind (h.socketExpr (by rw [hk]; rfl)) fun _ _ => K.pure _
  | procedureCall =>
    have hstale : (c.inMode live).isStale b = c.isStale b := rfl
    simp only [callForm, hstale]
    split
    · rename_i hc
      exact K.bind (h.stale hk hc) fun _ ho => by cases ho
    · exact K.bind (h.exprs (fun _ => by rw [hk]; rfl) _) fun _ _ => K.pure _
  | componentEvent => exact h.handler (some scope) hk (by simp)
  | componentGetter => exact K.bind (memberOf b) fun _ _ => K.pure _
  | componentSetter =>
    exact K.bind (memberOf b) fun _ _ => K.bind (ownerType b) fun _ _ =>
      K.bind (h.socketExpr (by rw [hk]; rfl)) fun _ _ => K.pure _
  | componentMethod =>
    exact K.bind (memberOf b) fun _ _ => K.bind (h.exprs (fun _ => by rw [hk]; rfl) _) fun _ _ => K.pure _
  | componentObject => exact K.pure _
  | componentTypeGetter =>
    exact K.bind (memberOf b) fun _ _ => K.bind (h.socketExpr (by rw [hk]; rfl)) fun _ _ => K.pure _
  | componentTypeSetter =>
    exact K.bind (memberOf b) fun _ _ => K.bind (h.socketExpr (by rw [hk]; rfl)) fun _ _ =>
      K.bind (h.socketExpr (by rw [hk]; rfl)) fun _ _ => K.pure _
  | componentTypeMethod =>
    exact K.bind (memberOf b) fun _ _ => K.bind (h.socketExpr (by rw [hk]; rfl)) fun _ _ =>
      K.bind (h.exprs (fun _ => by rw [hk]; rfl) _) fun _ _ => K.pure _
  | primitive =>
    simp only [primitiveForm]
    split
    · exact K.fault _ _ rfl
    · exact K.bind (h.exprs (fun _ => by rw [hk]; rfl) _) fun _ _ => K.pure _

lemma genusForm : K.rel (c.genusForm gen genus b scope) ((c.inMode live).genusForm gen' genus b scope) := by
  rw [Compilation.genusForm, Compilation.genusForm]
  split
  · exact K.bind (K.note b.id .badBlock (.inl rfl) rfl) fun _ _ => K.pure _
  split
  · split
    · exact h.handler none ‹_› (by simp)
    · exact K.pure _
  · rename_i hbad hactive
    have hform := h.kindForm (by simpa using hactive) (by simpa using hbad)
    exact K.bind (K.catchInternal .blank hform) fun _ _ => K.pure _

end Beside

lemma blockForm_rel {n : ℕ} (P : Scope → BlockId → Prop)
    (hlost : ∀ scope id, P scope id → c.block? id = none →
      K.rel (c.note id .missingBlock) ((c.inMode live).note id .missingBlock))
    (hstep : ∀ n scope id b genus, P scope id → c.block? id = some b → c.lang.genus? b.genus = some genus →
      (∀ scope id, P scope id → K.rel (c.blockForm n scope id) ((c.inMode live).blockForm n scope id)) →
      Beside c K (c.blockForm n) ((c.inMode live).blockForm n) genus b scope) {id : BlockId} (hid : P scope id) :
    K.rel (c.blockForm n scope id) ((c.inMode live).blockForm n scope id) := by
  induction n generalizing scope id with
  | zero => exact K.pure _
  | succ n ih =>
    have hblock : (c.inMode live).block? id = c.block? id := rfl
    have hlang : (c.inMode live).lang = c.lang := rfl
    simp only [Compilation.blockForm, hblock, hlang]
    split
    · exact K.bind (hlost scope id hid ‹_›) fun _ _ => K.pure _
    · rename_i b hb
      split
      · exact K.bind (K.note id (.unknownGenus b.genus) (.inr rfl) rfl) fun _ _ => K.pure _
      · exact (hstep n scope id b _ hid hb ‹_› fun _ _ => ih).genusForm

lemma clumpForm_rel {r : BlockId}
    (h : ∀ y ∈ c.workspace.blocks.stack r, K.rel (c.code [] y) ((c.inMode live).code [] y)) :
    K.rel (c.clumpForm r) ((c.inMode live).clumpForm r) := by
  have hstack : (c.inMode live).workspace.blocks.stack r = c.workspace.blocks.stack r := rfl
  rw [Compilation.clumpForm, Compilation.clumpForm, hstack]
  split
  · rename_i first second rest he
    exact K.bind (stackForms_rel fun y hy => h y (he ▸ hy)) fun _ _ => K.pure _
  · exact h r (BlockGraph.mem_stack_self _ r)

lemma reported_of_mem_unit {R : BlockId → Problem → Prop} {r : BlockId}
    (h : ∀ y ∈ c.workspace.blocks.stack r, (reporting R c.live).rel (c.code [] y) (c.code [] y)) {d : Diagnostic}
    (hd : d ∈ (c.unit r).2) : d.problem.isAround = true → R d.block d.problem := by
  have hclump : (reporting R c.live).rel (c.clumpForm r) (c.clumpForm r) :=
    clumpForm_rel (c := c) (K := reporting R c.live) h
  exact said_of_mem_unit hclump (fun _ he => he) hd

end Compilation

end BlockStudio
