import BlockStudio.Proofs.Compile.Contained

/-! What the generator reads of a block: part after part, until one of them stops it. -/

namespace BlockStudio

namespace Gen

variable {α β ι : Type} {run : ι → Gen α} {l : List ι} {x y : ι}

def Comes (run : ι → Gen α) (l : List ι) (x : ι) : Prop :=
  ∃ pre post, l = pre ++ x :: post ∧ ∀ y ∈ pre, ∃ a, (run y).outcome = .ok a

lemma comes_cons : Comes run (y :: l) x ↔ x = y ∨ (∃ a, (run y).outcome = .ok a) ∧ Comes run l x := by
  constructor
  · rintro ⟨pre, post, he, hpre⟩
    cases pre with
    | nil => exact .inl (List.cons.inj he).1.symm
    | cons z pre =>
      obtain ⟨rfl, rfl⟩ := List.cons.inj he
      exact .inr ⟨hpre y List.mem_cons_self, pre, post, rfl, fun w hw => hpre w (List.mem_cons_of_mem y hw)⟩
  · rintro (rfl | ⟨hy, pre, post, rfl, hpre⟩)
    · exact ⟨[], l, rfl, List.forall_mem_nil _⟩
    · exact ⟨y :: pre, post, rfl, List.forall_mem_cons.mpr ⟨hy, hpre⟩⟩

lemma not_comes_nil : ¬ Comes run [] x := by
  rintro ⟨pre, post, he, -⟩
  simp at he

/-- Something that may be seen in a run: never in a step that has to do with no hole, and in a run just if it is seen in
a step to which the run comes. -/
structure Watch (live : Bool) where
  seen : ∀ {α : Type}, Gen α → Prop
  pure : ∀ {α : Type} (a : α), ¬ seen (pure a)
  bind : ∀ {α β : Type} (x : Gen α) (f : α → Gen β), seen (x >>= f) ↔ seen x ∨ ∃ a, x.outcome = .ok a ∧ seen (f a)
  fault : ∀ {α : Type} (id : BlockId) (p : Problem), p.isHole = false → ¬ seen (fault id p : Gen α)
  note : ∀ (id : BlockId) (p : Problem), p.isHole = false → ¬ seen (note (Fault.diagnostic live ⟨id, p⟩))
  catchInternal : ∀ {α : Type} (a : α) (x : Gen α), seen (catchInternal live a x) ↔ seen x

def said (live : Bool) (x : Gen α) : List Diagnostic :=
  match x.outcome with
  | .ok _ => x.notes
  | .error e => x.notes ++ [e.diagnostic live]

lemma said_ok {x : Gen α} {live : Bool} {a : α} (h : x.outcome = .ok a) : x.said live = x.notes := by rw [said, h]

lemma said_error {x : Gen α} {live : Bool} {e : Fault} (h : x.outcome = .error e) :
    x.said live = x.notes ++ [e.diagnostic live] := by rw [said, h]

def saying (live : Bool) (d : Diagnostic) (hd : d.problem.isHole = true) : Watch live where
  seen x := d ∈ x.said live
  pure _ hmem := nomatch hmem
  bind x f := by
    cases hx : x.outcome with
    | error e => simp [bind_error hx, said, hx]
    | ok a =>
      rw [bind_ok hx, said_ok hx]
      cases hy : (f a).outcome with
      | ok b => simp [said, hy]
      | error e => simp [said, hy]
  fault id p hp hmem := by
    obtain rfl : d = Fault.diagnostic live ⟨id, p⟩ := List.mem_singleton.mp hmem
    cases hp.symm.trans hd
  note id p hp hmem := by
    obtain rfl : d = Fault.diagnostic live ⟨id, p⟩ := List.mem_singleton.mp hmem
    cases hp.symm.trans hd
  catchInternal a x := by
    cases hx : x.outcome with
    | ok b => rw [catchInternal_ok hx]
    | error e =>
      cases hi : e.problem.isInternal with
      | false => rw [catchInternal_error hx hi]
      | true => rw [catchInternal_internal hx hi, said_ok rfl, said_error hx]

def stopping (live : Bool) (e : Fault) (he : e.problem.isHole = true) : Watch live where
  seen x := x.outcome = .error e
  pure _ h := nomatch h
  bind x f := by
    cases hx : x.outcome with
    | error e' => simp [bind_error hx]
    | ok a => simp [bind_ok hx]
  fault id p hp h := by
    obtain rfl := Except.error.inj h
    cases hp.symm.trans he
  note _ _ _ h := nomatch h
  catchInternal a x := by
    cases hx : x.outcome with
    | ok b => rw [catchInternal_ok hx, hx]
    | error e' =>
      cases hi : e'.problem.isInternal with
      | false => rw [catchInternal_error hx hi, hx]
      | true =>
        rw [catchInternal_internal hx hi]
        refine iff_of_false nofun fun h => ?_
        obtain rfl := Except.error.inj h
        cases he.symm.trans (Problem.isHole_of_isInternal hi)

namespace Watch

variable {live : Bool} (W : Watch live)

lemma bind_pure {x : Gen α} {f : α → β} : W.seen (x >>= fun a => Pure.pure (f a)) ↔ W.seen x := by
  rw [W.bind]
  exact or_iff_left fun ⟨_, _, h⟩ => W.pure _ h

lemma fault_iff (id : BlockId) (p : Problem) (f : α → β) :
    W.seen (Gen.fault id p : Gen α) ↔ W.seen (Gen.fault id p : Gen β) :=
  (W.bind_pure (x := Gen.fault id p) (f := f)).symm

lemma mapM : W.seen (l.mapM run) ↔ ∃ x, Comes run l x ∧ W.seen (run x) := by
  induction l with
  | nil => exact iff_of_false (W.pure []) fun ⟨_, h, _⟩ => not_comes_nil h
  | cons y l ih =>
    rw [List.mapM_cons, W.bind]
    simp only [W.bind_pure, ih, comes_cons]
    constructor
    · rintro (hy | ⟨a, ha, x, hx, hseen⟩)
      · exact ⟨y, .inl rfl, hy⟩
      · exact ⟨x, .inr ⟨⟨a, ha⟩, hx⟩, hseen⟩
    · rintro ⟨x, rfl | ⟨⟨a, ha⟩, hx⟩, hseen⟩
      · exact .inl hseen
      · exact .inr ⟨a, ha, x, hx, hseen⟩

end Watch

end Gen

namespace Compilation

open Gen

inductive Part where
  | expr (label : String)
  | body (label : String)
  -- it takes the name of the block there for what it binds
  | name (label : String)

namespace Part

def label : Part → String
  | expr label | body label | name label => label

end Part

def parts (kind : BlockKind) (b : Block) : List Part :=
  match kind with
  | .branch => [.expr "test", .body "then"] ++ if (b.child? "else").isSome then [.body "else"] else []
  | .choose => [.expr "test", .expr "then-return", .expr "else-return"]
  | .whileLoop => [.expr "test", .body "do"]
  | .forEach => [.name "variable", .expr "in list", .body "do"]
  | .forRange => [.name "variable", .expr "from", .expr "to", .expr "by", .body "do"]
  | .globalDef => [.expr "initialize to"]
  | .variableSet => [.expr "to"]
  | .procedureDef | .componentEvent => [.body "do"]
  | .procedureWithResult => [.expr "return"]
  | .procedureCall | .componentMethod | .primitive => (b.sockets.map (·.label)).map .expr
  | .componentSetter => [.expr LinkRules.setterSocket]
  | .componentTypeGetter => [.expr LinkRules.componentSocket]
  | .componentTypeSetter => [.expr LinkRules.componentSocket, .expr LinkRules.setterSocket]
  | .componentTypeMethod =>
    .expr LinkRules.componentSocket ::
      ((b.sockets.map (·.label)).filter (· ≠ LinkRules.componentSocket)).map .expr
  | _ => []

variable (c : Compilation)

def Ready (genus : Genus) (b : Block) (scope : Scope) : Prop :=
  match genus.kind with
  | .number => (Yail.numberLiteral? b.label).isSome
  | .color => (Yail.colorLiteral? b.label).isSome
  | .argument => scope.binds b.label
  | .procedureCall => c.isStale b = false
  | .componentEvent => (eventParams? c.lang c.workspace b).isSome
  | .componentGetter | .componentMethod | .componentTypeGetter | .componentTypeSetter | .componentTypeMethod =>
    b.member?.isSome
  | .componentSetter => b.member?.isSome ∧ (c.rules.memberOf? c.workspace.components b).isSome
  | .primitive => genus.primitive.isSome
  | _ => True

def held (b : Block) : Part → List BlockId
  | .expr label => (b.child? label).toList
  | .body label => (b.child? label).elim [] c.workspace.blocks.stack
  | .name _ => []

def partForms (gen : Scope → BlockId → Gen Form) (kind : BlockKind) (b : Block) (scope : Scope) : Part → Gen (List Form)
  | .expr label => return [← c.socketExpr gen b (c.innerScope kind b scope label) label]
  | .body label => c.stackOf gen (c.innerScope kind b scope label) (b.child? label)
  | .name label => return [.word (← c.nameIn b label)]

variable {c : Compilation} {gen : Scope → BlockId → Gen Form} {genus : Genus} {kind : BlockKind} {b : Block}
  {scope : Scope}

lemma fault_bind {α β : Type} (id : BlockId) (p : Problem) (f : α → Gen β) :
    Gen.fault id p >>= f = Gen.fault id p := rfl

lemma fault_map {α β : Type} (id : BlockId) (p : Problem) (f : α → β) : f <$> Gen.fault id p = Gen.fault id p := rfl

lemma innerScope_loop {name : Block} (hk : kind = .forEach ∨ kind = .forRange)
    (hname : (b.child? "variable").bind c.block? = some name) :
    c.innerScope kind b scope "do" = scope.push [name.label] := by
  rcases hk with rfl | rfl
  all_goals simp [innerScope, cutsOff, bindsIn, hname]

lemma exprs_eq_mapM (hi : ∀ label, c.innerScope kind b scope label = scope) (labels : List String) :
    c.exprs gen b scope labels =
      (labels.map Part.expr).mapM (c.partForms gen kind b scope) >>= fun forms => pure forms.flatten := by
  induction labels with
  | nil => rfl
  | cons label labels ih => simp [exprs, ih, partForms, hi]

lemma stackForms_eq_mapM (l : List BlockId) :
    stackForms gen scope l = l.mapM (gen scope) >>= fun forms => pure (forms.filter (!·.isBlank)) := by
  induction l with
  | nil => rfl
  | cons y l ih =>
    simp only [stackForms, ih, List.mapM_cons, bind_assoc, pure_bind, List.filter_cons]
    congr 1
    funext form
    congr 1
    funext forms
    cases form.isBlank <;> simp

def ReadsParts (c : Compilation) (gen : Scope → BlockId → Gen Form) (kind : BlockKind) (b : Block) (scope : Scope)
    (l : List Part) (x : Gen Form) : Prop :=
  ∃ build : List (List Form) → Form, x = l.mapM (c.partForms gen kind b scope) >>= fun forms => pure (build forms)

section ReadsParts

variable (gen : Scope → BlockId → Gen Form)

lemma readsParts_pure (f : Form) : c.ReadsParts gen kind b scope [] (pure f) := ⟨fun _ => f, rfl⟩

lemma readsParts_literal {token : Option String} (ht : token.isSome = true) (p : Problem) :
    c.ReadsParts gen kind b scope [] (literal b token p) := by
  obtain ⟨t, rfl⟩ := Option.isSome_iff_exists.mp ht
  exact readsParts_pure gen (.word t)

lemma readsParts_argumentForm (h : scope.binds b.label = true) :
    c.ReadsParts gen .argument b scope [] (argumentForm b scope) := by
  rw [argumentForm, if_pos h]
  exact readsParts_pure gen (variableForm b scope)

lemma readsParts_getter {m : String × String} (hm : b.member? = some m) :
    c.ReadsParts gen .componentGetter b scope [] (do return (fun m => Yail.getProperty m.1 m.2) (← memberOf b)) := by
  rw [memberOf, hm]
  exact readsParts_pure gen (Yail.getProperty m.1 m.2)

lemma readsParts_branchForm : c.ReadsParts gen .branch b scope
    ([.expr "test", .body "then"] ++ if (b.child? "else").isSome then [.body "else"] else [])
    (c.branchForm gen b scope) := by
  have hi (label : String) : c.innerScope .branch b scope label = scope := rfl
  cases helse : (b.child? "else").isSome with
  | true =>
    refine ⟨fun forms => .call "if" [forms[0]!.head!, Yail.begin forms[1]!, Yail.begin forms[2]!], ?_⟩
    simp [branchForm, partForms, socketBody, helse, hi]
  | false =>
    refine ⟨fun forms => .call "if" [forms[0]!.head!, Yail.begin forms[1]!], ?_⟩
    simp [branchForm, partForms, socketBody, helse, hi]

lemma readsParts_chooseForm : c.ReadsParts gen .choose b scope [.expr "test", .expr "then-return", .expr "else-return"]
    (c.chooseForm gen b scope) := by
  have hi (label : String) : c.innerScope .choose b scope label = scope := rfl
  refine ⟨fun forms => .call "if" forms.flatten, ?_⟩
  simp [chooseForm, partForms, hi]

lemma readsParts_whileForm :
    c.ReadsParts gen .whileLoop b scope [.expr "test", .body "do"] (c.whileForm gen b scope) := by
  have hi (label : String) : c.innerScope .whileLoop b scope label = scope := rfl
  refine ⟨fun forms => .call "while" [forms[0]!.head!, Yail.begin forms[1]!], ?_⟩
  simp [whileForm, partForms, socketBody, hi]

lemma readsParts_forEachForm : c.ReadsParts gen .forEach b scope [.name "variable", .expr "in list", .body "do"]
    (c.forEachForm gen b scope) := by
  refine ⟨fun forms => .call "foreach" [forms[0]!.head!, Yail.begin forms[2]!, forms[1]!.head!], ?_⟩
  have hitems : c.innerScope .forEach b scope "in list" = scope := rfl
  cases hname : (b.child? "variable").bind c.block? with
  | none => simp [forEachForm, partForms, nameIn, hname, fault_bind, fault_map]
  | some name =>
    have hbody : c.innerScope .forEach b scope "do" = scope.push [name.label] :=
      innerScope_loop (.inl rfl) hname
    simp [forEachForm, partForms, nameIn, socketBody, hname, hitems, hbody]

lemma readsParts_forRangeForm : c.ReadsParts gen .forRange b scope
    [.name "variable", .expr "from", .expr "to", .expr "by", .body "do"] (c.forRangeForm gen b scope) := by
  refine ⟨fun forms => .call "forrange"
    [forms[0]!.head!, Yail.begin forms[4]!, forms[1]!.head!, forms[2]!.head!, forms[3]!.head!], ?_⟩
  have hbounds : c.innerScope .forRange b scope "from" = scope ∧ c.innerScope .forRange b scope "to" = scope ∧
      c.innerScope .forRange b scope "by" = scope := ⟨rfl, rfl, rfl⟩
  cases hname : (b.child? "variable").bind c.block? with
  | none => simp [forRangeForm, partForms, nameIn, hname, fault_bind, fault_map]
  | some name =>
    have hbody : c.innerScope .forRange b scope "do" = scope.push [name.label] :=
      innerScope_loop (.inr rfl) hname
    simp [forRangeForm, partForms, nameIn, socketBody, hname, hbounds, hbody]

lemma readsParts_globalForm : c.ReadsParts gen .globalDef b scope [.expr "initialize to"]
    (do return Yail.defineGlobal b.label (← c.socketExpr gen b [] "initialize to")) := by
  have hi : c.innerScope .globalDef b scope "initialize to" = [] := rfl
  refine ⟨fun forms => Yail.defineGlobal b.label forms[0]!.head!, ?_⟩
  simp [partForms, hi]

lemma readsParts_setterForm : c.ReadsParts gen .variableSet b scope [.expr "to"] (c.setterForm gen b scope) := by
  have hi (label : String) : c.innerScope .variableSet b scope label = scope := rfl
  refine ⟨fun forms => .call (if scope.binds b.label then "set-lexical!" else "set-var!")
    [.word b.label, forms[0]!.head!], ?_⟩
  simp [setterForm, partForms, hi]

lemma readsParts_procedureForm :
    c.ReadsParts gen .procedureDef b scope [.body "do"] (c.procedureForm gen b scope) := by
  have hi : c.innerScope .procedureDef b scope "do" = scope.push (c.workspace.procedureParams b.id) := rfl
  refine ⟨fun forms => Yail.defineProcedure b.label (c.workspace.procedureParams b.id) (Yail.begin forms[0]!), ?_⟩
  simp [procedureForm, partForms, socketBody, hi]

lemma readsParts_functionForm :
    c.ReadsParts gen .procedureWithResult b scope [.expr "return"] (c.functionForm gen b scope) := by
  have hi : c.innerScope .procedureWithResult b scope "return" = scope.push (c.workspace.procedureParams b.id) := rfl
  refine ⟨fun forms => Yail.defineProcedure b.label (c.workspace.procedureParams b.id) forms[0]!.head!, ?_⟩
  simp [functionForm, partForms, hi]

lemma readsParts_callForm (h : c.isStale b = false) :
    c.ReadsParts gen .procedureCall b scope ((b.sockets.map (·.label)).map .expr) (c.callForm gen b scope) := by
  have hi (label : String) : c.innerScope .procedureCall b scope label = scope := rfl
  refine ⟨fun forms => .list (.call "get-var" [.word b.label] :: forms.flatten), ?_⟩
  simp [callForm, socketArgs, exprs_eq_mapM hi, h]

lemma readsParts_handler {params : List String} (h : eventParams? c.lang c.workspace b = some params) :
    c.ReadsParts gen .componentEvent b scope [.body "do"] (c.handler gen b (some scope)) := by
  obtain ⟨m, hm, -⟩ := Option.bind_eq_some_iff.mp h
  have hi : c.innerScope .componentEvent b scope "do" = scope.push params := by
    simp [innerScope, cutsOff, bindsIn, h]
  refine ⟨fun forms => Yail.defineEvent m.1 m.2 params forms[0]!, ?_⟩
  simp [handler, handlerBody, partForms, memberOf, hm, h, hi]

lemma readsParts_propertySetForm {m o : String × String} (hm : b.member? = some m)
    (ho : c.rules.memberOf? c.workspace.components b = some o) :
    c.ReadsParts gen .componentSetter b scope [.expr LinkRules.setterSocket] (c.propertySetForm gen b scope) := by
  have hi (label : String) : c.innerScope .componentSetter b scope label = scope := rfl
  refine ⟨fun forms => Yail.setProperty m.1 m.2 forms[0]!.head! (c.rules.propertyType o.1 m.2), ?_⟩
  simp [propertySetForm, partForms, memberOf, ownerType, hm, ho, hi]

lemma readsParts_methodForm {m : String × String} (hm : b.member? = some m) :
    c.ReadsParts gen .componentMethod b scope ((b.sockets.map (·.label)).map .expr) (c.methodForm gen b scope) := by
  have hi (label : String) : c.innerScope .componentMethod b scope label = scope := rfl
  refine ⟨fun forms => .call "call-component-method"
    [.symbol m.1, .symbol m.2, Yail.runtimeList forms.flatten, c.coercionTypes b], ?_⟩
  simp [methodForm, memberOf, socketArgs, exprs_eq_mapM hi, hm]

lemma readsParts_typeGetForm {m : String × String} (hm : b.member? = some m) :
    c.ReadsParts gen .componentTypeGetter b scope [.expr LinkRules.componentSocket] (c.typeGetForm gen b scope) := by
  have hi (label : String) : c.innerScope .componentTypeGetter b scope label = scope := rfl
  refine ⟨fun forms => .call "get-property-and-check" [forms[0]!.head!, .symbol m.1, .symbol m.2], ?_⟩
  simp [typeGetForm, partForms, memberOf, hm, hi]

lemma readsParts_typeSetForm {m : String × String} (hm : b.member? = some m) :
    c.ReadsParts gen .componentTypeSetter b scope
      [.expr LinkRules.componentSocket, .expr LinkRules.setterSocket] (c.typeSetForm gen b scope) := by
  have hi (label : String) : c.innerScope .componentTypeSetter b scope label = scope := rfl
  refine ⟨fun forms => .call "set-and-coerce-property-and-check!" [forms[0]!.head!, .symbol m.1, .symbol m.2,
    forms[1]!.head!, .symbol (c.rules.propertyType m.1 m.2)], ?_⟩
  simp [typeSetForm, partForms, memberOf, hm, hi]

lemma readsParts_typeMethodForm {m : String × String} (hm : b.member? = some m) :
    c.ReadsParts gen .componentTypeMethod b scope
      (.expr LinkRules.componentSocket ::
        ((b.sockets.map (·.label)).filter (· ≠ LinkRules.componentSocket)).map .expr)
      (c.typeMethodForm gen b scope) := by
  have hi (label : String) : c.innerScope .componentTypeMethod b scope label = scope := rfl
  refine ⟨fun forms => .call "call-component-type-method" [forms.head!.head!, .symbol m.1, .symbol m.2,
    Yail.runtimeList forms.tail.flatten, c.coercionTypes b], ?_⟩
  simp [typeMethodForm, partForms, socketArgsOfType, exprs_eq_mapM hi, memberOf, hm, hi]

lemma readsParts_primitiveForm (h : genus.primitive.isSome = true) :
    c.ReadsParts gen .primitive b scope ((b.sockets.map (·.label)).map .expr) (c.primitiveForm gen genus b scope) := by
  obtain ⟨p, hp⟩ := Option.isSome_iff_exists.mp h
  have hi (label : String) : c.innerScope .primitive b scope label = scope := rfl
  refine ⟨fun forms => .call "call-yail-primitive"
    [.word p.op, Yail.runtimeList forms.flatten, c.coercionTypes b, .str p.description], ?_⟩
  simp [primitiveForm, socketArgs, exprs_eq_mapM hi, hp]

lemma kindForm_of_ready (h : c.Ready genus b scope) :
    c.ReadsParts gen genus.kind b scope (parts genus.kind b) (c.kindForm gen genus b scope) := by
  rw [Ready] at h
  rw [kindForm]
  cases hk : genus.kind with
  | number =>
    rw [hk] at h
    exact readsParts_literal gen h _
  | color =>
    rw [hk] at h
    exact readsParts_literal gen h _
  | text | truth | falsity | variableGet | componentObject => exact readsParts_pure gen _
  | argument =>
    rw [hk] at h
    exact readsParts_argumentForm gen h
  | branch => exact readsParts_branchForm gen
  | choose => exact readsParts_chooseForm gen
  | whileLoop => exact readsParts_whileForm gen
  | forEach => exact readsParts_forEachForm gen
  | forRange => exact readsParts_forRangeForm gen
  | globalDef => exact readsParts_globalForm gen
  | variableSet => exact readsParts_setterForm gen
  | procedureDef => exact readsParts_procedureForm gen
  | procedureWithResult => exact readsParts_functionForm gen
  | procedureCall =>
    rw [hk] at h
    exact readsParts_callForm gen h
  | componentEvent =>
    rw [hk] at h
    obtain ⟨params, hparams⟩ := Option.isSome_iff_exists.mp h
    exact readsParts_handler gen hparams
  | componentGetter =>
    rw [hk] at h
    obtain ⟨m, hm⟩ := Option.isSome_iff_exists.mp h
    exact readsParts_getter gen hm
  | componentSetter =>
    rw [hk] at h
    obtain ⟨m, hm⟩ := Option.isSome_iff_exists.mp h.1
    obtain ⟨o, ho⟩ := Option.isSome_iff_exists.mp h.2
    exact readsParts_propertySetForm gen hm ho
  | componentMethod =>
    rw [hk] at h
    obtain ⟨m, hm⟩ := Option.isSome_iff_exists.mp h
    exact readsParts_methodForm gen hm
  | componentTypeGetter =>
    rw [hk] at h
    obtain ⟨m, hm⟩ := Option.isSome_iff_exists.mp h
    exact readsParts_typeGetForm gen hm
  | componentTypeSetter =>
    rw [hk] at h
    obtain ⟨m, hm⟩ := Option.isSome_iff_exists.mp h
    exact readsParts_typeSetForm gen hm
  | componentTypeMethod =>
    rw [hk] at h
    obtain ⟨m, hm⟩ := Option.isSome_iff_exists.mp h
    exact readsParts_typeMethodForm gen hm
  | primitive =>
    rw [hk] at h
    exact readsParts_primitiveForm gen h

end ReadsParts

lemma kindForm_of_not_ready (gen : Scope → BlockId → Gen Form) (h : ¬ c.Ready genus b scope) :
    ∃ p : Problem, p.isHole = false ∧ c.kindForm gen genus b scope = Gen.fault b.id p := by
  rw [Ready] at h
  rw [kindForm]
  cases hk : genus.kind with
  | number =>
    rw [hk] at h
    exact ⟨.invalidNumber b.label, rfl, by simp only [literal, Option.not_isSome_iff_eq_none.mp h]⟩
  | color =>
    rw [hk] at h
    exact ⟨.invalidColor b.label, rfl, by simp only [literal, Option.not_isSome_iff_eq_none.mp h]⟩
  | argument =>
    rw [hk] at h
    exact ⟨.unbound b.label, rfl, by simp [argumentForm, h]⟩
  | procedureCall =>
    rw [hk] at h
    have hstale : c.isStale b = true := by simpa using h
    exact ⟨.staleCall, rfl, by simp [callForm, hstale, fault_bind]⟩
  | componentEvent =>
    rw [hk] at h
    obtain ⟨p, hp, hf⟩ : ∃ p : Problem, p.isInternal = true ∧ c.handler gen b (some scope) = Gen.fault b.id p :=
      handler_of_none (Option.not_isSome_iff_eq_none.mp h) (some scope)
    exact ⟨p, Problem.isHole_of_isInternal hp, hf⟩
  | componentSetter =>
    rw [hk] at h
    cases hm : b.member? with
    | none => exact ⟨.malformedLabel b.label, rfl, by simp [propertySetForm, memberOf, hm, fault_bind]⟩
    | some m =>
      have ho : c.rules.memberOf? c.workspace.components b = none := by simpa [hm] using h
      exact ⟨.unknownMember b.label, rfl, by simp [propertySetForm, memberOf, ownerType, hm, ho, fault_bind]⟩
  | componentGetter | componentMethod | componentTypeGetter | componentTypeSetter | componentTypeMethod =>
    rw [hk] at h
    have hm : b.member? = none := Option.not_isSome_iff_eq_none.mp h
    refine ⟨.malformedLabel b.label, rfl, ?_⟩
    simp [methodForm, typeGetForm, typeSetForm, typeMethodForm, memberOf, hm, fault_bind, fault_map]
  | primitive =>
    rw [hk] at h
    exact ⟨.noPrimitive genus.name, rfl, by simp [primitiveForm, Option.not_isSome_iff_eq_none.mp h]⟩
  | _ =>
    rw [hk] at h
    exact absurd trivial h

def ownForm (c : Compilation) (b : Block) : Part → Gen Form
  | .expr label =>
    match b.socket? label with
    | some s => if s.block.isNone then hole c.live b.id label s.optional else pure Yail.null
    | none => pure Yail.null
  | .body _ => pure Yail.null
  | .name label =>
    if ((b.child? label).bind c.block?).isNone then Gen.fault b.id (.emptySocket label) else pure Yail.null

structure Entered (c : Compilation) (x : BlockId) (b : Block) (genus : Genus) (scope : Scope) : Prop where
  block : c.block? x = some b
  genus_eq : c.lang.genus? b.genus = some genus
  not_bad : b.bad = false
  active : b.active = true
  ready : c.Ready genus b scope

inductive Met (c : Compilation) : ℕ → Scope → BlockId → Block → Part → Prop
  | here {n : ℕ} {scope : Scope} {x : BlockId} {b : Block} {genus : Genus} {part : Part}
      (hx : c.Entered x b genus scope)
      (hpart : Comes (c.partForms (c.blockForm n) genus.kind b scope) (parts genus.kind b) part) :
      Met c (n + 1) scope x b part
  | within {n : ℕ} {scope : Scope} {x y : BlockId} {b d : Block} {genus : Genus} {part inner : Part}
      (hx : c.Entered x b genus scope)
      (hpart : Comes (c.partForms (c.blockForm n) genus.kind b scope) (parts genus.kind b) part)
      (hy : Comes (c.blockForm n (c.innerScope genus.kind b scope part.label)) (c.held b part) y)
      (hinner : Met c n (c.innerScope genus.kind b scope part.label) y d inner) : Met c (n + 1) scope x d inner

lemma Met.exists_block {n : ℕ} {x : BlockId} {part : Part} (h : c.Met n scope x b part) : ∃ x, c.block? x = some b := by
  induction h with
  | here hx _ => exact ⟨_, hx.block⟩
  | within _ _ _ _ ih => exact ih

section Seen

variable (W : Watch c.live) {part : Part} {x : BlockId} {n : ℕ}

lemma seen_stackForms_iff {l : List BlockId} :
    W.seen (stackForms gen scope l) ↔ ∃ y, Comes (gen scope) l y ∧ W.seen (gen scope y) := by
  rw [stackForms_eq_mapM, W.bind_pure, W.mapM]

lemma seen_socketExpr_iff {label : String} : W.seen (c.socketExpr gen b scope label) ↔
    (∃ y, Comes (gen scope) (b.child? label).toList y ∧ W.seen (gen scope y)) ∨
      W.seen (c.ownForm b (.expr label)) := by
  rw [socketExpr, ownForm, Block.child?]
  cases hs : b.socket? label with
  | none => simp [W.pure, W.fault _ _ (rfl : (Problem.missingSocket label).isHole = false), not_comes_nil]
  | some s =>
    cases hx : s.block with
    | none => simp [hx, not_comes_nil, hole, note]
    | some y => simp [hx, W.pure, comes_cons, not_comes_nil]

lemma seen_partForms_iff : W.seen (c.partForms gen kind b scope part) ↔
    (∃ y, Comes (gen (c.innerScope kind b scope part.label)) (c.held b part) y ∧
      W.seen (gen (c.innerScope kind b scope part.label) y)) ∨ W.seen (c.ownForm b part) := by
  cases part with
  | expr label => rw [partForms, W.bind_pure, seen_socketExpr_iff]; rfl
  | body label =>
    rw [partForms, ownForm, or_iff_left (W.pure _), held]
    cases b.child? label with
    | none => simp [stackOf, W.pure, not_comes_nil]
    | some first => exact seen_stackForms_iff W
  | name label =>
    rw [partForms, W.bind_pure, held, ownForm, nameIn]
    cases (b.child? label).bind c.block? with
    | none =>
      simp only [not_comes_nil, false_and, exists_false, false_or, Option.isNone_none, if_true]
      exact W.fault_iff b.id _ Form.word
    | some name => simp [W.pure, not_comes_nil]

lemma seen_kindForm_iff : W.seen (c.kindForm gen genus b scope) ↔ c.Ready genus b scope ∧
    ∃ part, Comes (c.partForms gen genus.kind b scope) (parts genus.kind b) part ∧
      W.seen (c.partForms gen genus.kind b scope part) := by
  by_cases hready : c.Ready genus b scope
  · obtain ⟨build, hbuild⟩ := kindForm_of_ready gen hready
    rw [hbuild, W.bind_pure, W.mapM]
    exact (and_iff_right hready).symm
  · obtain ⟨p, hp, hf⟩ := kindForm_of_not_ready gen hready
    exact iff_of_false (hf ▸ W.fault b.id p hp) fun h => hready h.1

lemma not_seen_noted {id : BlockId} {p : Problem} {f : Form} (hp : p.isHole = false) :
    ¬ W.seen (c.note id p >>= fun _ => pure f) := by
  rw [W.bind_pure]
  exact W.note id p hp

lemma seen_genusForm_iff : W.seen (c.genusForm gen genus b scope) ↔
    b.bad = false ∧ b.active = true ∧ W.seen (c.kindForm gen genus b scope) := by
  rw [genusForm]
  split
  · rename_i hbad
    exact iff_of_false (not_seen_noted W rfl) (by simp [hbad])
  split
  · rename_i hactive
    refine iff_of_false ?_ (by simpa using fun _ h => by simp [h] at hactive)
    split
    · cases hparams : eventParams? c.lang c.workspace b with
      | none =>
        obtain ⟨p, hp, hf⟩ : ∃ p : Problem, p.isInternal = true ∧ c.handler gen b none = Gen.fault b.id p :=
          handler_of_none hparams none
        exact hf ▸ W.fault b.id p (Problem.isHole_of_isInternal hp)
      | some params =>
        obtain ⟨f, hf⟩ : ∃ f, c.handler gen b none = pure f := handler_of_params hparams
        exact hf ▸ W.pure f
    · exact W.pure _
  · rename_i hbad hactive
    rw [W.bind_pure, W.catchInternal]
    simp only [Bool.not_eq_true, Bool.not_eq_eq_eq_not, Bool.not_true, Bool.not_eq_false] at hbad hactive
    rw [and_iff_right hbad, and_iff_right hactive]

lemma seen_blockForm_succ_iff : W.seen (c.blockForm (n + 1) scope x) ↔
    ∃ b genus, c.Entered x b genus scope ∧
      ∃ part, Comes (c.partForms (c.blockForm n) genus.kind b scope) (parts genus.kind b) part ∧
        W.seen (c.partForms (c.blockForm n) genus.kind b scope part) := by
  rw [blockForm]
  cases hb : c.block? x with
  | none =>
    refine iff_of_false (not_seen_noted W rfl) ?_
    rintro ⟨b, genus, hx, -⟩
    cases hb.symm.trans hx.block
  | some b =>
    dsimp only
    cases hg : c.lang.genus? b.genus with
    | none =>
      refine iff_of_false (not_seen_noted W rfl) ?_
      rintro ⟨d, genus, hx, -⟩
      obtain rfl := Option.some.inj (hb.symm.trans hx.block)
      cases hg.symm.trans hx.genus_eq
    | some genus =>
      dsimp only
      rw [seen_genusForm_iff, seen_kindForm_iff]
      constructor
      · rintro ⟨hbad, hactive, hready, hpart⟩
        exact ⟨b, genus, ⟨hb, hg, hbad, hactive, hready⟩, hpart⟩
      · rintro ⟨d, genus', hx, hpart⟩
        obtain rfl := Option.some.inj (hb.symm.trans hx.block)
        obtain rfl := Option.some.inj (hg.symm.trans hx.genus_eq)
        exact ⟨hx.not_bad, hx.active, hx.ready, hpart⟩

lemma seen_blockForm_iff : W.seen (c.blockForm n scope x) ↔
    ∃ b part, c.Met n scope x b part ∧ W.seen (c.ownForm b part) := by
  induction n generalizing scope x with
  | zero => exact iff_of_false (W.pure _) fun ⟨_, _, h, _⟩ => nomatch h
  | succ n ih =>
    simp only [seen_blockForm_succ_iff, seen_partForms_iff, ih]
    constructor
    · rintro ⟨b, genus, hx, part, hpart, ⟨y, hy, d, inner, hmet, hseen⟩ | hseen⟩
      · exact ⟨d, inner, .within hx hpart hy hmet, hseen⟩
      · exact ⟨b, part, .here hx hpart, hseen⟩
    · rintro ⟨d, inner, ⟨hx, hpart⟩ | ⟨hx, hpart, hy, hmet⟩, hseen⟩
      · exact ⟨_, _, hx, _, hpart, .inr hseen⟩
      · exact ⟨_, _, hx, _, hpart, .inl ⟨_, hy, _, _, hmet, hseen⟩⟩

def Reaches (c : Compilation) (root : BlockId) (b : Block) (part : Part) : Prop :=
  ∃ y, Comes (c.code []) (c.workspace.blocks.stack root) y ∧ c.Met c.depth [] y b part

lemma seen_clumpForm_iff (root : BlockId) : W.seen (c.clumpForm root) ↔
    ∃ b part, c.Reaches root b part ∧ W.seen (c.ownForm b part) := by
  have hstack : W.seen (c.clumpForm root) ↔ W.seen (stackForms c.code [] (c.workspace.blocks.stack root)) := by
    obtain ⟨f, hf⟩ | ⟨hs, hf⟩ := exists_clumpForm c root
    · rw [hf, W.bind_pure]
    · rw [hf, hs, seen_stackForms_iff]
      simp [comes_cons, not_comes_nil]
  rw [hstack, seen_stackForms_iff]
  simp only [code, seen_blockForm_iff]
  constructor
  · rintro ⟨y, hy, b, part, hmet, hseen⟩
    exact ⟨b, part, ⟨y, hy, hmet⟩, hseen⟩
  · rintro ⟨b, part, ⟨y, hy, hmet⟩, hseen⟩
    exact ⟨y, hy, b, part, hmet, hseen⟩

end Seen

lemma Reaches.exists_block {root : BlockId} {part : Part} (h : c.Reaches root b part) : ∃ x, c.block? x = some b := by
  obtain ⟨y, -, hmet⟩ := h
  exact hmet.exists_block

lemma said_clumpForm (c : Compilation) (root : BlockId) : (c.clumpForm root).said c.live = (c.unit root).2 := by
  rw [said, Compilation.unit]
  cases (c.clumpForm root).outcome with
  | ok f => rfl
  | error e => rfl

end Compilation

end BlockStudio
