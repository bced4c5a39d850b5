import BlockStudio.Proofs.Compile.Locality
import BlockStudio.Proofs.Compile.Names
import BlockStudio.Proofs.Compile.Outcome

namespace BlockStudio.Compilation

open Yail Form Gen

variable {c : Compilation} {N : Diagnostic → Prop} {F : Fault → Prop} {gen : Scope → BlockId → Gen Form} {genus : Genus}
  {b : Block}

def Readable (c : Compilation) (f : Form) : Prop := c.Named → f.Legible

structure Code (c : Compilation) (f : Form) : Prop where
  notBlank : f.isBlank = false
  readable : c.Readable f

structure Around (c : Compilation) (N : Diagnostic → Prop) (F : Fault → Prop) (gen : Scope → BlockId → Gen Form)
    (genus : Genus) (b : Block) : Prop where
  mem : b ∈ c.workspace.blocks.list
  genus_eq : c.lang.genus? b.genus = some genus
  gen : ∀ x ∈ b.children, ∀ y ∈ c.workspace.blocks.stack x, ∀ scope, (gen scope y).Sat N F c.Readable
  note : ∀ p, N (Fault.diagnostic c.live ⟨b.id, p⟩)
  fault : ∀ p, p.severity c.live ≠ .warning → F ⟨b.id, p⟩
  nameless : genus.kind.bindsName = true → (b.child? "variable").bind c.block? = none →
    F ⟨b.id, .emptySocket "variable"⟩
  said : ∀ e, F e → N (e.diagnostic c.live)

lemma stackForms_sat {scope : Scope} {l : List BlockId} (h : ∀ y ∈ l, (gen scope y).Sat N F c.Readable) :
    (stackForms gen scope l).Sat N F fun forms => ∀ f ∈ forms, c.Readable f := by
  induction l with
  | nil => exact .pure (by simp)
  | cons y l ih =>
    refine (h y List.mem_cons_self).bind fun form hform => ?_
    refine (ih fun z hz => h z (List.mem_cons_of_mem y hz)).bind fun forms hforms => .pure ?_
    split
    · exact hforms
    · exact List.forall_mem_cons.mpr ⟨hform, hforms⟩

lemma legible_of_readable {forms : List Form} (h : ∀ f ∈ forms, c.Readable f) (hn : c.Named) :
    ∀ f ∈ forms, f.Legible := fun f hf => h f hf hn

lemma isBlank_reported {code : Form} (h : code.isBlank = false) : (reported b code).isBlank = false := by
  rw [reported]
  split
  · rfl
  · exact h

namespace Around

variable (h : c.Around N F gen genus b) (scope : Scope) (label : String)

include h

lemma named (hn : c.Named) : b.Named c.workspace genus.kind := hn.blocks b h.mem genus h.genus_eq

lemma legible_label (hk : genus.kind.writesLabel = true) (hn : c.Named) : (Form.word b.label).Legible :=
  legible_word ((h.named hn).label hk)

lemma noted (p : Problem) : (c.note b.id p).Sat N F fun _ => True := .noted (h.note p)

lemma socketExpr : (c.socketExpr gen b scope label).Sat N F c.Readable := by
  rw [Compilation.socketExpr]
  cases hs : b.socket? label with
  | none => exact .stop (h.fault _ (Problem.not_warning_of_isInternal rfl))
  | some s =>
    dsimp only
    cases hx : s.block with
    | some x => exact h.gen x (Block.mem_children_of_socket? hs hx) x (BlockGraph.mem_stack_self _ x) scope
    | none =>
      have hnull : c.Readable Yail.null := fun _ => legible_null
      dsimp only
      split
      · split
        · exact .pure hnull
        · refine .stop (h.fault _ ?_)
          simp [Problem.severity, *]
      · exact (h.noted _).bind fun _ _ => .pure hnull

lemma stackOf : (c.stackOf gen scope (b.child? label)).Sat N F fun forms => ∀ f ∈ forms, c.Readable f := by
  cases hx : b.child? label with
  | none => exact .pure (by simp)
  | some x => exact stackForms_sat fun y hy => h.gen x (Block.mem_children_of_child? hx) y hy scope

lemma socketBody : (c.socketBody gen b scope label).Sat N F c.Readable :=
  (h.stackOf scope label).bind fun _ hforms => .pure fun hn => legible_begin (legible_of_readable hforms hn)

lemma exprs (labels : List String) : (c.exprs gen b scope labels).Sat N F fun forms => ∀ f ∈ forms, c.Readable f := by
  induction labels with
  | nil => exact .pure (by simp)
  | cons label labels ih =>
    exact (h.socketExpr scope label).bind fun e he => ih.bind fun es hes => .pure (List.forall_mem_cons.mpr ⟨he, hes⟩)

lemma memberOf (hk : genus.kind.namesMember = true) :
    (memberOf b).Sat N F fun m => c.Named → IsToken m.1 ∧ IsToken m.2 := by
  rw [Compilation.memberOf]
  split
  · exact .pure fun hn => (h.named hn).member hk _ ‹_›
  · exact .stop (h.fault _ (Problem.not_warning_of_isInternal rfl))

lemma ownerType : (c.ownerType b).Sat N F fun _ => True := by
  rw [Compilation.ownerType]
  split
  · exact .pure trivial
  · exact .stop (h.fault _ (Problem.not_warning_of_isInternal rfl))

lemma nameIn (hk : genus.kind.bindsName = true) :
    (c.nameIn b "variable").Sat N F fun name => c.Named → IsToken name := by
  rw [Compilation.nameIn]
  split
  · rename_i name hname
    exact .pure fun hn => (h.named hn).bound hk name hname
  · exact .stop (h.nameless hk ‹_›)

lemma handlerBody (params : List String) (scope : Option Scope) :
    (c.handlerBody gen b params scope).Sat N F fun forms => ∀ f ∈ forms, c.Readable f := by
  cases scope with
  | none => exact .pure fun f hf hn => List.mem_singleton.mp hf ▸ legible_null
  | some scope => exact h.stackOf (scope.push params) "do"

lemma handler (hk : genus.kind.namesMember = true) (scope : Option Scope) : (c.handler gen b scope).Sat N F c.Code := by
  refine (h.memberOf hk).bind fun (component, event) hm => ?_
  dsimp only
  split
  · exact .stop (h.fault _ (Problem.not_warning_of_isInternal rfl))
  · rename_i params hparams
    refine (h.handlerBody params scope).bind fun body hbody => .pure ⟨rfl, fun hn => ?_⟩
    obtain ⟨hcomponent, hevent⟩ := hm hn
    exact legible_defineEvent hcomponent hevent (hn.eventParams hparams) (legible_of_readable hbody hn)

lemma branchForm : (c.branchForm gen b scope).Sat N F c.Code := by
  refine (h.socketExpr scope "test").bind fun test htest => (h.socketBody scope "then").bind fun yes hyes => ?_
  split
  · exact (h.socketBody scope "else").bind fun no hno => .pure
      ⟨rfl, fun hn => legible_call (by decide) (by simp [htest hn, hyes hn, hno hn])⟩
  · exact .pure ⟨rfl, fun hn => legible_call (by decide) (by simp [htest hn, hyes hn])⟩

lemma chooseForm : (c.chooseForm gen b scope).Sat N F c.Code :=
  (h.socketExpr scope "test").bind fun test htest => (h.socketExpr scope "then-return").bind fun yes hyes =>
    (h.socketExpr scope "else-return").bind fun no hno => .pure
      ⟨rfl, fun hn => legible_call (by decide) (by simp [htest hn, hyes hn, hno hn])⟩

lemma whileForm : (c.whileForm gen b scope).Sat N F c.Code :=
  (h.socketExpr scope "test").bind fun test htest => (h.socketBody scope "do").bind fun body hbody => .pure
    ⟨rfl, fun hn => legible_call (by decide) (by simp [htest hn, hbody hn])⟩

lemma forEachForm (hk : genus.kind.bindsName = true) : (c.forEachForm gen b scope).Sat N F c.Code :=
  (h.nameIn hk).bind fun name hname => (h.socketExpr scope "in list").bind fun items hitems =>
    (h.socketBody (scope.push [name]) "do").bind fun body hbody => .pure
      ⟨rfl, fun hn => legible_call (by decide) (by simp [legible_word (hname hn), hitems hn, hbody hn])⟩

lemma forRangeForm (hk : genus.kind.bindsName = true) : (c.forRangeForm gen b scope).Sat N F c.Code :=
  (h.nameIn hk).bind fun name hname => (h.socketExpr scope "from").bind fun first hfirst =>
    (h.socketExpr scope "to").bind fun last hlast => (h.socketExpr scope "by").bind fun step hstep =>
      (h.socketBody (scope.push [name]) "do").bind fun body hbody => .pure ⟨rfl, fun hn =>
        legible_call (by decide)
          (by simp [legible_word (hname hn), hbody hn, hfirst hn, hlast hn, hstep hn])⟩

lemma variableForm (hk : genus.kind.writesLabel = true) : c.Code (variableForm b scope) := by
  refine ⟨rfl, fun hn => legible_call ?_ (by simpa using h.legible_label hk hn)⟩
  split
  · decide
  · decide

lemma objectForm (hk : genus.kind.writesLabel = true) : c.Code (call "get-component" [.word b.label]) :=
  ⟨rfl, fun hn => legible_call (by decide) (by simpa using h.legible_label hk hn)⟩

lemma argumentForm (hk : genus.kind.writesLabel = true) : (argumentForm b scope).Sat N F c.Code := by
  rw [Compilation.argumentForm]
  split
  · exact .pure (h.variableForm scope hk)
  · exact .stop (h.fault _ (Problem.not_warning_of_error rfl))

lemma setterForm (hk : genus.kind.writesLabel = true) : (c.setterForm gen b scope).Sat N F c.Code := by
  refine (h.socketExpr scope "to").bind fun value hvalue => .pure ⟨rfl, fun hn => legible_call ?_ ?_⟩
  · split
    · decide
    · decide
  · simp [h.legible_label hk hn, hvalue hn]

lemma globalForm (hk : genus.kind.writesLabel = true) :
    (return Yail.defineGlobal b.label (← c.socketExpr gen b [] "initialize to") : Gen Form).Sat N F c.Code :=
  (h.socketExpr [] "initialize to").bind fun _ hvalue => .pure
    ⟨rfl, fun hn => legible_defineGlobal ((h.named hn).label hk) (hvalue hn)⟩

lemma procedureForm (hk : genus.kind.writesLabel = true) (hp : genus.kind.hasParams = true) :
    (c.procedureForm gen b scope).Sat N F c.Code :=
  (h.socketBody _ "do").bind fun _ hbody => .pure ⟨rfl, fun hn =>
    legible_defineProcedure ((h.named hn).label hk) ((h.named hn).params hp) (hbody hn)⟩

lemma functionForm (hk : genus.kind.writesLabel = true) (hp : genus.kind.hasParams = true) :
    (c.functionForm gen b scope).Sat N F c.Code :=
  (h.socketExpr _ "return").bind fun _ hresult => .pure ⟨rfl, fun hn =>
    legible_defineProcedure ((h.named hn).label hk) ((h.named hn).params hp) (hresult hn)⟩

lemma callForm (hk : genus.kind.writesLabel = true) : (c.callForm gen b scope).Sat N F c.Code := by
  rw [Compilation.callForm]
  split
  · exact Sat.bind (P := fun _ => False) (.stop (h.fault _ (Problem.not_warning_of_error rfl))) fun _ hf => hf.elim
  · refine (h.exprs scope _).bind fun args hargs => .pure ⟨rfl, fun hn => ?_⟩
    have hget : (call "get-var" [.word b.label]).Legible :=
      legible_call (by decide) (by simpa using h.legible_label hk hn)
    exact legible_list.mpr (List.forall_mem_cons.mpr ⟨hget, legible_of_readable hargs hn⟩)

lemma getterForm (hk : genus.kind.namesMember = true) :
    (return (fun m => Yail.getProperty m.1 m.2) (← Compilation.memberOf b) : Gen Form).Sat N F c.Code :=
  (h.memberOf hk).bind fun _ hm => .pure ⟨rfl, fun hn => legible_getProperty (hm hn).1 (hm hn).2⟩

lemma propertySetForm (hk : genus.kind.namesMember = true) : (c.propertySetForm gen b scope).Sat N F c.Code :=
  (h.memberOf hk).bind fun (_, property) hm => h.ownerType.bind fun owner _ =>
    (h.socketExpr scope LinkRules.setterSocket).bind fun _ hvalue => .pure ⟨rfl, fun hn =>
      legible_setProperty (hm hn).1 (hm hn).2 (hn.rules.propertyType owner property) (hvalue hn)⟩

lemma methodForm (hk : genus.kind.namesMember = true) : (c.methodForm gen b scope).Sat N F c.Code :=
  (h.memberOf hk).bind fun (component, method) hm => (h.exprs scope _).bind fun args hargs => .pure ⟨rfl, fun hn =>
    legible_call (by decide) (by
      simp [legible_symbol (hm hn).1, legible_symbol (hm hn).2, legible_runtimeList (legible_of_readable hargs hn),
        hn.coercionTypes])⟩

lemma typeGetForm (hk : genus.kind.namesMember = true) : (c.typeGetForm gen b scope).Sat N F c.Code :=
  (h.memberOf hk).bind fun (type, property) hm => (h.socketExpr scope LinkRules.componentSocket).bind
    fun component hcomponent => .pure ⟨rfl, fun hn =>
      legible_call (by decide) (by simp [legible_symbol (hm hn).1, legible_symbol (hm hn).2, hcomponent hn])⟩

lemma typeSetForm (hk : genus.kind.namesMember = true) : (c.typeSetForm gen b scope).Sat N F c.Code :=
  (h.memberOf hk).bind fun (type, property) hm => (h.socketExpr scope LinkRules.componentSocket).bind
    fun component hcomponent => (h.socketExpr scope LinkRules.setterSocket).bind fun value hvalue => .pure
      ⟨rfl, fun hn =>
        legible_call (by decide) (by
          simp [legible_symbol (hm hn).1, legible_symbol (hm hn).2, hcomponent hn, hvalue hn,
            legible_symbol (hn.rules.propertyType type property)])⟩

lemma typeMethodForm (hk : genus.kind.namesMember = true) : (c.typeMethodForm gen b scope).Sat N F c.Code :=
  (h.memberOf hk).bind fun (type, method) hm => (h.socketExpr scope LinkRules.componentSocket).bind
    fun component hcomponent => (h.exprs scope _).bind fun args hargs => .pure ⟨rfl, fun hn =>
      legible_call (by decide) (by
        simp [legible_symbol (hm hn).1, legible_symbol (hm hn).2, hcomponent hn,
          legible_runtimeList (legible_of_readable hargs hn), hn.coercionTypes])⟩

lemma primitiveForm : (c.primitiveForm gen genus b scope).Sat N F c.Code := by
  rw [Compilation.primitiveForm]
  split
  · exact .stop (h.fault _ (Problem.not_warning_of_isInternal rfl))
  · rename_i p hp
    refine (h.exprs scope _).bind fun args hargs => .pure ⟨rfl, fun hn => legible_call (by decide) ?_⟩
    have hop := hn.op genus (NameMap.mem_values_of_get? h.genus_eq) p hp
    simp [legible_word hop, legible_runtimeList (legible_of_readable hargs hn), hn.coercionTypes, legible_str]

omit h in
lemma code_token {s : String} (hs : IsToken s) : c.Code (.word s) := ⟨isBlank_token hs, fun _ => legible_word hs⟩

lemma literal {token : Option String} {p : Problem} (ht : ∀ t, token = some t → IsToken t)
    (hp : p.severity c.live ≠ .warning) : (literal b token p).Sat N F c.Code := by
  cases token with
  | none => exact .stop (h.fault p hp)
  | some t => exact .pure (code_token (ht t rfl))

lemma kindForm : (c.kindForm gen genus b scope).Sat N F c.Code := by
  unfold Compilation.kindForm
  cases hk : genus.kind with
  | number => exact h.literal (fun _ => isToken_numberLiteral) (Problem.not_warning_of_error rfl)
  | text => exact .pure ⟨rfl, fun _ => legible_str b.label⟩
  | truth => exact .pure (code_token (by decide))
  | falsity => exact .pure (code_token (by decide))
  | color => exact h.literal (fun _ => isToken_colorLiteral) (Problem.not_warning_of_error rfl)
  | branch => exact h.branchForm scope
  | choose => exact h.chooseForm scope
  | whileLoop => exact h.whileForm scope
  | forEach => exact h.forEachForm scope (by rw [hk]; rfl)
  | forRange => exact h.forRangeForm scope (by rw [hk]; rfl)
  | globalDef => exact h.globalForm (by rw [hk]; rfl)
  | variableGet => exact .pure (h.variableForm scope (by rw [hk]; rfl))
  | variableSet => exact h.setterForm scope (by rw [hk]; rfl)
  | argument => exact h.argumentForm scope (by rw [hk]; rfl)
  | procedureDef => exact h.procedureForm scope (by rw [hk]; rfl) (by rw [hk]; rfl)
  | procedureWithResult => exact h.functionForm scope (by rw [hk]; rfl) (by rw [hk]; rfl)
  | procedureCall => exact h.callForm scope (by rw [hk]; rfl)
  | componentEvent => exact h.handler (by rw [hk]; rfl) (some scope)
  | componentGetter => exact h.getterForm (by rw [hk]; rfl)
  | componentSetter => exact h.propertySetForm scope (by rw [hk]; rfl)
  | componentMethod => exact h.methodForm scope (by rw [hk]; rfl)
  | componentObject => exact .pure (h.objectForm (by rw [hk]; rfl))
  | componentTypeGetter => exact h.typeGetForm scope (by rw [hk]; rfl)
  | componentTypeSetter => exact h.typeSetForm scope (by rw [hk]; rfl)
  | componentTypeMethod => exact h.typeMethodForm scope (by rw [hk]; rfl)
  | primitive => exact h.primitiveForm scope

lemma genusForm : (c.genusForm gen genus b scope).Sat N F c.Readable := by
  rw [Compilation.genusForm]
  split
  · exact (h.noted _).bind fun _ _ => .pure fun _ => legible_null
  split
  · split
    · rename_i hk
      exact (h.handler (by rw [hk]; rfl) none).mono fun _ hf => hf.readable
    · exact .pure fun _ => legible_null
  · refine (((h.kindForm scope).mono fun _ hf => hf.readable).catchInternal h.said fun _ => legible_blank).bind
      fun code hcode => .pure fun hn => ?_
    rw [reported]
    split
    · exact legible_report b.id (hcode hn)
    · exact hcode hn

lemma noted_of_blank {f : Form} (ho : (c.genusForm gen genus b scope).outcome = .ok f) (hf : f.isBlank = true) :
    ∃ d ∈ (c.genusForm gen genus b scope).notes, d.severity ≠ .warning := by
  rw [Compilation.genusForm] at ho ⊢
  split at ho
  · obtain rfl := Except.ok.inj ho
    cases hf
  split at ho
  · split at ho
    · rename_i hk
      have hcode := (h.handler (by rw [hk]; rfl) none).value f ho
      rw [hcode.notBlank] at hf
      cases hf
    · obtain rfl := Except.ok.inj ho
      cases hf
  · rename_i hbad hactive
    rw [if_neg hbad, if_neg hactive]
    cases hx : (c.kindForm gen genus b scope).outcome with
    | ok code =>
      have hcode := (h.kindForm scope).value code hx
      rw [catchInternal_ok hx, bind_ok hx] at ho
      obtain rfl := Except.ok.inj ho
      rw [isBlank_reported hcode.notBlank] at hf
      cases hf
    | error e =>
      cases hi : e.problem.isInternal with
      | true =>
        refine ⟨e.diagnostic c.live, ?_, ?_⟩
        · rw [catchInternal_internal hx hi, bind_ok rfl]
          simp
        · exact Problem.not_warning_of_isInternal hi
      | false =>
        rw [catchInternal_error hx hi, bind_error hx] at ho
        cases ho

end Around

structure Tracked (c : Compilation) (N : Diagnostic → Prop) (F : Fault → Prop) (S : BlockId → Prop) : Prop where
  below : ∀ id b, S id → c.block? id = some b → ∀ x ∈ b.children, ∀ y ∈ c.workspace.blocks.stack x, S y
  met : ∀ id p, S id → N (Fault.diagnostic c.live ⟨id, p⟩)
  note : ∀ id b p, S id → c.block? id = some b → N (Fault.diagnostic c.live ⟨b.id, p⟩)
  fault : ∀ id b p, S id → c.block? id = some b → p.severity c.live ≠ .warning → F ⟨b.id, p⟩
  nameless : ∀ id b, S id → c.block? id = some b → ∀ genus ∈ c.lang.genus? b.genus, genus.kind.bindsName = true →
    (b.child? "variable").bind c.block? = none → F ⟨b.id, .emptySocket "variable"⟩
  said : ∀ e, F e → N (e.diagnostic c.live)

namespace Tracked

variable {S : BlockId → Prop} {id : BlockId} (h : c.Tracked N F S)

include h

lemma around (hid : S id) (hb : c.block? id = some b) (hg : c.lang.genus? b.genus = some genus)
    (hgen : ∀ y, S y → ∀ scope, (gen scope y).Sat N F c.Readable) : c.Around N F gen genus b where
  mem := BlockGraph.mem_list.mpr ⟨id, hb⟩
  genus_eq := hg
  gen x hx y hy scope := hgen y (h.below id b hid hb x hx y hy) scope
  note p := h.note id b p hid hb
  fault p := h.fault id b p hid hb
  nameless := h.nameless id b hid hb genus hg
  said := h.said

lemma blockForm (n : ℕ) (scope : Scope) (hid : S id) : (c.blockForm n scope id).Sat N F c.Readable := by
  induction n generalizing scope id with
  | zero => exact .pure fun _ => legible_blank
  | succ n ih =>
    rw [Compilation.blockForm]
    split
    · exact (Sat.noted (h.met id _ hid)).bind fun _ _ => .pure fun _ => legible_blank
    · rename_i b hb
      split
      · exact (Sat.noted (h.met id _ hid)).bind fun _ _ => .pure fun _ => legible_blank
      · exact (h.around hid hb ‹_› fun y hy scope => ih scope hy).genusForm scope

lemma clumpForm (hid : ∀ y ∈ c.workspace.blocks.stack id, S y) : (c.clumpForm id).Sat N F c.Readable := by
  rw [Compilation.clumpForm]
  split
  · rename_i first second rest he
    refine (stackForms_sat fun y hy => h.blockForm c.depth [] (hid y (he ▸ hy))).bind fun forms hforms => .pure ?_
    exact fun hn => legible_begin (legible_of_readable hforms hn)
  · exact h.blockForm c.depth [] (hid id (BlockGraph.mem_stack_self _ id))

end Tracked

end BlockStudio.Compilation
