import BlockStudio.Proofs.Compile.Outcome
import BlockStudio.Proofs.Compile.Roots
import BlockStudio.Proofs.Links.Clump

namespace BlockStudio

namespace Form

def defined : List Form → List String
  | word name :: _ => [name]
  | list (word name :: _) :: _ => [name]
  | _ => []

def handled : List Form → List String
  | word component :: word event :: _ => [component ++ "." ++ event]
  | _ => []

mutual

/-- The keys of the definitions that a form makes when it is run. -/
def keys : Form → List String
  | list (word op :: args) =>
    if op = "def" then defined args
    else if op = "define-event" then handled args
    else if op = "begin" ∨ op = "report-block-value" then keysAll args
    else []
  | _ => []

def keysAll : List Form → List String
  | [] => []
  | f :: rest => keys f ++ keysAll rest

end

variable {f : Form} {op : String} {args forms : List Form}

lemma keysAll_eq (forms : List Form) : keysAll forms = forms.flatMap keys := by
  induction forms with
  | nil => rfl
  | cons f rest ih => rw [keysAll, ih, List.flatMap_cons]

lemma keys_of_isBlank (h : f.isBlank = true) : f.keys = [] := by
  cases f <;> first | rfl | cases h

lemma keys_of_word (s : String) : (word s).keys = [] := rfl

lemma keys_call (h : op ∉ ["def", "define-event", "begin", "report-block-value"]) : (call op args).keys = [] := by
  simp only [List.mem_cons, List.not_mem_nil, or_false, not_or] at h
  simp [call, keys, h]

lemma keys_defineGlobal (name : String) (value : Form) : (Yail.defineGlobal name value).keys = [name] := by
  simp [Yail.defineGlobal, call, keys, defined]

lemma keys_defineProcedure (name : String) (params : List String) (body : Form) :
    (Yail.defineProcedure name params body).keys = [name] := by
  simp [Yail.defineProcedure, Yail.words, call, keys, defined]

lemma keys_defineEvent (component event : String) (params : List String) (body : List Form) :
    (Yail.defineEvent component event params body).keys = [component ++ "." ++ event] := by
  simp [Yail.defineEvent, call, keys, handled]

lemma keys_begin (forms : List Form) : (Yail.begin forms).keys = forms.flatMap keys := by
  have hkept : (Yail.present forms).flatMap keys = forms.flatMap keys := by
    induction forms with
    | nil => rfl
    | cons f rest ih =>
      cases hf : f.isBlank with
      | true => simpa [Yail.present, hf, keys_of_isBlank hf] using ih
      | false => simpa [Yail.present, hf] using ih
  simp [Yail.begin, call, keys, keysAll_eq, hkept]

lemma keys_report (id : ℕ) (f : Form) : (Yail.report id f).keys = f.keys := by
  simp [Yail.report, call, keys, keysAll]

end Form

namespace Declaration

variable {d : Declaration}

def isHandler : Declaration → Bool
  | event _ _ _ => true
  | _ => false

lemma keys_nullForm (d : Declaration) : d.nullForm.keys = [d.key] := by
  cases d with
  | global name => exact Form.keys_defineGlobal name _
  | procedure name params => exact Form.keys_defineProcedure name params _
  | event component name params => exact Form.keys_defineEvent component name params _

end Declaration

namespace Gen

variable {α : Type} {Q : α → Prop} {x : Gen α}

def Answers (x : Gen α) (Q : α → Prop) : Prop := x.Sat (fun _ => True) (fun _ => True) Q

namespace Answers

lemma pure {a : α} (h : Q a) : (pure a : Gen α).Answers Q := Sat.pure h

lemma stop {id : BlockId} {p : Problem} : (Gen.fault id p : Gen α).Answers Q := Sat.stop trivial

lemma bind {β : Type} {y : Gen β} {f : β → Gen α} (h : ∀ b, y.outcome = .ok b → (f b).Answers Q) :
    (y >>= f).Answers Q :=
  Sat.bind ⟨fun _ _ => trivial, fun _ _ => trivial, fun _ hb => hb⟩ h

lemma catchInternal {live : Bool} {a : α} (h : x.Answers Q) (ha : Q a) : (Gen.catchInternal live a x).Answers Q :=
  Sat.catchInternal h (fun _ _ => trivial) ha

end Answers

end Gen

namespace Compilation

open Gen

variable {c : Compilation} {gen : Scope → BlockId → Gen Form} {genus : Genus} {b : Block} {x r : BlockId} {f : Form}
  {scope : Scope} {d : Declaration}

def issued? (c : Compilation) (x : BlockId) : Option String :=
  (c.block? x).bind fun b => (declarationOf? c.lang c.workspace x).bind fun d =>
    if !b.bad && (b.active || d.isHandler) then some d.key else none

section Kinds

variable (gen) (b) (scope)

lemma branchForm_keys : (c.branchForm gen b scope).Answers fun f => f.keys = [] := by
  refine .bind fun test _ => .bind fun yes _ => ?_
  split
  · exact .bind fun no _ => .pure (Form.keys_call (by decide))
  · exact .pure (Form.keys_call (by decide))

lemma variableForm_keys : (variableForm b scope).keys = [] := by
  rw [variableForm]
  split
  · exact Form.keys_call (by decide)
  · exact Form.keys_call (by decide)

lemma argumentForm_keys : (argumentForm b scope).Answers fun f => f.keys = [] := by
  rw [argumentForm]
  split
  · exact .pure (variableForm_keys b scope)
  · exact .stop

lemma setterForm_keys : (c.setterForm gen b scope).Answers fun f => f.keys = [] := by
  refine .bind fun value _ => .pure (Form.keys_call ?_)
  split
  · decide
  · decide

lemma callForm_keys : (c.callForm gen b scope).Answers fun f => f.keys = [] := by
  rw [callForm]
  split
  · exact .bind fun _ _ => .bind fun args _ => .pure (by simp [Form.call, Form.keys])
  · exact .bind fun args _ => .pure (by simp [Form.call, Form.keys])

lemma primitiveForm_keys : (c.primitiveForm gen genus b scope).Answers fun f => f.keys = [] := by
  rw [primitiveForm]
  split
  · exact .stop
  · exact .bind fun args _ => .pure (Form.keys_call (by decide))

lemma literal_keys (token : Option String) (p : Problem) : (literal b token p).Answers fun f => f.keys = [] := by
  cases token with
  | none => exact .stop
  | some t => exact .pure (Form.keys_of_word t)

lemma handler_keys (scope : Option Scope) : (c.handler gen b scope).Answers fun f =>
    ∃ m params, b.member? = some m ∧ eventParams? c.lang c.workspace b = some params ∧
      f.keys = [(Declaration.event m.1 m.2 params).key] := by
  refine .bind fun m hm => ?_
  have hmember : b.member? = some m := by
    rw [memberOf] at hm
    split at hm
    · rename_i hm'
      rw [hm', Except.ok.inj hm]
    · cases hm
  dsimp only
  split
  · exact .stop
  · rename_i params hparams
    exact .bind fun body _ => .pure ⟨m, params, hmember, hparams, Form.keys_defineEvent _ _ _ _⟩

variable {b}

lemma plainForm_keys (hk : genus.kind.isDeclaration = false) :
    (c.kindForm gen genus b scope).Answers fun f => f.keys = [] := by
  unfold kindForm
  cases hkind : genus.kind with
  | globalDef => simp [hkind, BlockKind.isDeclaration] at hk
  | procedureDef => simp [hkind, BlockKind.isDeclaration] at hk
  | procedureWithResult => simp [hkind, BlockKind.isDeclaration] at hk
  | componentEvent => simp [hkind, BlockKind.isDeclaration] at hk
  | number => exact literal_keys b _ _
  | text => exact .pure rfl
  | truth => exact .pure rfl
  | falsity => exact .pure rfl
  | color => exact literal_keys b _ _
  | branch => exact branchForm_keys gen b scope
  | choose => exact .bind fun _ _ => .bind fun _ _ => .bind fun _ _ => .pure (Form.keys_call (by decide))
  | whileLoop => exact .bind fun _ _ => .bind fun _ _ => .pure (Form.keys_call (by decide))
  | forEach => exact .bind fun _ _ => .bind fun _ _ => .bind fun _ _ => .pure (Form.keys_call (by decide))
  | forRange =>
    exact .bind fun _ _ => .bind fun _ _ => .bind fun _ _ => .bind fun _ _ => .bind fun _ _ =>
      .pure (Form.keys_call (by decide))
  | variableGet => exact .pure (variableForm_keys b scope)
  | variableSet => exact setterForm_keys gen b scope
  | argument => exact argumentForm_keys b scope
  | procedureCall => exact callForm_keys gen b scope
  | componentGetter => exact .bind fun _ _ => .pure (Form.keys_call (by decide))
  | componentSetter => exact .bind fun _ _ => .bind fun _ _ => .bind fun _ _ => .pure (Form.keys_call (by decide))
  | componentMethod => exact .bind fun _ _ => .bind fun _ _ => .pure (Form.keys_call (by decide))
  | componentObject => exact .pure (Form.keys_call (by decide))
  | componentTypeGetter => exact .bind fun _ _ => .bind fun _ _ => .pure (Form.keys_call (by decide))
  | componentTypeSetter => exact .bind fun _ _ => .bind fun _ _ => .bind fun _ _ => .pure (Form.keys_call (by decide))
  | componentTypeMethod => exact .bind fun _ _ => .bind fun _ _ => .bind fun _ _ => .pure (Form.keys_call (by decide))
  | primitive => exact primitiveForm_keys gen b scope

variable (hb : c.block? x = some b) (hg : c.lang.genus? b.genus = some genus)

include hb hg

lemma declarationOf?_of_event (hk : genus.kind = .componentEvent) {m : String × String} {params : List String}
    (hm : b.member? = some m) (hp : eventParams? c.lang c.workspace b = some params) :
    declarationOf? c.lang c.workspace x = some (.event m.1 m.2 params) := by
  have hb' : c.workspace.blocks.get? x = some b := hb
  simp [declarationOf?, hb', hg, hk, hm, hp]

lemma key?_of_plain (hk : genus.kind.isDeclaration = false) : c.key? x = none := by
  rw [key?, Option.map_eq_none_iff, Option.eq_none_iff_forall_ne_some]
  intro d hd
  obtain ⟨b', hb', hdecl⟩ := exists_declaration hd
  obtain rfl := Option.some.inj (hb.symm.trans hb')
  simp [isDeclaration, hg, hk] at hdecl

lemma kindForm_keys : (c.kindForm gen genus b scope).Answers fun f => f.keys = (c.key? x).toList := by
  have hb' : c.workspace.blocks.get? x = some b := hb
  cases hk : genus.kind.isDeclaration with
  | false =>
    rw [key?_of_plain hb hg hk]
    exact plainForm_keys gen scope hk
  | true =>
    unfold kindForm
    cases hkind : genus.kind with
    | globalDef =>
      have hkey : c.key? x = some b.label := by simp [key?, declarationOf?, hb', hg, hkind, Declaration.key]
      rw [hkey]
      exact .bind fun value _ => .pure (Form.keys_defineGlobal b.label value)
    | procedureDef =>
      have hkey : c.key? x = some b.label := by simp [key?, declarationOf?, hb', hg, hkind, Declaration.key]
      rw [hkey]
      exact .bind fun body _ => .pure (Form.keys_defineProcedure b.label _ body)
    | procedureWithResult =>
      have hkey : c.key? x = some b.label := by simp [key?, declarationOf?, hb', hg, hkind, Declaration.key]
      rw [hkey]
      exact .bind fun result _ => .pure (Form.keys_defineProcedure b.label _ result)
    | componentEvent =>
      refine (handler_keys gen b (some scope)).mono fun f hf => ?_
      obtain ⟨m, params, hm, hp, hf⟩ := hf
      rw [hf, key?, declarationOf?_of_event hb hg hkind hm hp]
      rfl
    | _ => simp [hkind, BlockKind.isDeclaration] at hk

lemma genusForm_off (hd : declarationOf? c.lang c.workspace x = some d) (hbad : b.bad = false)
    (ha : b.active = false) :
    c.genusForm gen genus b scope = pure (if d.isHandler then d.nullForm else Yail.null) := by
  have hb' : c.workspace.blocks.get? x = some b := hb
  simp only [declarationOf?, hb', hg, Option.bind_eq_bind, Option.bind_some] at hd
  simp only [genusForm, hbad, ha, Bool.false_eq_true, if_false, Bool.not_false, if_true]
  cases hk : genus.kind with
  | componentEvent =>
    simp only [hk] at hd
    obtain ⟨m, hm, hd⟩ := Option.bind_eq_some_iff.mp hd
    obtain ⟨params, hp, hd⟩ := Option.bind_eq_some_iff.mp hd
    obtain rfl := Option.some.inj hd
    simp only [handler, memberOf, hm, hp]
    rfl
  | globalDef | procedureDef | procedureWithResult =>
    simp only [hk] at hd
    obtain rfl := Option.some.inj hd
    rfl
  | _ => simp [hk] at hd

lemma off_keys (hbad : b.bad = false) (ha : b.active = false) : (c.genusForm gen genus b scope).Answers fun f =>
    f.keys = (c.issued? x).toList := by
  cases hd : declarationOf? c.lang c.workspace x with
  | some d =>
    have hissued : c.issued? x = if d.isHandler then some d.key else none := by simp [issued?, hb, hd, hbad, ha]
    rw [genusForm_off gen scope hb hg hd hbad ha, hissued]
    split
    · exact .pure (Declaration.keys_nullForm d)
    · exact .pure rfl
  | none =>
    have hissued : c.issued? x = none := by simp [issued?, hd]
    simp only [hissued, genusForm, hbad, ha, Bool.false_eq_true, if_false, Bool.not_false, if_true]
    split
    · rename_i hk
      refine (handler_keys gen b none).mono fun f hf => ?_
      obtain ⟨m, params, hm, hp, -⟩ := hf
      rw [declarationOf?_of_event hb hg hk hm hp] at hd
      cases hd
    · exact .pure rfl

lemma genusForm_keys : (c.genusForm gen genus b scope).Answers fun f =>
    f.isBlank = false → f.keys = (c.issued? x).toList := by
  cases hbad : b.bad with
  | true =>
    have hissued : c.issued? x = none := by simp [issued?, hb, hbad]
    rw [genusForm, if_pos hbad, hissued]
    exact .bind fun _ _ => .pure fun _ => rfl
  | false =>
    cases ha : b.active with
    | false => exact (off_keys gen scope hb hg hbad ha).mono fun f hf _ => hf
    | true =>
      have hissued : c.issued? x = c.key? x := by
        simp only [issued?, hb, Option.bind_some, hbad, ha, key?, Option.map_eq_bind]
        rfl
      simp only [hissued, genusForm, hbad, ha, Bool.false_eq_true, if_false, Bool.not_true]
      have hkind : (c.kindForm gen genus b scope).Answers fun f => f.isBlank = false → f.keys = (c.key? x).toList :=
        (kindForm_keys gen scope hb hg).mono fun f hf _ => hf
      refine Sat.bind (hkind.catchInternal fun h => Bool.noConfusion h) fun code hcode => .pure ?_
      rw [reported]
      split
      · rename_i hreport
        exact fun _ => (Form.keys_report b.id code).trans (hcode (by simpa using (Bool.and_eq_true_iff.mp hreport).2))
      · exact hcode

end Kinds

lemma code_keys (scope : Scope) (x : BlockId) : (c.code scope x).Answers fun f =>
    f.isBlank = false → f.keys = (c.issued? x).toList := by
  rw [code, depth, blockForm]
  split
  · exact .bind fun _ _ => .pure fun h => nomatch h
  · split
    · exact .bind fun _ _ => .pure fun h => nomatch h
    · exact genusForm_keys _ scope ‹_› ‹_›

lemma code_off (hb : c.block? x = some b) (hd : declarationOf? c.lang c.workspace x = some d) (hbad : b.bad = false)
    (ha : b.active = false) (scope : Scope) :
    c.code scope x = pure (if d.isHandler then d.nullForm else Yail.null) := by
  obtain ⟨b', hb', hdecl⟩ := exists_declaration hd
  obtain rfl := Option.some.inj (hb.symm.trans hb')
  cases hg : c.lang.genus? b.genus with
  | none => simp [isDeclaration, hg] at hdecl
  | some genus =>
    simp only [code, depth, blockForm, hb, hg]
    exact genusForm_off _ scope hb hg hd hbad ha

def written? (c : Compilation) (x : BlockId) : Option Form :=
  (c.code [] x).outcome.toOption.filter fun f => !f.isBlank

lemma written?_eq_some : c.written? x = some f ↔ (c.code [] x).outcome = .ok f ∧ f.isBlank = false := by
  rw [written?]
  cases (c.code [] x).outcome with
  | ok g => simp [Except.toOption, Option.filter_eq_some_iff]
  | error e => simp [Except.toOption]

lemma keys_of_written? (h : c.written? x = some f) : f.keys = (c.issued? x).toList := by
  obtain ⟨hf, hblank⟩ := written?_eq_some.mp h
  exact (code_keys [] x).value f hf hblank

lemma stackForms_written (l : List BlockId) : (stackForms c.code [] l).Answers fun forms =>
    forms = l.filterMap c.written? := by
  induction l with
  | nil => exact .pure rfl
  | cons x l ih =>
    refine .bind fun form hform => .bind fun forms hforms => .pure ?_
    rw [ih.value forms hforms, List.filterMap_cons]
    cases hblank : form.isBlank with
    | true => simp [written?, hform, Except.toOption, Option.filter, hblank]
    | false => simp [written?, hform, Except.toOption, Option.filter, hblank]

lemma mem_keys_of_written? {k : String} : (∃ f, c.written? x = some f ∧ k ∈ f.keys) ↔
    (c.written? x).isSome = true ∧ c.issued? x = some k := by
  rw [Option.isSome_iff_exists]
  constructor
  · rintro ⟨f, hf, hk⟩
    rw [keys_of_written? hf, Option.mem_toList] at hk
    exact ⟨⟨f, hf⟩, hk⟩
  · rintro ⟨⟨f, hf⟩, hk⟩
    exact ⟨f, hf, by simp [keys_of_written? hf, hk]⟩

lemma unit_form (r : BlockId) : (c.unit r).1 = (c.clumpForm r).outcome.toOption := by
  rw [unit]
  cases (c.clumpForm r).outcome <;> rfl

lemma mem_keys_unitResult {k : String} (r : BlockId) :
    (∃ f, (c.unitResult r).form = some f ∧ k ∈ f.keys) ↔
      (c.unit r).1.isSome = true ∧
        ∃ x ∈ c.workspace.blocks.stack r, (c.written? x).isSome = true ∧ c.issued? x = some k := by
  have hform : (c.unitResult r).form = (c.unit r).1.filter fun f => !f.isBlank := rfl
  have hself := BlockGraph.mem_stack_self c.workspace.blocks r
  rw [hform, unit_form, clumpForm]
  split
  · rename_i x y l hs
    simp only [← mem_keys_of_written?]
    cases ho : (stackForms c.code [] (x :: y :: l)).outcome with
    | error e => simp [Gen.bind_error ho, Except.toOption]
    | ok forms =>
      have hforms := (stackForms_written (x :: y :: l)).value forms ho
      have hkeys : k ∈ (Yail.begin forms).keys ↔ ∃ z ∈ x :: y :: l, ∃ f, c.written? z = some f ∧ k ∈ f.keys := by
        rw [Form.keys_begin, hforms, List.mem_flatMap]
        constructor
        · rintro ⟨f, hf, hk⟩
          obtain ⟨z, hz, hf⟩ := List.mem_filterMap.mp hf
          exact ⟨z, hz, f, hf, hk⟩
        · rintro ⟨z, hz, f, hf, hk⟩
          exact ⟨f, List.mem_filterMap.mpr ⟨z, hz, hf⟩, hk⟩
      rw [Gen.bind_ok ho, hs, ← hkeys]
      simp [Gen.pure_def, Except.toOption, Option.filter, Yail.begin, Form.call, Form.isBlank]
  · rename_i hs
    have hone : c.workspace.blocks.stack r = [r] := by
      cases hl : c.workspace.blocks.stack r with
      | nil => simp [hl] at hself
      | cons x l =>
        cases l with
        | nil => simp_all
        | cons y l => exact absurd hl (hs x y l)
    have hcode : (c.code [] r).outcome.toOption.filter (fun f => !f.isBlank) = c.written? r := rfl
    have hsome : (c.written? r).isSome = true → (c.code [] r).outcome.toOption.isSome = true := fun h => by
      obtain ⟨f, hf⟩ := Option.isSome_iff_exists.mp h
      rw [(written?_eq_some.mp hf).1]
      rfl
    simp only [hcode, mem_keys_of_written?, hone, List.mem_singleton, exists_eq_left]
    exact ⟨fun h => ⟨hsome h.1, h⟩, fun h => h.2⟩

end Compilation

end BlockStudio
