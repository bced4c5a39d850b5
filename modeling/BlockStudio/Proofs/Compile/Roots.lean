import BlockStudio.Compile.Program
import BlockStudio.Proofs.Links.Edits

namespace BlockStudio

namespace BlockGraph

variable {g : BlockGraph}

lemma nodup_roots (hid : ∀ k b, g.get? k = some b → b.id = k) : g.roots.Nodup := by
  have hkeys : g.list.map (·.id) = g.blocks.keys := by
    rw [list, SortedMap.values, List.map_map]
    apply List.map_congr_left
    intro e he
    exact hid e.1 e.2 ((SortedMap.get?_eq_some_iff _ _ _).mpr he)
  have hsub : g.roots.Sublist g.blocks.keys := by
    rw [← hkeys]
    exact List.filter_sublist.map _
  exact hsub.nodup (nodup_keys g)

end BlockGraph

namespace BlockCode

variable {code : BlockCode}

def under (code : BlockCode) : Option String → List Form
  | some component => code.handlersOf component
  | none => code.globals

lemma under_add (owner owner' : Option String) (form : Form) :
    (code.add owner form).under owner' = if owner' = owner then code.under owner ++ [form] else code.under owner' := by
  cases owner with
  | none =>
    cases owner' with
    | none => rfl
    | some component => rfl
  | some name =>
    cases owner' with
    | none => rfl
    | some component =>
      simp only [add, under, handlersOf, NameMap.get?_put, Option.some.injEq]
      split
      · rfl
      · rfl

end BlockCode

namespace Compilation

variable {c : Compilation} {b : Block} {f : Form} {r root : BlockId} {d : Declaration} {l pre post : List BlockId}
  {keys : List String} {res : RootResult}

def key? (c : Compilation) (id : BlockId) : Option String := (declarationOf? c.lang c.workspace id).map (·.key)

lemma exists_declaration (h : declarationOf? c.lang c.workspace root = some d) :
    ∃ b, c.block? root = some b ∧ c.isDeclaration b = true := by
  rw [declarationOf?] at h
  obtain ⟨b, hb, h⟩ := Option.bind_eq_some_iff.mp h
  obtain ⟨genus, hg, h⟩ := Option.bind_eq_some_iff.mp h
  refine ⟨b, hb, ?_⟩
  rw [isDeclaration, hg]
  show genus.kind.isDeclaration = true
  generalize genus.kind = kind at h ⊢
  cases kind <;> first | rfl | cases h

lemma rootResults_declared (h : declarationOf? c.lang c.workspace root = some d) (keys : List String) :
    c.rootResults keys (root :: l) =
      if d.key ∈ keys then c.onlyNote root (duplicateProblem d) :: c.rootResults keys l
      else c.unitResult root :: c.rootResults (d.key :: keys) l := by
  obtain ⟨b, hb, hd⟩ := exists_declaration h
  simp only [rootResults, hb, hd, h, if_true]

lemma rootResults_unnamed (hb : c.block? root = some b) (hd : c.isDeclaration b = true)
    (h : declarationOf? c.lang c.workspace root = none) (keys : List String) :
    c.rootResults keys (root :: l) = c.unitResult root :: c.rootResults keys l := by
  simp only [rootResults, hb, hd, h, if_true]

lemma rootResults_undeclared (h : declarationOf? c.lang c.workspace root = none) :
    ∃ results : List RootResult, (∀ res ∈ results, res.root = root) ∧
      ∀ keys l, c.rootResults keys (root :: l) = results ++ c.rootResults keys l := by
  cases hb : c.block? root with
  | none => exact ⟨[], by simp, fun keys l => by simp only [rootResults, hb, List.nil_append]⟩
  | some b =>
    cases hd : c.isDeclaration b with
    | true =>
      exact ⟨[c.unitResult root], by simp [unitResult], fun keys l => rootResults_unnamed hb hd h keys⟩
    | false =>
      refine ⟨[c.onlyNote root .loose], by simp [onlyNote], fun keys l => ?_⟩
      simp only [rootResults, hb, hd, Bool.false_eq_true, if_false, List.singleton_append]

lemma rootResults_append (keys : List String) (pre l : List BlockId) :
    ∃ taken, c.rootResults keys (pre ++ l) = c.rootResults keys pre ++ c.rootResults taken l ∧
      ∀ k, k ∈ taken ↔ k ∈ keys ∨ ∃ q ∈ pre, c.key? q = some k := by
  induction pre generalizing keys with
  | nil => exact ⟨keys, rfl, by simp⟩
  | cons q pre ih =>
    cases hd : declarationOf? c.lang c.workspace q with
    | none =>
      have hq : c.key? q = none := by rw [key?, hd, Option.map_none]
      obtain ⟨results, -, hr⟩ := rootResults_undeclared hd
      obtain ⟨taken, ht, hk⟩ := ih keys
      refine ⟨taken, ?_, fun k => ?_⟩
      · rw [List.cons_append, hr, hr, ht, List.append_assoc]
      · simp [hk, hq]
    | some d =>
      have hq : c.key? q = some d.key := by rw [key?, hd, Option.map_some]
      rw [List.cons_append]
      simp only [rootResults_declared hd]
      by_cases hin : d.key ∈ keys
      · obtain ⟨taken, ht, hk⟩ := ih keys
        refine ⟨taken, ?_, fun k => ?_⟩
        · rw [if_pos hin, if_pos hin, ht, List.cons_append]
        · rw [hk]
          simp only [List.exists_mem_cons_iff, hq, Option.some.injEq]
          constructor
          · exact Or.imp_right Or.inr
          · rintro (h | rfl | h)
            · exact .inl h
            · exact .inl hin
            · exact .inr h
      · obtain ⟨taken, ht, hk⟩ := ih (d.key :: keys)
        refine ⟨taken, ?_, fun k => ?_⟩
        · rw [if_neg hin, if_neg hin, ht, List.cons_append]
        · rw [hk, List.mem_cons, eq_comm (a := k)]
          simp only [List.exists_mem_cons_iff, hq, Option.some.injEq, or_assoc, or_left_comm]

lemma root_mem_of_mem (h : res ∈ c.rootResults keys l) : res.root ∈ l := by
  induction l generalizing keys with
  | nil => cases h
  | cons q l ih =>
    cases hd : declarationOf? c.lang c.workspace q with
    | none =>
      obtain ⟨results, hroot, hr⟩ := rootResults_undeclared hd
      rw [hr] at h
      rcases List.mem_append.mp h with h | h
      · exact hroot res h ▸ List.mem_cons_self
      · exact List.mem_cons_of_mem q (ih h)
    | some d =>
      rw [rootResults_declared hd] at h
      split at h
      · rcases List.mem_cons.mp h with rfl | h
        · exact List.mem_cons_self
        · exact List.mem_cons_of_mem q (ih h)
      · rcases List.mem_cons.mp h with rfl | h
        · exact List.mem_cons_self
        · exact List.mem_cons_of_mem q (ih h)

lemma result_of_mem (h : res ∈ c.rootResults keys l) :
    res = c.unitResult res.root ∨
      ∃ p, res = c.onlyNote res.root p ∧ (p = .loose ∨ ∃ d, p = duplicateProblem d) := by
  fun_induction c.rootResults keys l with
  | case1 => cases h
  | case2 _ _ _ _ ih => exact ih h
  | case3 _ _ _ _ _ _ d _ _ ih =>
    rcases List.mem_cons.mp h with rfl | h
    · exact .inr ⟨duplicateProblem d, rfl, .inr ⟨d, rfl⟩⟩
    · exact ih h
  | case4 _ _ _ _ _ _ _ _ _ ih =>
    rcases List.mem_cons.mp h with rfl | h
    · exact .inl rfl
    · exact ih h
  | case5 _ _ _ _ _ _ _ ih =>
    rcases List.mem_cons.mp h with rfl | h
    · exact .inl rfl
    · exact ih h
  | case6 _ _ _ _ _ _ ih =>
    rcases List.mem_cons.mp h with rfl | h
    · exact .inr ⟨.loose, rfl, .inl rfl⟩
    · exact ih h

lemma unit_of_form (h : res ∈ c.rootResults keys l) (hf : res.form = some f) :
    (c.unit res.root).1 = some f ∧ f.isBlank = false := by
  rcases result_of_mem h with he | ⟨p, he, -⟩
  · rw [he] at hf
    obtain ⟨hunit, hcode⟩ := Option.filter_eq_some_iff.mp hf
    exact ⟨hunit, by simpa using hcode⟩
  · rw [he] at hf
    cases hf

lemma filter_rootResults (h : r ∉ l) : (c.rootResults keys l).filter (fun res => res.root = r) = [] := by
  rw [List.filter_eq_nil_iff]
  intro res hres he
  exact h (of_decide_eq_true he ▸ root_mem_of_mem hres)

def declaredResult (c : Compilation) (pre : List BlockId) (r : BlockId) (d : Declaration) : RootResult :=
  if ∃ q ∈ pre, c.key? q = some d.key then c.onlyNote r (duplicateProblem d) else c.unitResult r

lemma root_declaredResult : (c.declaredResult pre r d).root = r := by
  rw [declaredResult]
  split
  · rfl
  · rfl

lemma results_of_root (hn : (pre ++ r :: post).Nodup) :
    ∃ taken, (∀ k, k ∈ taken ↔ ∃ q ∈ pre, c.key? q = some k) ∧
      (c.rootResults [] (pre ++ r :: post)).filter (fun res => res.root = r) = c.rootResults taken [r] := by
  obtain ⟨taken, ht, hk⟩ := rootResults_append (c := c) [] pre (r :: post)
  obtain ⟨later, hl, -⟩ := rootResults_append (c := c) taken [r] post
  obtain ⟨_, hpost, hdisj⟩ := List.nodup_append.mp hn
  have hpre : r ∉ pre := fun hr => hdisj r hr r List.mem_cons_self rfl
  have hself : ∀ res ∈ c.rootResults taken [r], decide (res.root = r) = true := fun res hres =>
    decide_eq_true (List.mem_singleton.mp (root_mem_of_mem hres))
  refine ⟨taken, by simp [hk], ?_⟩
  rw [ht, List.filter_append, filter_rootResults hpre, List.nil_append, ← List.singleton_append, hl,
    List.filter_append, filter_rootResults (List.nodup_cons.mp hpost).1, List.append_nil, List.filter_eq_self.mpr hself]

lemma results_of_declared (hn : (pre ++ r :: post).Nodup) (h : declarationOf? c.lang c.workspace r = some d) :
    (c.rootResults [] (pre ++ r :: post)).filter (fun res => res.root = r) = [c.declaredResult pre r d] := by
  obtain ⟨taken, hk, hres⟩ := results_of_root (c := c) hn
  rw [hres, rootResults_declared h, declaredResult]
  by_cases hin : d.key ∈ taken
  · rw [if_pos hin, if_pos ((hk d.key).mp hin)]
    rfl
  · rw [if_neg hin, if_neg (mt (hk d.key).mpr hin)]
    rfl

lemma results_of_unnamed (hn : (pre ++ r :: post).Nodup) (hb : c.block? r = some b) (hd : c.isDeclaration b = true)
    (h : declarationOf? c.lang c.workspace r = none) :
    (c.rootResults [] (pre ++ r :: post)).filter (fun res => res.root = r) = [c.unitResult r] := by
  obtain ⟨taken, -, hres⟩ := results_of_root (c := c) hn
  rw [hres, rootResults_unnamed hb hd h]
  rfl

lemma under_program (c : Compilation) (owner : Option String) :
    c.program.1.under owner =
      ((c.rootResults [] c.workspace.blocks.roots).filter fun res => c.ownerName res.root = owner).filterMap (·.form) := by
  have key : ∀ (results : List RootResult) (code : BlockCode), (results.foldl c.addResult code).under owner =
      code.under owner ++ (results.filter fun res => c.ownerName res.root = owner).filterMap (·.form) := by
    intro results
    induction results with
    | nil => exact fun code => by simp
    | cons res results ih =>
      intro code
      rw [List.foldl_cons, ih, addResult]
      cases hf : res.form with
      | none => by_cases ho : c.ownerName res.root = owner <;> simp [ho, hf]
      | some form =>
        by_cases ho : owner = c.ownerName res.root
        · subst ho
          simp [hf, BlockCode.under_add]
        · have hne : c.ownerName res.root ≠ owner := Ne.symm ho
          simp [ho, hne, BlockCode.under_add]
  rw [program, key]
  cases owner with
  | none => rfl
  | some component => rfl

lemma mem_under_of_mem (h : res ∈ c.rootResults [] c.workspace.blocks.roots) (hf : res.form = some f) :
    f ∈ c.program.1.under (c.ownerName res.root) := by
  rw [under_program, List.mem_filterMap]
  exact ⟨res, List.mem_filter.mpr ⟨h, decide_eq_true rfl⟩, hf⟩

end Compilation

end BlockStudio
