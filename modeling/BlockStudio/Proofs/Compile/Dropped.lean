import BlockStudio.Proofs.Compile.Blocks
import BlockStudio.Proofs.Compile.Roots
import BlockStudio.Proofs.Workspace.Reached

/-! Which declarations a program lacks without an error: those that stop at a loop without a name. -/

namespace BlockStudio.Compilation

open Gen

variable {c : Compilation} {b : Block} {f : Form} {r : BlockId} {pre post : List BlockId} {res : RootResult}

def Nameless (c : Compilation) (x : BlockId) : Prop :=
  ∃ b genus, c.block? x = some b ∧ c.lang.genus? b.genus = some genus ∧ genus.kind.bindsName = true ∧
    b.child? "variable" = none

def Refused (c : Compilation) (pre : List BlockId) (r : BlockId) : Prop :=
  ∃ k, c.key? r = some k ∧ ∃ q ∈ pre, c.key? q = some k

structure Silent (c : Compilation) (r : BlockId) : Prop where
  dropped : ∀ res ∈ c.rootResults [] c.workspace.blocks.roots, res.root = r → res.form = none
  warned : ∀ d ∈ c.program.2, c.workspace.blocks.encloses r d.block = true → d.severity = .warning

structure Blamed (c : Compilation) (r : BlockId) (e : Fault) : Prop where
  below : c.workspace.blocks.encloses r e.block = true
  nameless : e.problem.severity c.live = .warning → e.problem = .emptySocket "variable" ∧ c.Nameless e.block

lemma severity_duplicateProblem (d : Declaration) (live : Bool) : (duplicateProblem d).severity live = .error := by
  cases d <;> rfl

lemma severity_emptySocket (label : String) {live : Bool} :
    (Problem.emptySocket label).severity live = .warning ↔ live = false := by
  cases live with
  | false => simp [Problem.severity]
  | true => simp [Problem.severity]

section Linked

variable (h : c.workspace.Linked)

include h

lemma tracked (r : BlockId) : c.Tracked (fun d => c.workspace.blocks.encloses r d.block = true) (c.Blamed r)
    (fun id => c.workspace.blocks.encloses r id = true) where
  below _ _ hid hb _ hx _ hy := BlockGraph.encloses_trans h.sound (encloses_child h.toWired hid hb hx)
    (BlockGraph.encloses_of_mem_stack h.sound hy)
  met _ _ hid := hid
  note id b _ hid hb := (h.own_id id b hb).symm ▸ hid
  fault id b _ hid hb hp := ⟨(h.own_id id b hb).symm ▸ hid, fun hs => absurd hs hp⟩
  nameless id b hid hb genus hg hk hx := by
    have hid' : b.id = id := h.own_id id b hb
    refine ⟨hid'.symm ▸ hid, fun _ => ⟨rfl, b, genus, hid'.symm ▸ hb, hg, hk, ?_⟩⟩
    cases hc : b.child? "variable" with
    | none => rfl
    | some x =>
      have hin := BlockGraph.contains_of_mem_children h.sound hb (Block.mem_children_of_child? hc)
      obtain ⟨name, hname⟩ := BlockGraph.contains_iff.mp hin
      rw [hc, Option.bind_some, block?, hname] at hx
      cases hx
  said _ he := he.below

lemma clumpForm_sat (r : BlockId) :
    (c.clumpForm r).Sat (fun d => c.workspace.blocks.encloses r d.block = true) (c.Blamed r) c.Readable :=
  (tracked h r).clumpForm fun _ hy => BlockGraph.encloses_of_mem_stack h.sound hy

lemma noted_of_blank (hb : c.block? r = some b) (hd : c.isDeclaration b = true) (ho : (c.clumpForm r).outcome = .ok f)
    (hf : f.isBlank = true) : ∃ d ∈ (c.clumpForm r).notes, d.severity ≠ .warning := by
  rw [clumpForm] at ho ⊢
  split at ho
  · rename_i first second rest _
    cases hx : (stackForms c.code [] (first :: second :: rest)).outcome with
    | ok forms =>
      rw [bind_ok hx] at ho
      obtain rfl := Except.ok.inj ho
      cases hf
    | error e =>
      rw [bind_error hx] at ho
      cases ho
  · cases hg : c.lang.genus? b.genus with
    | none => simp [isDeclaration, hg] at hd
    | some genus =>
      have hself := BlockGraph.encloses_self h.sound r
      have ha := (tracked h r).around hself hb hg fun y hy scope =>
        (tracked h r).blockForm c.workspace.blocks.size scope hy
      have hcode : c.code [] r = c.genusForm (c.blockForm c.workspace.blocks.size) genus b [] := by
        rw [code, depth, blockForm]
        simp only [hb, hg]
      rw [hcode] at ho ⊢
      exact ha.noted_of_blank [] ho hf

lemma encloses_of_mem_notes {d : Diagnostic} {keys : List String} {l : List BlockId}
    (hres : res ∈ c.rootResults keys l) (hd : d ∈ res.notes) :
    c.workspace.blocks.encloses res.root d.block = true := by
  rcases result_of_mem hres with he | ⟨p, he, -⟩
  · rw [he] at hd
    exact said_of_mem_unit (clumpForm_sat h res.root) (fun _ he => he.below) hd
  · rw [he] at hd
    exact List.mem_singleton.mp hd ▸ BlockGraph.encloses_self h.sound res.root

/-- Clumps have no block in common, so all that is said about one comes from its own root. -/
lemma silent_iff (hr : r ∈ c.workspace.blocks.roots)
    (hres : (c.rootResults [] c.workspace.blocks.roots).filter (fun res => res.root = r) = [res]) :
    c.Silent r ↔ res.form = none ∧ ∀ d ∈ res.notes, d.severity = .warning := by
  have hin : res ∈ c.rootResults [] c.workspace.blocks.roots ∧ res.root = r := by
    have hmem : res ∈ [res] := List.mem_singleton_self res
    rw [← hres] at hmem
    simpa using List.mem_filter.mp hmem
  have honly : ∀ res' ∈ c.rootResults [] c.workspace.blocks.roots, res'.root = r → res' = res := fun res' hm he =>
    List.mem_singleton.mp (hres ▸ List.mem_filter.mpr ⟨hm, decide_eq_true he⟩)
  constructor
  · intro hs
    refine ⟨hs.dropped res hin.1 hin.2, fun d hd => hs.warned d (List.mem_flatMap.mpr ⟨res, hin.1, hd⟩) ?_⟩
    exact hin.2 ▸ encloses_of_mem_notes h hin.1 hd
  · rintro ⟨hform, hnotes⟩
    refine ⟨fun res' hm he => honly res' hm he ▸ hform, fun d hd hbelow => ?_⟩
    obtain ⟨res', hm, hd⟩ := List.mem_flatMap.mp hd
    have htop := BlockGraph.topOfClump_of_encloses h.sound (BlockGraph.up_of_mem_roots h.own_id hr) hbelow
    have htop' := BlockGraph.topOfClump_of_encloses h.sound
      (BlockGraph.up_of_mem_roots h.own_id (root_mem_of_mem hm)) (encloses_of_mem_notes h hm hd)
    exact hnotes d (honly res' hm (htop'.symm.trans htop) ▸ hd)

lemma unit_silent_iff (hb : c.block? r = some b) (hd : c.isDeclaration b = true) :
    ((c.unitResult r).form = none ∧ ∀ d ∈ (c.unitResult r).notes, d.severity = .warning) ↔
      c.live = false ∧ ∃ x, c.Nameless x ∧ c.workspace.blocks.encloses r x = true ∧
        (c.clumpForm r).outcome = .error ⟨x, .emptySocket "variable"⟩ ∧
        ∀ d ∈ (c.clumpForm r).notes, d.severity = .warning := by
  rw [unitResult, Compilation.unit]
  cases ho : (c.clumpForm r).outcome with
  | ok f =>
    refine iff_of_false ?_ (by simp)
    rintro ⟨hform, hnotes⟩
    have hblank : f.isBlank = true := by simpa [Option.filter] using hform
    obtain ⟨d, hmem, hs⟩ := noted_of_blank h hb hd ho hblank
    exact hs (hnotes d hmem)
  | error e =>
    have hblamed := (clumpForm_sat h r).fault e ho
    constructor
    · rintro ⟨-, hnotes⟩
      have hs : e.problem.severity c.live = .warning := hnotes (e.diagnostic c.live) (by simp)
      obtain ⟨hp, hx⟩ := hblamed.nameless hs
      refine ⟨(severity_emptySocket "variable").mp (hp ▸ hs), e.block, hx, hblamed.below, ?_, fun d hmem => ?_⟩
      · rw [← hp]
      · exact hnotes d (List.mem_append_left _ hmem)
    · rintro ⟨hlive, x, -, -, he, hnotes⟩
      obtain rfl := Except.error.inj he
      refine ⟨rfl, fun d hmem => ?_⟩
      rcases List.mem_append.mp hmem with hmem | hmem
      · exact hnotes d hmem
      · obtain rfl := List.mem_singleton.mp hmem
        exact (severity_emptySocket "variable").mpr hlive

lemma results_of_declaration (hr : c.workspace.blocks.roots = pre ++ r :: post) (hb : c.block? r = some b)
    (hd : c.isDeclaration b = true) :
    (c.Refused pre r ∧ ∃ d, (c.rootResults [] c.workspace.blocks.roots).filter (fun res => res.root = r) =
      [c.onlyNote r (duplicateProblem d)]) ∨
    (¬ c.Refused pre r ∧
      (c.rootResults [] c.workspace.blocks.roots).filter (fun res => res.root = r) = [c.unitResult r]) := by
  have hn : (pre ++ r :: post).Nodup := hr ▸ BlockGraph.nodup_roots h.own_id
  rw [hr]
  cases hdecl : declarationOf? c.lang c.workspace r with
  | none =>
    refine .inr ⟨?_, results_of_unnamed hn hb hd hdecl⟩
    rintro ⟨k, hk, -⟩
    simp [key?, hdecl] at hk
  | some d =>
    have hrefused : c.Refused pre r ↔ ∃ q ∈ pre, c.key? q = some d.key := by
      simp [Refused, key?, hdecl]
    rw [results_of_declared hn hdecl, declaredResult, hrefused]
    split
    · exact .inl ⟨‹_›, d, rfl⟩
    · exact .inr ⟨‹_›, rfl⟩

end Linked

theorem dropped_silently_iff (hw : c.workspace.Reached) (hr : c.workspace.blocks.roots = pre ++ r :: post)
    (hb : c.block? r = some b) (hd : c.isDeclaration b = true) :
    (c.Silent r ↔ c.live = false ∧ ¬ c.Refused pre r ∧ ∃ x, c.Nameless x ∧ c.workspace.blocks.encloses r x = true ∧
      (c.clumpForm r).outcome = .error ⟨x, .emptySocket "variable"⟩ ∧
      ∀ d ∈ (c.clumpForm r).notes, d.severity = .warning) ∧
    ((∀ d ∈ c.program.2, d.severity = .warning) → c.Silent r ∨
      ∃ f ∈ c.program.1.under (c.ownerName r), f.isBlank = false ∧ (c.unit r).1 = some f) := by
  have h := hw.linked
  have hmem : r ∈ c.workspace.blocks.roots := hr ▸ List.mem_append_right pre List.mem_cons_self
  constructor
  · rcases results_of_declaration h hr hb hd with ⟨hrefused, d, hres⟩ | ⟨hkept, hres⟩
    · rw [silent_iff h hmem hres]
      refine iff_of_false ?_ (fun hs => hs.2.1 hrefused)
      rintro ⟨-, hnotes⟩
      have hs : (duplicateProblem d).severity c.live = .warning := hnotes _ (List.mem_singleton_self _)
      rw [severity_duplicateProblem] at hs
      cases hs
    · rw [silent_iff h hmem hres, unit_silent_iff h hb hd]
      simp only [hkept, not_false_eq_true, true_and]
  · intro hwarned
    by_cases hform : ∃ res ∈ c.rootResults [] c.workspace.blocks.roots, res.root = r ∧ res.form ≠ none
    · obtain ⟨res, hres, rfl, hne⟩ := hform
      obtain ⟨f, hf⟩ := Option.ne_none_iff_exists'.mp hne
      obtain ⟨hunit, hcode⟩ := unit_of_form hres hf
      exact .inr ⟨f, mem_under_of_mem hres hf, hcode, hunit⟩
    · push Not at hform
      exact .inl ⟨hform, fun d hd _ => hwarned d hd⟩

def loops : Language :=
  (({} : Language).addGenus
    { name := "procedure", kind := .procedureDef, initialLabel := "show",
      sockets := [{ label := "do", kind := .typed "cmd", command := true }] }).addGenus
    { name := "foreach", kind := .forEach, command := true,
      sockets := [{ label := "variable", kind := .typed "argument" }, { label := "in list", kind := .typed "list" },
        { label := "do", kind := .typed "cmd", command := true }] }

def unnamedLoop : Compilation where
  lang := loops
  rules :=
    { knownTypes := .empty, kinds := [], genera := [], propertyTypes := [], methodParams := [], methodReturns := [] }
  workspace := (Workspace.new "Screen1").edited
    [.addBlock loops "procedure" "", .addBlock loops "foreach" "", .graph (.connect 1 "do" 2)]
  live := false

theorem dropped_silently_unnamedLoop : unnamedLoop.Silent 1 := by
  have hw : unnamedLoop.workspace.Reached := ⟨_, _, rfl⟩
  have hr : unnamedLoop.workspace.blocks.roots = [] ++ 1 :: [] := by decide
  have hx : unnamedLoop.Nameless 2 := ⟨_, _, rfl, rfl, rfl, rfl⟩
  refine (dropped_silently_iff hw hr rfl (by decide)).1.mpr ⟨rfl, ?_, 2, hx, by decide, rfl, by decide⟩
  rintro ⟨k, -, q, hq, -⟩
  cases hq

theorem unnamedLoop_dropped :
    ¬ ∀ (c : Compilation) (r : BlockId) (b : Block), c.workspace.Reached → c.live = false →
      r ∈ c.workspace.blocks.roots → c.block? r = some b → c.isDeclaration b = true →
      (∀ res ∈ c.rootResults [] c.workspace.blocks.roots, res.root = r → res.form = none) →
      ∃ d ∈ c.program.2, c.workspace.blocks.encloses r d.block = true ∧ d.severity ≠ .warning := by
  intro h
  have hw : unnamedLoop.workspace.Reached := ⟨_, _, rfl⟩
  obtain ⟨d, hd, -, hs⟩ := h unnamedLoop 1 _ hw rfl (by decide) rfl (by decide) (by decide)
  have hwarned : ∀ d ∈ unnamedLoop.program.2, d.severity = .warning := by decide
  exact hs (hwarned d hd)

end BlockStudio.Compilation
