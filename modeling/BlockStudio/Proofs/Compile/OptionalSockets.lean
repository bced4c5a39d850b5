import BlockStudio.Proofs.Compile.Parts
import BlockStudio.Proofs.Compile.Roots
import BlockStudio.Proofs.Workspace.Reached

/-! What is said of optional sockets that hold no block. -/

namespace BlockStudio

def Block.IsOptional (b : Block) (label : String) : Prop := ∃ s, b.socket? label = some s ∧ s.optional = true

namespace Compilation

open Gen

variable {c : Compilation} {gen : Scope → BlockId → Gen Form} {b : Block} {scope : Scope} {label : String}
  {part : Part} {root id : BlockId} {p : Problem} {d : Diagnostic} {e : Fault}

def AboutOptional (c : Compilation) (id : BlockId) (p : Problem) : Prop :=
  ∃ b label, c.block? id = some b ∧ p = .emptySocket label ∧ b.IsOptional label

def Unnamed (c : Compilation) (b : Block) (label : String) : Prop := (b.child? label).bind c.block? = none

lemma isHole_of_aboutOptional (h : c.AboutOptional id p) : p.isHole = true := by
  obtain ⟨_, _, -, rfl, -⟩ := h
  rfl

lemma ownForm_expr (ho : b.IsOptional label) (hc : b.child? label = none) :
    c.ownForm b (.expr label) = hole c.live b.id label true := by
  obtain ⟨s, hs, hopt⟩ := ho
  rw [Block.child?, hs, Option.bind_some] at hc
  simp [ownForm, hs, hc, hopt]

lemma ownForm_name (h : c.Unnamed b label) : c.ownForm b (.name label) = Gen.fault b.id (.emptySocket label) := by
  rw [ownForm, if_pos (by rw [h]; rfl)]

lemma mem_said_hole {live optional : Bool} : d ∈ (hole live id label optional).said live ↔
    (live = true → optional = false) ∧ d = Fault.diagnostic live ⟨id, .emptySocket label⟩ := by
  cases live with
  | true =>
    cases optional with
    | true => exact iff_of_false List.not_mem_nil fun h => Bool.false_ne_true (h.1 rfl).symm
    | false => exact List.mem_singleton.trans (and_iff_right fun _ => rfl).symm
  | false => exact List.mem_singleton.trans (and_iff_right fun h => absurd h Bool.false_ne_true).symm

lemma lacks_of_mem_said (h : d ∈ (c.ownForm b part).said c.live) : ∃ label,
    d = Fault.diagnostic c.live ⟨b.id, .emptySocket label⟩ ∧
      (part = .expr label ∧ b.child? label = none ∧ (c.live = true → ¬ b.IsOptional label) ∨
        part = .name label ∧ c.Unnamed b label) := by
  cases part with
  | body label => cases h
  | expr label =>
    rw [ownForm] at h
    cases hs : b.socket? label with
    | none =>
      rw [hs] at h
      cases h
    | some s =>
      rw [hs] at h
      dsimp only at h
      split at h
      · rename_i hnone
        obtain ⟨hlive, hd⟩ := mem_said_hole.mp h
        refine ⟨label, hd, .inl ⟨rfl, ?_, fun hl => ?_⟩⟩
        · rw [Block.child?, hs]
          exact Option.isNone_iff_eq_none.mp hnone
        · rintro ⟨t, ht, hopt⟩
          obtain rfl := Option.some.inj (hs.symm.trans ht)
          cases (hlive hl).symm.trans hopt
      · cases h
  | name label =>
    rw [ownForm] at h
    split at h
    · rename_i hnone
      exact ⟨label, List.mem_singleton.mp h, .inr ⟨rfl, Option.isNone_iff_eq_none.mp hnone⟩⟩
    · cases h

lemma mem_said_of_error {α : Type} {x : Gen α} {live : Bool} (h : x.outcome = .error e) :
    e.diagnostic live ∈ x.said live := by
  rw [said_error h]
  exact List.mem_append_right _ (List.mem_singleton_self _)

section Kept

variable (hid : ∀ k b, c.block? k = some b → b.id = k)

include hid

lemma aboutOptional_iff (h : c.Reaches root b part) :
    c.AboutOptional b.id (.emptySocket label) ↔ b.IsOptional label := by
  obtain ⟨x, hx⟩ := h.exists_block
  have hb : c.block? b.id = some b := (hid x b hx).symm ▸ hx
  constructor
  · rintro ⟨b', label', hb', hlabel, ho⟩
    obtain rfl := Option.some.inj (hb.symm.trans hb')
    obtain rfl := Problem.emptySocket.inj hlabel
    exact ho
  · exact fun ho => ⟨b, label, hb, rfl, ho⟩

lemma optional_hole_iff (root : BlockId) (d : Diagnostic) :
    d ∈ (c.unit root).2 ∧ c.AboutOptional d.block d.problem ↔
      ∃ b label, b.IsOptional label ∧ d = Fault.diagnostic c.live ⟨b.id, .emptySocket label⟩ ∧
        (c.live = false ∧ b.child? label = none ∧ c.Reaches root b (.expr label) ∨
          c.Unnamed b label ∧ c.Reaches root b (.name label)) := by
  constructor
  · rintro ⟨hd, habout⟩
    rw [← said_clumpForm] at hd
    obtain ⟨b, part, hreach, hown⟩ :=
      (seen_clumpForm_iff (saying c.live d (isHole_of_aboutOptional habout)) root).mp hd
    obtain ⟨label, rfl, hpart⟩ := lacks_of_mem_said hown
    have ho := (aboutOptional_iff hid hreach).mp habout
    refine ⟨b, label, ho, rfl, ?_⟩
    obtain ⟨rfl, hc, hlive⟩ | ⟨rfl, hn⟩ := hpart
    · exact .inl ⟨Bool.eq_false_iff.mpr fun hl => hlive hl ho, hc, hreach⟩
    · exact .inr ⟨hn, hreach⟩
  · rintro ⟨b, label, ho, rfl, hcase⟩
    rw [← said_clumpForm]
    have hseen :=
      (seen_clumpForm_iff (saying c.live (Fault.diagnostic c.live ⟨b.id, .emptySocket label⟩) rfl) root).mpr
    obtain ⟨hlive, hc, hreach⟩ | ⟨hn, hreach⟩ := hcase
    · refine ⟨hseen ⟨b, .expr label, hreach, ?_⟩, (aboutOptional_iff hid hreach).mpr ho⟩
      show _ ∈ (c.ownForm b (.expr label)).said c.live
      rw [ownForm_expr ho hc]
      exact mem_said_hole.mpr ⟨fun hl => (by rw [hlive] at hl; cases hl), rfl⟩
    · refine ⟨hseen ⟨b, .name label, hreach, ?_⟩, (aboutOptional_iff hid hreach).mpr ho⟩
      show _ ∈ (c.ownForm b (.name label)).said c.live
      rw [ownForm_name hn]
      exact List.mem_singleton_self _

lemma stops_at_optional_iff (root : BlockId) (e : Fault) :
    (c.clumpForm root).outcome = .error e ∧ c.AboutOptional e.block e.problem ↔
      ∃ b label, b.IsOptional label ∧ e = ⟨b.id, .emptySocket label⟩ ∧ c.Unnamed b label ∧
        c.Reaches root b (.name label) := by
  constructor
  · rintro ⟨he, habout⟩
    have hseen := (seen_clumpForm_iff (stopping c.live e (isHole_of_aboutOptional habout)) root).mp he
    obtain ⟨b, part, hreach, hown⟩ := hseen
    have hown : (c.ownForm b part).outcome = .error e := hown
    obtain ⟨label, hd, hpart⟩ := lacks_of_mem_said (mem_said_of_error hown)
    obtain ⟨hblock, -, hproblem⟩ := Diagnostic.mk.inj hd
    obtain rfl : e = ⟨b.id, .emptySocket label⟩ := by
      cases e
      exact congr (congrArg Fault.mk hblock) hproblem
    have ho := (aboutOptional_iff hid hreach).mp habout
    obtain ⟨rfl, hc, -⟩ | ⟨rfl, hn⟩ := hpart
    · rw [ownForm_expr ho hc, hole] at hown
      split at hown
      · cases hown
      · cases hown
    · exact ⟨b, label, ho, rfl, hn, hreach⟩
  · rintro ⟨b, label, ho, rfl, hn, hreach⟩
    have hown : (c.ownForm b (.name label)).outcome = .error ⟨b.id, .emptySocket label⟩ := by
      rw [ownForm_name hn]
      rfl
    have hseen := (seen_clumpForm_iff (stopping c.live ⟨b.id, .emptySocket label⟩ rfl) root).mpr
    exact ⟨hseen ⟨b, .name label, hreach, hown⟩, (aboutOptional_iff hid hreach).mpr ho⟩

end Kept

lemma mem_program_iff (hd : d.problem.isHole = true) :
    d ∈ c.program.2 ↔
      ∃ root, c.unitResult root ∈ c.rootResults [] c.workspace.blocks.roots ∧ d ∈ (c.unit root).2 := by
  rw [program, List.mem_flatMap]
  constructor
  · rintro ⟨res, hres, hmem⟩
    obtain he | ⟨p, he, hp⟩ := result_of_mem hres
    · rw [he] at hmem hres
      exact ⟨res.root, hres, hmem⟩
    · rw [he] at hmem
      obtain rfl := List.mem_singleton.mp hmem
      obtain rfl | ⟨declaration, rfl⟩ := hp
      · cases hd
      · cases declaration <;> cases hd
  · rintro ⟨root, hres, hmem⟩
    exact ⟨c.unitResult root, hres, hmem⟩

lemma socketExpr_optional (ho : b.IsOptional label) (hc : b.child? label = none) :
    c.socketExpr gen b scope label =
      { outcome := .ok Yail.null
        notes := if c.live then [] else [Fault.diagnostic c.live ⟨b.id, .emptySocket label⟩] } := by
  obtain ⟨s, hs, hopt⟩ := ho
  rw [Block.child?, hs, Option.bind_some] at hc
  simp only [socketExpr, hs, hc, hopt, if_true]
  cases hlive : c.live with
  | true => rfl
  | false => rw [note, hlive]; rfl

lemma socketBody_empty (hc : b.child? label = none) : c.socketBody gen b scope label = pure (Yail.begin []) := by
  rw [socketBody, hc]
  rfl

theorem optional_socket_reported_iff (c : Compilation) (hid : ∀ k b, c.block? k = some b → b.id = k) :
    (∀ root d, d ∈ (c.unit root).2 ∧ c.AboutOptional d.block d.problem ↔
      ∃ b label, b.IsOptional label ∧ d = Fault.diagnostic c.live ⟨b.id, .emptySocket label⟩ ∧
        (c.live = false ∧ b.child? label = none ∧ c.Reaches root b (.expr label) ∨
          c.Unnamed b label ∧ c.Reaches root b (.name label))) ∧
    (∀ d, d ∈ c.program.2 ∧ c.AboutOptional d.block d.problem ↔
      ∃ root, c.unitResult root ∈ c.rootResults [] c.workspace.blocks.roots ∧
        d ∈ (c.unit root).2 ∧ c.AboutOptional d.block d.problem) ∧
    (∀ root e, (c.clumpForm root).outcome = .error e ∧ c.AboutOptional e.block e.problem ↔
      ∃ b label, b.IsOptional label ∧ e = ⟨b.id, .emptySocket label⟩ ∧ c.Unnamed b label ∧
        c.Reaches root b (.name label)) ∧
    ∀ gen b scope label, b.IsOptional label → b.child? label = none →
      c.socketExpr gen b scope label =
        { outcome := .ok Yail.null
          notes := if c.live then [] else [Fault.diagnostic c.live ⟨b.id, .emptySocket label⟩] } ∧
      c.socketBody gen b scope label = pure (Yail.begin []) := by
  refine ⟨optional_hole_iff hid, fun d => ?_, stops_at_optional_iff hid, fun gen b scope label ho hc => ?_⟩
  · constructor
    · rintro ⟨hd, habout⟩
      obtain ⟨root, hroot, hmem⟩ := (mem_program_iff (isHole_of_aboutOptional habout)).mp hd
      exact ⟨root, hroot, hmem, habout⟩
    · rintro ⟨root, hroot, hmem, habout⟩
      exact ⟨(mem_program_iff (isHole_of_aboutOptional habout)).mpr ⟨root, hroot, hmem⟩, habout⟩
  · exact ⟨socketExpr_optional ho hc, socketBody_empty hc⟩

def settings : Language :=
  ({} : Language).addGenus
    { name := "setting", kind := .globalDef,
      sockets := [{ label := "initialize to", kind := .typed "value", optional := true }] }

def unsetTotal : Compilation where
  lang := settings
  rules :=
    { knownTypes := .empty, kinds := [], genera := [], propertyTypes := [], methodParams := [], methodReturns := [] }
  workspace := (Workspace.new "Screen1").edited [.addBlock settings "setting" "total"]
  live := false

def totalBlock : Block where
  id := 1
  genus := "setting"
  label := "total"
  sockets := [{ label := "initialize to", kind := .typed "value", optional := true }]

def unsetWarning : Diagnostic := { block := 1, severity := .warning, problem := .emptySocket "initialize to" }

lemma reached_unsetTotal : unsetTotal.workspace.Reached := ⟨_, _, rfl⟩

theorem optional_socket_reported_iff_unsetTotal : (∀ k b, unsetTotal.block? k = some b → b.id = k) ∧
    unsetWarning ∈ (unsetTotal.unit 1).2 ∧ unsetTotal.AboutOptional 1 (.emptySocket "initialize to") := by
  have hid : ∀ k b, unsetTotal.block? k = some b → b.id = k := reached_unsetTotal.linked.own_id
  have ho : totalBlock.IsOptional "initialize to" := ⟨_, rfl, rfl⟩
  have hreach : unsetTotal.Reaches 1 totalBlock (.expr "initialize to") :=
    ⟨1, ⟨[], [], rfl, List.forall_mem_nil _⟩, .here ⟨rfl, rfl, rfl, rfl, trivial⟩ ⟨[], [], rfl, List.forall_mem_nil _⟩⟩
  exact ⟨hid, ((optional_socket_reported_iff unsetTotal hid).1 1 unsetWarning).mpr
    ⟨totalBlock, "initialize to", ho, rfl, .inl ⟨rfl, rfl, hreach⟩⟩⟩

theorem unsetTotal_warned :
    ¬ ∀ (c : Compilation) (root : BlockId), c.workspace.Reached →
      ∀ d ∈ (c.unit root).2, ¬ c.AboutOptional d.block d.problem := by
  intro h
  have hwarned : unsetWarning ∈ (unsetTotal.unit 1).2 := by decide
  exact h unsetTotal 1 reached_unsetTotal unsetWarning hwarned
    ⟨totalBlock, "initialize to", rfl, rfl, _, rfl, rfl⟩

end Compilation

end BlockStudio
