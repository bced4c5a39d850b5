import BlockStudio.Proofs.History.Travel
import BlockStudio.Proofs.Workspace.Counter
import BlockStudio.Proofs.Workspace.Restored
import BlockStudio.Sync.Inbox
import Mathlib.Data.List.NodupEquivFin

/-! Which block an id stands for, while edits mix with steps through the history. -/

namespace BlockStudio

/-- A workspace and its history. The rest is a record of the blocks that were made, which no act reads. -/
structure Sitting where
  workspace : Workspace
  saver : AutoSaver
  given : List ℕ := []
  answered : List BlockId := []
  /-- The block that stands under an id, as a place in `given`. -/
  standing : BlockId → ℕ := fun _ => 0
  past : List (BlockId → ℕ) := []

namespace Sitting

open AutoSaver

inductive Act where
  | edit (e : WorkspaceEdit)
  | markChanged (now : ℕ)
  | checkpoint
  | travel (now : ℕ) (dir : Direction)

def remember (s : Sitting) : List (BlockId → ℕ) :=
  let kept := match s.saver.cursor with
    | some i => s.past.take (i + 1)
    | none => s.past
  let all := kept ++ [s.standing]
  all.drop (all.length - s.saver.capacity)

def checkpoint (s : Sitting) : Sitting :=
  match s.saver.checkpoint Workspace.store s.workspace with
  | (saver, .ok true) => { s with saver, past := s.remember }
  | (saver, _) => { s with saver }

def run (s : Sitting) : Act → Sitting
  | .edit e =>
    { s with
      workspace := e.run s.workspace
      given := s.given ++ e.made s.workspace
      answered := s.answered ++ (e.answer? s.workspace).toList
      standing := fun x =>
        if s.workspace.blocks.nextId < x then s.given.length + (x - (s.workspace.blocks.nextId + 1)) else s.standing x }
  | .markChanged now => { s with saver := s.saver.markChanged now }
  | .checkpoint => s.checkpoint
  | .travel now dir =>
    match s.saver.travel Workspace.store now dir s.workspace with
    | (saver, .error _) => { s.checkpoint with saver }
    | (saver, .ok stepped) =>
      { s.checkpoint with
        saver
        workspace := stepped.state
        standing := (saver.cursor.bind fun i => s.checkpoint.past[i]?).getD s.standing }

def after (acts : List Act) (s : Sitting) : Sitting := acts.foldl run s

def start (form : String) (config : AutoSaveConfig) : Sitting where
  workspace := .new form
  saver := { config }

def Behind (s : Sitting) : Prop := ∃ j ∈ s.given, s.workspace.blocks.nextId < j

lemma saver_checkpoint (s : Sitting) :
    s.checkpoint.saver = (s.saver.checkpoint Workspace.store s.workspace).1 := by
  rw [checkpoint]
  rcases s.saver.checkpoint Workspace.store s.workspace with ⟨saver, _ | _ | _⟩ <;> rfl

lemma checkpoint_eq (s : Sitting) : ∃ saver past, s.checkpoint = { s with saver, past } := by
  rw [checkpoint]
  rcases s.saver.checkpoint Workspace.store s.workspace with ⟨saver, _ | _ | _⟩ <;> exact ⟨_, _, rfl⟩

lemma travel_eq (s : Sitting) (now : ℕ) (dir : Direction) :
    ∃ workspace saver standing past, s.run (.travel now dir) = { s with workspace, saver, standing, past } := by
  obtain ⟨saver, past, hc⟩ := s.checkpoint_eq
  rw [run, hc]
  rcases s.saver.travel Workspace.store now dir s.workspace with ⟨saver, _ | _⟩ <;> exact ⟨_, _, _, _, rfl⟩

lemma given_run (s : Sitting) {act : Act} (hact : ∀ e, act ≠ .edit e) : (s.run act).given = s.given := by
  cases act with
  | edit e => exact absurd rfl (hact e)
  | markChanged now => rfl
  | checkpoint =>
    obtain ⟨saver, past, hc⟩ := s.checkpoint_eq
    rw [run, hc]
  | travel now dir =>
    obtain ⟨workspace, saver, standing, past, ht⟩ := s.travel_eq now dir
    rw [ht]

variable {s : Sitting} {w w' : Workspace} {given : List ℕ} {standing : BlockId → ℕ} {i : ℕ}

structure Backed (given : List ℕ) (w : Workspace) (standing : BlockId → ℕ) : Prop where
  linked : w.Linked
  counted : ∀ i, 0 < i → i ≤ w.blocks.nextId → i ∈ given
  placed : ∀ x : ℕ, w.blocks.contains x = true → given[standing x]? = some x

namespace Backed

lemma append (h : Backed given w standing) (new : List ℕ) : Backed (given ++ new) w standing where
  linked := h.linked
  counted i hi hle := List.mem_append_left new (h.counted i hi hle)
  placed x hx := by
    obtain ⟨hlt, -⟩ := List.getElem?_eq_some_iff.mp (h.placed x hx)
    exact (List.getElem?_append_left hlt).trans (h.placed x hx)

lemma same (h : Backed given w standing) (hs : w.blocks.SameJoints w'.blocks) : Backed given w' standing where
  linked := h.linked.same hs
  counted i hi hle := h.counted i hi (hs.1 ▸ hle)
  placed x hx := h.placed x (hs.contains_eq.symm.trans hx)

lemma edit (h : Backed given w standing) (e : WorkspaceEdit) :
    Backed (given ++ e.made w) (e.run w) fun x =>
      if w.blocks.nextId < x then given.length + (x - (w.blocks.nextId + 1)) else standing x where
  linked := h.linked.run e
  counted i hi hle := by
    rcases Nat.lt_or_ge w.blocks.nextId i with hlt | hge
    · exact List.mem_append_right given ((WorkspaceEdit.mem_made h.linked).mpr ⟨hlt, hle⟩)
    · exact List.mem_append_left _ (h.counted i hi hge)
  placed x hx := by
    rcases Nat.lt_or_ge w.blocks.nextId x with hlt | hge
    · obtain ⟨b, hb⟩ := BlockGraph.contains_iff.mp hx
      have hle : x ≤ (e.run w).blocks.nextId := (h.linked.run e).id_le x b hb
      simp only [if_pos hlt]
      rw [List.getElem?_append_right (Nat.le_add_right _ _), Nat.add_sub_cancel_left, WorkspaceEdit.made,
        List.getElem?_range' (by omega)]
      exact congrArg some (by omega)
    · have hold := (Workspace.onward_run h.linked e).contains x hge hx
      simp only [if_neg (Nat.not_lt.mpr hge)]
      exact (h.append _).placed x hold

end Backed

def Held (given : List ℕ) (text : String) (standing : BlockId → ℕ) : Prop :=
  ∃ w : Workspace, text = w.snapshot ∧ Backed given w standing

structure Accounted (s : Sitting) : Prop where
  closed : ∀ j ∈ s.given, ∀ i, 0 < i → i ≤ j → i ∈ s.given
  answered : s.answered.Sublist s.given
  present : Backed s.given s.workspace s.standing
  past : List.Forall₂ (Held s.given) s.saver.entries s.past

lemma restore_eq_ok {text : String} :
    Workspace.store.restore text w = .ok w' ↔ Workspace.ofText? text = some w' := by
  simp only [Workspace.store]
  split
  · rename_i hread
    rw [hread, Except.ok.injEq, Option.some.injEq]
  · rename_i hread
    simp [hread]

namespace Accounted

lemma start (form : String) (config : AutoSaveConfig) : (start form config).Accounted where
  closed := nofun
  answered := .slnil
  present := {
    linked := Workspace.linked_new form
    counted := fun _ hi hle => absurd hi (Nat.not_lt.mpr hle)
    placed := nofun }
  past := .nil

lemma edit (h : s.Accounted) (e : WorkspaceEdit) : (s.run (.edit e)).Accounted where
  closed j hj i hi hle := by
    rcases List.mem_append.mp hj with hj | hj
    · exact List.mem_append_left _ (h.closed j hj i hi hle)
    · have hj := (WorkspaceEdit.mem_made h.present.linked).mp hj
      exact (h.present.edit e).counted i hi (Nat.le_trans hle hj.2)
  answered := by
    refine h.answered.append ?_
    cases he : e.answer? s.workspace with
    | none => exact List.nil_sublist _
    | some i =>
      obtain ⟨rfl, hn, -⟩ := WorkspaceEdit.answer?_eq_some he
      rw [WorkspaceEdit.made, hn, Nat.add_sub_cancel_left]
      exact .refl _
  present := h.present.edit e
  past := h.past.imp fun _ _ ⟨w, ht, hw⟩ => ⟨w, ht, hw.append _⟩

lemma exists_past {text : String} (h : s.Accounted) (hi : s.saver.entries[i]? = some text) :
    ∃ standing, s.past[i]? = some standing ∧ Held s.given text standing := by
  obtain ⟨hlen, hheld⟩ := List.forall₂_iff_get.mp h.past
  obtain ⟨hlt, rfl⟩ := List.getElem?_eq_some_iff.mp hi
  have hlt' : i < s.past.length := hlen ▸ hlt
  exact ⟨s.past[i], List.getElem?_eq_getElem hlt', hheld i hlt hlt'⟩

lemma recorded (h : s.Accounted) :
    List.Forall₂ (Held s.given) (s.saver.append s.workspace.snapshot).entries s.remember := by
  have hkept : List.Forall₂ (Held s.given) s.saver.kept
      (match s.saver.cursor with | some i => s.past.take (i + 1) | none => s.past) := by
    rw [kept]
    cases s.saver.cursor with
    | none => exact h.past
    | some i => exact List.forall₂_take (i + 1) h.past
  have hall := List.rel_append hkept (.cons ⟨s.workspace, rfl, h.present⟩ .nil)
  have hlen := hall.length_eq
  simp only [AutoSaver.append, remember]
  rw [hlen]
  exact List.forall₂_drop _ hall

lemma checkpoint (h : s.Accounted) : s.checkpoint.Accounted := by
  rw [Sitting.checkpoint]
  obtain ⟨-, -, hc⟩ | ⟨e, he, -⟩ | ⟨text, hs, hc⟩ := checkpoint_cases Workspace.store s.workspace s.saver
  · rw [hc]
    exact h
  · cases he
  · obtain rfl := Except.ok.inj hs
    by_cases ht : s.saver.currentEntry = some s.workspace.snapshot
    · have hsnap : s.saver.onSnapshot s.workspace.snapshot = ({ s.saver with changed := false }, false) := if_pos ht
      rw [hc, hsnap]
      exact ⟨h.closed, h.answered, h.present, h.past⟩
    · have hsnap : s.saver.onSnapshot s.workspace.snapshot =
          ({ s.saver with changed := false }.append s.workspace.snapshot, true) := if_neg ht
      rw [hc, hsnap]
      exact ⟨h.closed, h.answered, h.present, h.recorded⟩

lemma travel (h : s.Accounted) (now : ℕ) (dir : Direction) : (s.run (.travel now dir)).Accounted := by
  have hc := h.checkpoint
  have hsaver := saver_checkpoint s
  rw [run]
  obtain ⟨e, he⟩ | ⟨s', recorded, i, entry, w, hcheck, -, hentry, hrestore, he⟩ :=
    travel_cases Workspace.store now dir s.workspace s.saver
  · rw [he, ← hsaver]
    exact hc
  · obtain rfl : s.checkpoint.saver = s' := hsaver.trans (congrArg Prod.fst hcheck)
    obtain ⟨standing, hpast, w', rfl, hbacked⟩ := hc.exists_past hentry
    have hback := hbacked.same (Workspace.sameJoints_of_ofText? hbacked.linked (restore_eq_ok.mp hrestore))
    have hnow : ((s.checkpoint.saver.moveTo now i).cursor.bind fun i => s.checkpoint.past[i]?).getD s.standing =
        standing := congrArg (·.getD s.standing) hpast
    rw [he]
    refine ⟨hc.closed, hc.answered, ?_, hc.past⟩
    rw [← hnow] at hback
    exact hback

lemma run (h : s.Accounted) (act : Act) : (s.run act).Accounted := by
  cases act with
  | edit e => exact h.edit e
  | markChanged now => exact ⟨h.closed, h.answered, h.present, h.past⟩
  | checkpoint => exact h.checkpoint
  | travel now dir => exact h.travel now dir

lemma after (h : s.Accounted) (acts : List Act) : (s.after acts).Accounted := by
  induction acts generalizing s with
  | nil => exact h
  | cons act acts ih => exact ih (h.run act)

lemma succ_mem_iff (h : s.Accounted) : s.workspace.blocks.nextId + 1 ∈ s.given ↔ s.Behind := by
  constructor
  · exact fun hin => ⟨_, hin, Nat.lt_succ_self _⟩
  · rintro ⟨j, hj, hlt⟩
    exact h.closed j hj _ (Nat.succ_pos _) hlt

lemma nodup_run_iff (h : s.Accounted) (act : Act) :
    (s.run act).given.Nodup ↔ s.given.Nodup ∧ ∀ e, act = .edit e → s.Behind → e.made s.workspace = [] := by
  by_cases hact : ∀ e, act ≠ .edit e
  · rw [s.given_run hact, and_iff_left fun e he => absurd he (hact e)]
  obtain ⟨e, rfl⟩ : ∃ e, act = .edit e := by simpa using hact
  have hmem : ∀ x, x ∈ e.made s.workspace ↔ _ := fun x => WorkspaceEdit.mem_made h.present.linked
  have hnew : (e.made s.workspace).Nodup := List.nodup_range'
  show (s.given ++ e.made s.workspace).Nodup ↔ _
  rw [List.nodup_append']
  simp only [hnew, true_and, Act.edit.injEq, forall_eq']
  refine and_congr_right fun _ => ⟨fun hd hb => ?_, fun hb x hx hx' => ?_⟩
  · refine List.eq_nil_iff_forall_not_mem.mpr fun x hx => ?_
    have hx := (hmem x).mp hx
    exact hd (h.succ_mem_iff.mpr hb) ((hmem _).mpr ⟨Nat.lt_succ_self _, Nat.lt_of_lt_of_le hx.1 hx.2⟩)
  · rw [hb ⟨x, hx, ((hmem x).mp hx').1⟩] at hx'
    cases hx'

lemma behind_of_run (h : s.Accounted) {act : Act} (hact : ∀ now dir, act ≠ .travel now dir) (hb : (s.run act).Behind) :
    s.Behind := by
  cases act with
  | edit e =>
    obtain ⟨j, hj, hlt⟩ := hb
    rcases List.mem_append.mp hj with hj | hj
    · exact ⟨j, hj, Nat.lt_of_le_of_lt (Workspace.onward_run h.present.linked e).nextId_le hlt⟩
    · exact absurd ((WorkspaceEdit.mem_made h.present.linked).mp hj).2 (Nat.not_le.mpr hlt)
  | markChanged now => exact hb
  | checkpoint =>
    obtain ⟨saver, past, hc⟩ := s.checkpoint_eq
    rwa [Sitting.run, hc] at hb
  | travel now dir => exact absurd rfl (hact now dir)

lemma nodup_after_iff (h : s.Accounted) (acts : List Act) :
    (s.after acts).given.Nodup ↔ s.given.Nodup ∧ ∀ before e rest, acts = before ++ .edit e :: rest →
      (s.after before).Behind → e.made (s.after before).workspace = [] := by
  induction acts generalizing s with
  | nil => simp [Sitting.after]
  | cons act acts ih =>
    show ((s.run act).after acts).given.Nodup ↔ _
    rw [ih (h.run act), h.nodup_run_iff, and_assoc]
    refine and_congr_right fun _ => ⟨fun ⟨hnow, hlater⟩ before e rest he hb => ?_, fun hall => ⟨?_, ?_⟩⟩
    · rcases before with _ | ⟨a, before⟩
      · exact hnow e (List.cons.inj he).1 hb
      · obtain ⟨rfl, htail⟩ := List.cons.inj he
        exact hlater before e rest htail hb
    · rintro e rfl
      exact hall [] e acts rfl
    · rintro before e rest rfl
      exact hall (act :: before) e rest rfl

lemma duplicate_of_ne {t : Sitting} (h : s.Accounted) (ht : t.Accounted) (hp : t.given <+: s.given) {i : BlockId}
    (hs : s.workspace.blocks.contains i = true) (hi : t.workspace.blocks.contains i = true)
    (hne : s.standing i ≠ t.standing i) : s.given.Duplicate i := by
  obtain ⟨hlt, hnow⟩ := List.getElem?_eq_some_iff.mp (h.present.placed i hs)
  obtain ⟨hlt', hthen⟩ := List.getElem?_eq_some_iff.mp (ht.present.placed i hi)
  have hlong := Nat.lt_of_lt_of_le hlt' hp.length_le
  have hstill : s.given[t.standing i] = i := (hp.getElem hlt').symm.trans hthen
  rw [List.duplicate_iff_exists_distinct_get]
  rcases Nat.lt_or_gt_of_ne hne with hbefore | hafter
  · exact ⟨⟨_, hlt⟩, ⟨_, hlong⟩, hbefore, hnow.symm, hstill.symm⟩
  · exact ⟨⟨_, hlong⟩, ⟨_, hlt⟩, hafter, hstill.symm, hnow.symm⟩

end Accounted

lemma given_prefix_run (s : Sitting) (act : Act) : s.given <+: (s.run act).given := by
  by_cases hact : ∀ e, act ≠ .edit e
  · exact s.given_run hact ▸ List.prefix_rfl
  · obtain ⟨e, rfl⟩ : ∃ e, act = .edit e := by simpa using hact
    exact List.prefix_append _ _

lemma given_prefix_after (s : Sitting) (acts : List Act) : s.given <+: (s.after acts).given := by
  induction acts generalizing s with
  | nil => exact List.prefix_rfl
  | cons act acts ih => exact (s.given_prefix_run act).trans (ih (s.run act))

lemma after_append (s : Sitting) (acts rest : List Act) : s.after (acts ++ rest) = (s.after acts).after rest :=
  List.foldl_append

lemma get?_ofResponse {r : Response} {x : BlockId} (hx : r.origin ≠ some x) :
    (Notice.ofResponse w r).1.blocks.get? x = w.blocks.get? x := by
  have hannotate : ∀ id remark, Notice.target w r = some id →
      (Notice.annotate w id remark).blocks.get? x = w.blocks.get? x := by
    intro id remark hid
    have hne : x ≠ id := fun he => hx (he ▸ (Option.filter_eq_some_iff.mp hid).1)
    exact (BlockGraph.get?_modify ..).trans (if_neg hne)
  rw [Notice.ofResponse]
  split
  · rfl
  · split
    · rename_i id htarget _
      split
      · rfl
      · exact hannotate id _ htarget
    · rename_i id htarget _
      exact hannotate id _ htarget
    · rfl
    · rfl

theorem ids_given_again_iff (form : String) (config : AutoSaveConfig) (acts : List Act) :
    let s := (start form config).after acts
    (s.answered.Sublist s.given ∧ (s.given.Nodup ↔ ∀ before e rest, acts = before ++ .edit e :: rest →
      ((start form config).after before).Behind → e.made ((start form config).after before).workspace = [])) ∧
    (∀ act, (∀ now dir, act ≠ .travel now dir) → (s.run act).Behind → s.Behind) ∧
    (∀ e i, e.answer? s.workspace = some i →
      (s.run (.edit e)).given = s.given ++ [i] ∧ (s.run (.edit e)).workspace.blocks.contains i = true ∧
      (i ∈ s.given ↔ s.Behind) ∧
      ∀ before rest, acts = before ++ rest → ((start form config).after before).workspace.blocks.contains i = true →
        (s.run (.edit e)).standing i ≠ ((start form config).after before).standing i) ∧
    (∀ r i, r.origin = some i →
      (∀ x, x ≠ i → (Notice.ofResponse s.workspace r).1.blocks.get? x = s.workspace.blocks.get? x) ∧
      ∀ before rest, acts = before ++ rest → ((start form config).after before).workspace.blocks.contains i = true →
        s.workspace.blocks.contains i = true → s.standing i ≠ ((start form config).after before).standing i →
          s.given.Duplicate i) := by
  intro s
  have hstart := Accounted.start form config
  have h : s.Accounted := hstart.after acts
  have hgiven : ∀ before rest, acts = before ++ rest → ((start form config).after before).given <+: s.given := by
    rintro before rest rfl
    rw [show s = _ from after_append _ before rest]
    exact given_prefix_after _ rest
  refine ⟨⟨h.answered, ?_⟩, fun act hact => h.behind_of_run hact, fun e i he => ?_, fun r i hr => ⟨fun x hx => ?_, ?_⟩⟩
  · rw [hstart.nodup_after_iff acts, and_iff_right (show (start form config).given.Nodup from List.nodup_nil)]
  · obtain ⟨rfl, hn, hin⟩ := WorkspaceEdit.answer?_eq_some he
    refine ⟨?_, hin, h.succ_mem_iff, fun before rest hsplit hthen => ?_⟩
    · show s.given ++ e.made s.workspace = _
      rw [WorkspaceEdit.made, hn, Nat.add_sub_cancel_left]
      rfl
    · have hplaced := (hstart.after before).present.placed _ hthen
      obtain ⟨hlt, -⟩ := List.getElem?_eq_some_iff.mp hplaced
      have hlong := Nat.lt_of_lt_of_le hlt (hgiven before rest hsplit).length_le
      have hnew : (s.run (.edit e)).standing (s.workspace.blocks.nextId + 1) = s.given.length :=
        (if_pos (Nat.lt_succ_self _)).trans (by rw [Nat.sub_self, Nat.add_zero])
      rw [hnew]
      exact (Nat.ne_of_lt hlong).symm
  · exact get?_ofResponse (hr ▸ fun he => hx (Option.some.inj he).symm)
  · exact fun before rest hsplit hthen hnow hne =>
      h.duplicate_of_ne (hstart.after before) (hgiven before rest hsplit) hnow hthen hne

lemma travel_back_noted {σ : Type} {store : Store σ} {x y : σ} {a b : String} (hx : store.snapshot x = .ok a)
    (hy : store.snapshot y = .ok b) (hne : a ≠ b) (hr : store.restore a y = .ok x) (now later : ℕ) :
    ((({} : AutoSaver).checkpoint store x).1.markChanged now).travel store later .back y =
      ({ entries := [a, b], cursor := some 0, saveRequired := true, lastChangeMs := some later },
        .ok { state := x, reissued := none }) := by
  have hfirst : ({} : AutoSaver).checkpoint store x = ({ entries := [a], cursor := some 0 }, .ok true) := by
    simp only [AutoSaver.checkpoint, hx]
    rfl
  have hsnap : (markChanged now { entries := [a], cursor := some 0 }).onSnapshot b =
      ({ entries := [a, b], cursor := some 1, saveRequired := true, lastChangeMs := some now }, true) :=
    if_neg fun he => hne (Option.some.inj he)
  have hsecond : (markChanged now { entries := [a], cursor := some 0 }).checkpoint store y =
      ({ entries := [a, b], cursor := some 1, saveRequired := true, lastChangeMs := some now }, .ok true) := by
    simp only [AutoSaver.checkpoint, hy, hsnap]
    rfl
  rw [hfirst, travel_of_checkpoint hsecond]
  exact goTo_of_restore rfl rfl hr

def remade : List Act :=
  [.checkpoint, .edit (.graph (.addBlock { name := "number", kind := .number } "1" [])), .markChanged 1,
    .travel 2 .back, .edit (.graph (.addBlock { name := "text", kind := .text } "x" []))]

def lateAnswer : Response := { purpose := .block, origin := some 1, success := true, payload := "1" }

theorem remade_given_again :
    let s := (start "Screen1" {}).after (remade.take 2)
    let t := (start "Screen1" {}).after remade
    s.answered = [1] ∧ t.answered = [1, 1] ∧
    (s.workspace.blocks.get? 1).map (fun b => (b.genus, b.label)) = some ("number", "1") ∧
    (t.workspace.blocks.get? 1).map (fun b => (b.genus, b.label)) = some ("text", "x") ∧
    s.standing 1 ≠ t.standing 1 ∧
    ((Notice.ofResponse t.workspace lateAnswer).1.blocks.get? 1).map (·.remark) = some (some (.result "1")) := by
  intro s t
  let noted := s.run (.markChanged 1)
  have hread : Workspace.ofText? (Workspace.new "Screen1").snapshot = some (.new "Screen1") :=
    Workspace.ofText?_snapshot_new "Screen1"
  have hne : (Workspace.new "Screen1").snapshot ≠ noted.workspace.snapshot := by
    intro he
    have hlinked : noted.workspace.Linked := (Accounted.start "Screen1" {}).after (remade.take 3) |>.present.linked
    exact absurd (Workspace.sameJoints_of_ofText? hlinked (he ▸ hread)).1 (by decide)
  have hundo := travel_back_noted (x := .new "Screen1") rfl rfl hne (restore_eq_ok.mpr hread) 1 2
  have hsaver : noted.saver = (({} : AutoSaver).checkpoint Workspace.store (.new "Screen1")).1.markChanged 1 :=
    congrArg (AutoSaver.markChanged 1) (saver_checkpoint (start "Screen1" {}))
  obtain ⟨w, saver, standing, past, hback⟩ := noted.travel_eq 2 .back
  obtain rfl : w = .new "Screen1" := by
    have hw : (noted.run (.travel 2 .back)).workspace = .new "Screen1" := by rw [run, hsaver, hundo]
    rwa [hback] at hw
  have ht : t =
      (noted.run (.travel 2 .back)).run (.edit (.graph (.addBlock { name := "text", kind := .text } "x" []))) := by
    simp only [t, noted, s, remade, after, List.take, List.foldl]
  rw [ht, hback]
  exact ⟨rfl, rfl, rfl, rfl, Nat.zero_ne_one, rfl⟩

end Sitting

end BlockStudio
