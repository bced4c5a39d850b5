import BlockStudio.Proofs.Compile.Marked
import BlockStudio.Proofs.Component.Edited

namespace BlockStudio

namespace Assembly

open Marked

variable {rules : LinkRules} {package : String} {code : BlockCode} {live : Bool}

section Rooted

variable {root : Component} {t : ComponentTree} {c : Component} {parent : String} (h : t.Rooted)

include h

lemma exists_cut (hc : c ∈ t.list) : ∃ l₁ l₂, t.walk = l₁ ++ c :: l₂ :=
  List.append_of_mem (h.walk_perm_list.mem_iff.mpr hc)

lemma flatMap_walk {β : Type} (name : String) (g : Component → List β) :
    (t.walk.flatMap fun c => if c.name = name then g c else []) =
      match t.get? name with
      | some c => g c
      | none => [] := by
  cases hget : t.get? name with
  | none =>
    refine List.flatMap_eq_nil_iff.mpr fun c hc => if_neg fun heq => ?_
    have hc' := h.mem_list_iff.mp (h.walk_perm_list.mem_iff.mp hc)
    rw [heq, hget] at hc'
    cases hc'
  | some c =>
    obtain rfl := ComponentTree.keyed_iff.mp h.family.keyed name c hget
    exact flatMap_named h.nodup_walk (h.walk_perm_list.mem_iff.mpr (h.mem_list_iff.mpr hget)) g

lemma parent_before_child (hc : c ∈ t.list) (hp : c.parent = some parent) :
    Before (.creation parent) (.creation c.name) (marked rules package root code live t.walk) := by
  obtain ⟨l₁, l₂, hw⟩ := exists_cut h hc
  obtain ⟨d, hd, rfl⟩ := List.mem_map.mp (h.walk_parents_first l₁ c l₂ hw parent hp)
  have hn := hw ▸ h.nodup_walk
  refine before_cut hw nofun (fun e he => without_body ?_ nofun nofun) (fun e he => without_body ?_ nofun nofun) ?_ nofun
  · exact fun heq => ne_of_cut hn he List.mem_cons_self (Role.creation.inj heq).symm
  · exact fun heq => ne_of_cut hn hd he (Role.creation.inj heq)
  · cases live with
    | true => simp [tail]
    | false => simp [tail]

end Rooted

structure Placed (rules : LinkRules) (t : ComponentTree) (code : BlockCode) (live : Bool) (ls : List Marked) : Prop where
  creations : ∀ c ∈ t.list, linesOf (.creation c.name) ls =
    if c.parent.isSome then [.form (addComponent rules c)]
    else if c.properties.entries = [] then []
    else [.form (.call "do-after-form-creation" (propertySetters rules c))]
  strangers : ∀ name, t.contains name = false → linesOf (.creation name) ls = []
  handlers : ∀ name, linesOf (.handler name) ls =
    if t.contains name then (code.handlersOf name).map .form else []
  globals : linesOf .global ls = code.globals.map .form
  starts : linesOf .start ls = [.form (startForm live t.walk)]
  framed : Framed ls
  parents_first : ∀ c ∈ t.list, ∀ parent, c.parent = some parent → Before (.creation parent) (.creation c.name) ls
  in_place : live = false → ∀ l₁ c l₂, t.walk = l₁ ++ c :: l₂ →
    Before (.creation c.name) (.handler c.name) ls ∧
      ∀ d ∈ l₂, Before (.handler c.name) (.creation d.name) ls ∧ Before (.handler c.name) (.handler d.name) ls
  in_turn : live = true → ∀ name handled, Before (.creation name) .global ls ∧
    Before (.creation name) (.handler handled) ls ∧ Before .global (.handler handled) ls
  start_last : ∀ r, r ≠ .start → Before r .start ls

lemma creation_eq (c : Component) : (creation rules c).map Line.form =
    if c.parent.isSome then [.form (addComponent rules c)]
    else if c.properties.entries = [] then []
    else [.form (.call "do-after-form-creation" (propertySetters rules c))] := by
  rw [creation]
  cases c.parent with
  | some parent => rfl
  | none =>
    cases hp : c.properties.entries with
    | nil => simp [formProperties, propertySetters, hp]
    | cons p ps => simp [formProperties, propertySetters, hp]

lemma placed_marked {t : ComponentTree} (h : t.Rooted) (root : Component) :
    Placed rules t code live (marked rules package root code live t.walk) where
  creations c hc := by
    rw [linesOf_creation, flatMap_walk h, h.mem_list_iff.mp hc]
    exact creation_eq c
  strangers name hname := by
    have hnone : t.get? name = none := Option.isNone_iff_eq_none.mp (Option.isSome_eq_false_iff.mp hname)
    rw [linesOf_creation, flatMap_walk h, hnone]
  handlers name := by
    rw [linesOf_handler, flatMap_walk h]
    cases hget : t.get? name with
    | none =>
      have hname : t.contains name = false := congrArg Option.isSome hget
      rw [hname]
      rfl
    | some c =>
      obtain rfl := ComponentTree.keyed_iff.mp h.family.keyed name c hget
      rw [if_pos (ComponentTree.contains_of_get? hget)]
  globals := linesOf_global
  starts := linesOf_start
  framed := framed_marked
  parents_first c hc parent hp := parent_before_child h hc hp
  in_place hl l₁ c l₂ hw := by
    subst hl
    exact ⟨creation_before_handler hw h.nodup_walk, fun d hd =>
      ⟨handler_before_next hw h.nodup_walk hd (.inl rfl), handler_before_next hw h.nodup_walk hd (.inr rfl)⟩⟩
  in_turn hl name handled := by
    subst hl
    exact ⟨creation_before_tail nofun nofun, creation_before_tail nofun nofun, global_before_handler⟩
  start_last r hr := before_start hr

lemma exists_root_of_ne_nil {t : ComponentTree} (h : t.Rooted) (hne : t.list ≠ []) : ∃ root, t.root? = some root := by
  refine Option.ne_none_iff_exists'.mp fun hnone => hne ?_
  have hwalk : t.walk = [] := by rw [ComponentTree.walk, hnone]
  exact (hwalk ▸ h.walk_perm_list).nil_eq.symm

lemma lines_eq_marked {t : ComponentTree} {root : Component} (hr : t.root? = some root) :
    lines rules package t code live = .ok ((marked rules package root code live t.walk).map Prod.snd) := by
  rw [lines, hr, map_snd_marked]
  cases live with
  | true => rfl
  | false => rfl

end Assembly

namespace Compilation

variable {c : Compilation}

lemma mem_names_add {code : BlockCode} {owner : Option String} {form : Form} {name : String}
    (h : name ∈ (code.add owner form).byComponent.names) : name ∈ code.byComponent.names ∨ owner = some name := by
  cases owner with
  | none => exact .inl h
  | some component => exact (NameMap.mem_names_putEntry.mp h).symm.imp_right fun heq => congrArg some heq.symm

lemma owner_of_mem_program {name : String} (h : name ∈ c.program.1.byComponent.names) :
    ∃ root, c.ownerName root = some name := by
  have key : ∀ (results : List RootResult) (code : BlockCode),
      name ∈ (results.foldl c.addResult code).byComponent.names →
        name ∈ code.byComponent.names ∨ ∃ root, c.ownerName root = some name := by
    intro results
    induction results with
    | nil => exact fun code h => .inl h
    | cons res results ih =>
      intro code h
      obtain hin | hroot := ih _ h
      · rw [addResult] at hin
        split at hin
        · exact (mem_names_add hin).imp_right fun howner => ⟨res.root, howner⟩
        · exact .inl hin
      · exact .inr hroot
  exact (key _ _ h).resolve_left List.not_mem_nil

lemma contains_of_mem_program (h : c.workspace.components.Rooted) {name : String}
    (hn : name ∈ c.program.1.byComponent.names) : c.workspace.components.contains name = true := by
  obtain ⟨root, hroot⟩ := owner_of_mem_program hn
  obtain ⟨owner, howner, rfl⟩ := Option.map_eq_some_iff.mp hroot
  exact ComponentTree.contains_of_get? (h.mem_list_iff.mp (List.mem_of_find?_eq_some howner))

end Compilation

namespace Assembly

open Marked

theorem program_places_each_once (rules : LinkRules) (package : String) {t : ComponentTree} (h : t.Rooted)
    (hne : t.list ≠ []) (code : BlockCode) (live : Bool) :
    (t.walk.Perm t.list ∧ (t.walk.map (·.name)).Nodup) ∧
    (∃ ls, lines rules package t code live = .ok (ls.map Prod.snd) ∧
      program rules package t code live = .ok (text (ls.map Prod.snd)) ∧ Placed rules t code live ls) ∧
    ∀ c : Compilation, c.workspace.Reached → c.workspace.components.Rooted ∧
      ∀ name ∈ c.program.1.byComponent.names, c.workspace.components.contains name = true := by
  obtain ⟨root, hr⟩ := exists_root_of_ne_nil h hne
  refine ⟨⟨h.walk_perm_list, h.nodup_walk⟩, ⟨_, lines_eq_marked hr, ?_, placed_marked h root⟩, fun c hc => ?_⟩
  · rw [program, lines_eq_marked hr]
    rfl
  · exact ⟨hc.rooted, fun name => Compilation.contains_of_mem_program hc.rooted⟩

def shop : ComponentTree :=
  [.add "Button1" "Button" "Screen1", .setProperty "Screen1" "Title" "Shop"].foldl TreeEdit.run
    (.withRoot "Screen1" "Form")

def shopCode : BlockCode where
  globals := [Yail.defineGlobal "total" (.word "0")]
  byComponent :=
    (NameMap.empty.put "Gone" [Yail.defineEvent "Gone" "Click" [] []]).put "Button1"
      [Yail.defineEvent "Button1" "Click" [] []]

def plainRules : LinkRules where
  knownTypes := .empty
  kinds := []
  genera := []
  propertyTypes := []
  methodParams := []
  methodReturns := []

theorem program_places_each_once_shop :
    shop.Rooted ∧ shop.list ≠ [] ∧
      ∃ ls, lines plainRules defaultPackage shop shopCode true = .ok (ls.map Prod.snd) ∧
        Placed plainRules shop shopCode true ls ∧
        linesOf (.handler "Button1") ls = [.form (Yail.defineEvent "Button1" "Click" [] [])] ∧
        linesOf (.handler "Gone") ls = [] := by
  have h : shop.Rooted := (ComponentTree.Rooted.withRoot "Screen1" "Form").runs _
  have hne : shop.list ≠ [] := by decide
  obtain ⟨ls, hl, -, hp⟩ := (program_places_each_once plainRules defaultPackage h hne shopCode true).2.1
  refine ⟨h, hne, ls, hl, hp, ?_, ?_⟩
  · rw [hp.handlers, if_pos (by decide)]
    rfl
  · rw [hp.handlers, if_neg (by decide)]

end Assembly

end BlockStudio
