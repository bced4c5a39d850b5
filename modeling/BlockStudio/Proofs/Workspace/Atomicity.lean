import BlockStudio.Proofs.Collection.FirstMatch
import BlockStudio.Proofs.Component.Rooted
import BlockStudio.Proofs.Text.Numeral
import BlockStudio.Proofs.Workspace.Ownership
import BlockStudio.Proofs.Workspace.Reached

/-! Which edits that make blocks in stages leave the workspace as it was when they fail. -/

namespace BlockStudio

namespace Edit

variable {σ α β : Type} {x : Edit σ α} {f : α → Edit σ β} {s s' : σ}

def AtomicAt (x : Edit σ α) (s : σ) : Prop := ∀ e s', x s = (.error e, s') → s' = s

lemma atomicAt_of_error {e : EditError} (h : x s = (.error e, s')) : x.AtomicAt s ↔ s' = s := by
  constructor
  · intro hx
    exact hx e s' h
  · rintro rfl e' s'' h'
    exact (Prod.mk.inj (h'.symm.trans h)).2

lemma atomicAt_of_ok {a : α} (h : x s = (.ok a, s')) : x.AtomicAt s := by
  intro e s'' h'
  cases h.symm.trans h'

lemma atomicAt_bind_iff {a : α} (h : x s = (.ok a, s)) : (x >>= f).AtomicAt s ↔ (f a).AtomicAt s := by
  rw [AtomicAt, AtomicAt, bind_ok h]

lemma get_run (s : σ) : (get : Edit σ σ) s = (.ok s, s) := rfl

lemma atomicAt_lift_bind {r : Except EditError α} (h : ∀ a, (f a).AtomicAt s) : (lift r >>= f).AtomicAt s := by
  cases r with
  | error e => exact (atomicAt_of_error rfl).mpr rfl
  | ok a => exact h a

lemma bind_cons_run {γ : Type} {f : γ → Edit σ β} {c : γ} {l : List γ} {b : β} (h : f c s = (.ok b, s')) :
    ((c :: l).mapM f) s = (l.mapM f >>= fun bs => pure (b :: bs)) s' := by
  rw [List.mapM_cons, bind_ok h]

end Edit

namespace Block

def Vacant (b : Block) (label : String) : Prop := ∃ s, b.socket? label = some s ∧ s.block = none

def slots (b : Block) : List (String × Option BlockId) := b.sockets.map fun s => (s.label, s.block)

lemma vacant_iff {b : Block} {label : String} :
    b.Vacant label ↔ b.slots.find? (·.1 = label) = some (label, none) := by
  have hfind : b.slots.find? (·.1 = label) = (b.socket? label).map fun s => (s.label, s.block) := List.find?_map ..
  rw [hfind]
  constructor
  · rintro ⟨s, hs, hempty⟩
    rw [hs, Option.map_some, key_of_find? Socket.label hs, hempty]
  · intro h
    obtain ⟨s, hs, he⟩ := Option.map_eq_some_iff.mp h
    exact ⟨s, hs, (Prod.mk.inj he).2⟩

lemma slots_congr {a b : Block} (hbare : a.bare = b.bare) (hjoints : a.joints = b.joints) : a.slots = b.slots := by
  have hlabels : a.sockets.map (·.label) = b.sockets.map (·.label) := by
    have hsockets : a.sockets.map Socket.bare = b.sockets.map Socket.bare := congrArg Block.sockets hbare
    have hmap := congrArg (List.map (·.label)) hsockets
    rwa [List.map_map, List.map_map] at hmap
  have hblocks : a.sockets.map (·.block) = b.sockets.map (·.block) := congrArg (·.2.2.1) hjoints
  rw [slots, slots, ← List.zip_map', ← List.zip_map', hlabels, hblocks]

lemma vacant_fill {b : Block} {label label' : String} {c : BlockId} (hne : label' ≠ label) (h : b.Vacant label') :
    ({ b with sockets := Socket.fill label c b.sockets } : Block).Vacant label' := by
  have hfind (sockets : List Socket) : (Socket.fill label c sockets).find? (·.label = label') =
      sockets.find? (·.label = label') := by
    induction sockets with
    | nil => rfl
    | cons s sockets ih =>
      rw [Socket.fill]
      split
      · rename_i hs
        have hs' : s.label ≠ label' := hs ▸ hne.symm
        rw [List.find?_cons_of_neg (by simpa using hs'), List.find?_cons_of_neg (by simpa using hs')]
      · rw [List.find?_cons, List.find?_cons, ih]
  obtain ⟨s, hs, hempty⟩ := h
  exact ⟨s, (hfind b.sockets).trans hs, hempty⟩

end Block

def Part.genusName (type : ComponentType) : Part → String
  | event _ => GenusName.componentEvent
  | getter _ => GenusName.componentGetter
  | setter _ => GenusName.componentSetter
  | method name =>
    if (type.method? name).any (·.returns.isSome) then GenusName.componentMethodValue else GenusName.componentMethod
  | object => GenusName.component

namespace Workspace

open Edit

variable {lang : Language} {w w' : Workspace} {component : String} {c : Component} {type : ComponentType}

lemma argLabel_inj {i j : ℕ} (h : argLabel i = argLabel j) : i = j := by
  rw [argLabel, argLabel, String.append_right_inj] at h
  have hdigits := congrArg (fun t : String => Text.natOfDigits? t.toList) h
  simpa only [Text.natOfDigits?_natText, Option.some.injEq] using hdigits

structure Awaiting (definition : BlockId) (i n : ℕ) (g : BlockGraph) : Prop where
  le_nextId : definition ≤ g.nextId
  open_at : ∃ b, g.get? definition = some b ∧ b.parent = none ∧ b.before = none ∧
    ∀ j, i ≤ j → j < n → b.Vacant (argLabel j)

namespace Awaiting

variable {g : BlockGraph} {definition : BlockId} {i n : ℕ}

lemma start (g : BlockGraph) (genus : Genus) (name : String) (n : ℕ) :
    Awaiting (g.nextId + 1) 0 n (g.addBlock genus name (argSockets n)).1 where
  le_nextId := Nat.le_refl _
  open_at := by
    refine ⟨_, (SortedMap.get?_insert ..).trans (if_pos rfl), rfl, rfl, fun j _ hj => ?_⟩
    have hmem : Socket.ofDef { label := argLabel j, kind := .typed "argument" } ∈
        (genus.sockets ++ argSockets n).map Socket.ofDef := by
      apply List.mem_map_of_mem
      apply List.mem_append_right
      exact List.mem_map.mpr ⟨j, List.mem_range.mpr hj, rfl⟩
    obtain ⟨s, hs⟩ := exists_find?_key Socket.label hmem
    obtain ⟨d, -, rfl⟩ := List.mem_map.mp (List.mem_of_find?_eq_some hs)
    exact ⟨_, hs, rfl⟩

lemma step (h : Awaiting definition i n g) (hi : i < n) (argument : Genus) (param : String) :
    ∃ g', BlockGraph.connect definition (argLabel i) (g.nextId + 1) (g.addBlock argument param []).1 = (.ok (), g') ∧
      Awaiting definition (i + 1) n g' := by
  set g₁ := (g.addBlock argument param []).1 with hg₁
  obtain ⟨a, -, ha, hget⟩ := BlockGraph.addBlock_get? g argument param []
  obtain ⟨b, hb, hparent, hbefore, hvacant⟩ := h.open_at
  have hne : definition ≠ g.nextId + 1 := Nat.ne_of_lt (Nat.lt_succ_of_le h.le_nextId)
  have hnew : g₁.get? (g.nextId + 1) = some a := (hget _).trans (if_pos rfl)
  have hold : g₁.get? definition = some b := (hget _).trans ((if_neg hne).trans hb)
  have hfree : g₁.requireFree (g.nextId + 1) = .ok () :=
    BlockGraph.requireFree_eq_ok.mpr ⟨a, hnew, ha.parent, ha.before⟩
  have hopen : g₁.requireOpenSocket definition (argLabel i) = .ok () := by
    obtain ⟨s, hs, hempty⟩ := hvacant i (Nat.le_refl i) hi
    exact BlockGraph.requireOpenSocket_eq_ok.mpr ⟨b, s, hold, hs, hempty⟩
  have hencloses : g₁.encloses (g.nextId + 1) definition = false := by
    rw [BlockGraph.encloses, BlockGraph.enclosesWithin, if_neg hne, hold, Option.bind_some, Block.up, hbefore, hparent]
    rfl
  have hrun : BlockGraph.connect definition (argLabel i) (g.nextId + 1) g₁ =
      (.ok (), (g₁.plugged definition (argLabel i) (g.nextId + 1)).adapt definition) := by
    obtain ⟨e, he⟩ | ⟨-, -, -, hrun⟩ := BlockGraph.connect_cases g₁ definition (argLabel i) (g.nextId + 1)
    · simp [BlockGraph.connect, hfree, hencloses, hopen, Edit.modify] at he
    · exact hrun
  refine ⟨_, hrun, ?_, ?_⟩
  · rw [BlockGraph.sameJoints_adapt.1, BlockGraph.relinked_plugged.1]
    exact Nat.le_succ_of_le h.le_nextId
  -- what the definition holds after the connection, up to the types that it adapts
  · have hplugged : (g₁.plugged definition (argLabel i) (g.nextId + 1)).get? definition =
        some { b with sockets := Socket.fill (argLabel i) (g.nextId + 1) b.sockets } := by
      rw [BlockGraph.plugged, BlockGraph.get?_modify, if_neg hne, BlockGraph.get?_modify, if_pos rfl, hold,
        Option.map_some]
    have hsameJoints : BlockGraph.SameJoints _ ((g₁.plugged definition (argLabel i) (g.nextId + 1)).adapt definition) :=
      BlockGraph.sameJoints_adapt
    have hrelinked : BlockGraph.Relinked _ ((g₁.plugged definition (argLabel i) (g.nextId + 1)).adapt definition) :=
      BlockGraph.relinked_adapt
    have hjoints := hsameJoints.2 definition
    have hbare := hrelinked.2 definition
    rw [hplugged, Option.map_some] at hjoints hbare
    obtain ⟨b', hb', hsame⟩ := Option.map_eq_some_iff.mp hjoints
    rw [hb', Option.map_some] at hbare
    have hslots := Block.slots_congr (Option.some.inj hbare) hsame
    simp only [Block.joints, Prod.mk.injEq] at hsame
    obtain ⟨-, -, -, hparent', hbefore', -⟩ := hsame
    refine ⟨b', hb', hparent'.trans hparent, hbefore'.trans hbefore, fun j hij hj => ?_⟩
    have hlabel : argLabel j ≠ argLabel i := fun he => by
      have := argLabel_inj he
      omega
    have hfill := Block.vacant_fill (c := g.nextId + 1) hlabel (hvacant j (by omega) hj)
    rw [Block.vacant_iff, hslots]
    exact Block.vacant_iff.mp hfill

end Awaiting

lemma addParams_run (argument : Genus) {definition : BlockId} (params : List String) {i : ℕ} {w : Workspace}
    (h : Awaiting definition i (i + params.length) w.blocks) :
    ∃ w', addParams argument definition i params w = (.ok (), w') := by
  induction params generalizing i w with
  | nil => exact ⟨w, rfl⟩
  | cons param params ih =>
    rw [List.length_cons] at h
    obtain ⟨g, hrun, hnext⟩ := h.step (by omega) argument param
    have hplace : place argument param [] w = (.ok (w.blocks.nextId + 1), { w with
        blocks := (w.blocks.addBlock argument param []).1 }) := rfl
    have hconnect : onBlocks (BlockGraph.connect definition (argLabel i) (w.blocks.nextId + 1))
        { w with blocks := (w.blocks.addBlock argument param []).1 } = (.ok (), { w with blocks := g }) :=
      onBlocks_of_eq hrun
    obtain ⟨w', hw'⟩ := ih (i := i + 1) (w := { w with blocks := g }) (by rwa [Nat.add_right_comm, Nat.add_assoc])
    exact ⟨w', by rw [addParams, Edit.bind_ok hplace, Edit.bind_ok hconnect, hw']⟩

lemma ne_of_nextId_lt (h : w.blocks.nextId < w'.blocks.nextId) : w' ≠ w := by
  rintro rfl
  exact Nat.lt_irrefl _ h

def procedureGenus (withResult : Bool) : String :=
  if withResult then GenusName.procedureWithResult else GenusName.procedure

lemma requireGenus_cases (lang : Language) (name : String) :
    (lang.genus? name = none ∧ lang.requireGenus name = .error (.unknownGenus name)) ∨
      ∃ genus, lang.genus? name = some genus ∧ lang.requireGenus name = .ok genus := by
  cases h : lang.genus? name with
  | none => exact .inl ⟨rfl, by rw [Language.requireGenus, h]⟩
  | some genus => exact .inr ⟨genus, rfl, by rw [Language.requireGenus, h]⟩

lemma addProcedure_atomicAt_iff (lang : Language) (name : String) (params : List String) (withResult : Bool)
    (w : Workspace) : (addProcedure lang name params withResult).AtomicAt w ↔
      lang.genus? (procedureGenus withResult) = none ∨ lang.genus? GenusName.argument ≠ none := by
  obtain ⟨hnone, herror⟩ | ⟨genus, hgenus, hok⟩ := requireGenus_cases lang (procedureGenus withResult)
  · have hrun : addProcedure lang name params withResult w = (.error (.unknownGenus (procedureGenus withResult)), w) := by
      rw [procedureGenus] at herror
      rw [addProcedure, herror, Edit.lift_error_bind, procedureGenus]
    simp [atomicAt_of_error hrun, hnone]
  rw [procedureGenus] at hok
  set placed : Workspace := { w with blocks := (w.blocks.addBlock genus name (argSockets params.length)).1 } with hplaced
  have hplace : place genus name (argSockets params.length) w = (.ok (w.blocks.nextId + 1), placed) := rfl
  -- the definition is there by now, whatever comes of its parameters
  obtain ⟨hnone, herror⟩ | ⟨argument, harg, hargok⟩ := requireGenus_cases lang GenusName.argument
  · have hrun : addProcedure lang name params withResult w = (.error (.unknownGenus GenusName.argument), placed) := by
      rw [addProcedure, hok, Edit.lift_ok_bind, Edit.bind_ok hplace, herror, Edit.lift_error_bind]
    have hne : placed ≠ w := ne_of_nextId_lt (Nat.lt_succ_self _)
    simp [atomicAt_of_error hrun, hne, hgenus, hnone]
  · obtain ⟨w', hw'⟩ := addParams_run argument params (i := 0) (w := placed)
      (by rw [Nat.zero_add]; exact .start w.blocks genus name params.length)
    have hrun : addProcedure lang name params withResult w = (.ok (w.blocks.nextId + 1), w') := by
      rw [addProcedure, hok, Edit.lift_ok_bind, Edit.bind_ok hplace, hargok, Edit.lift_ok_bind, Edit.bind_ok hw']
      rfl
    exact iff_of_true (atomicAt_of_ok hrun) (.inr (by simp [harg]))

lemma addProcedureCall_atomicAt (lang : Language) (definition : BlockId) (w : Workspace) :
    (addProcedureCall lang definition).AtomicAt w := by
  rw [addProcedureCall]
  refine (atomicAt_bind_iff (Edit.get_run w)).mpr ?_
  refine atomicAt_lift_bind fun b => atomicAt_lift_bind fun genus => atomicAt_lift_bind fun caller => ?_
  obtain ⟨e, he⟩ | ⟨d, -, hd⟩ := BlockGraph.createStub_cases w.blocks definition caller
    ((w.procedureParams definition).map fun p => { label := p, kind := .typed valueType })
  · exact (atomicAt_of_error (onBlocks_of_eq he)).mpr rfl
  · exact atomicAt_of_ok (onBlocks_of_eq hd)

lemma member_of_find? {α : Type} {find : ComponentType → String → Option α} {genus name : String} {a : α}
    (ht : lang.componentType? genus = some type) (ha : find type name = some a) :
    member lang find genus name = .ok a := by
  rw [member, ht, Option.bind_some, ha]

lemma require_of_mem_parts {genus : String} (ht : lang.componentType? genus = some type) {part : Part}
    (hpart : part ∈ type.parts) : part.require lang genus = lang.requireGenus (part.genusName type) := by
  simp only [ComponentType.parts, List.mem_append, List.mem_map, List.mem_flatMap, List.mem_singleton] at hpart
  obtain ((⟨e, he, rfl⟩ | ⟨p, hp, hpart⟩) | ⟨m, hm, rfl⟩) | rfl := hpart
  · obtain ⟨e', he'⟩ := exists_find?_key EventDef.name he
    rw [Part.require, member_of_find? ht he']
    rfl
  · obtain ⟨p', hp'⟩ := exists_find?_key PropertyDef.name hp
    have hfound : member lang ComponentType.property? genus p.name = .ok p' := member_of_find? ht hp'
    simp only [ComponentType.propertyParts, List.mem_cons, List.not_mem_nil, or_false] at hpart
    obtain rfl | rfl := hpart
    · rw [Part.require, hfound]
      rfl
    · rw [Part.require, hfound]
      rfl
  · obtain ⟨m', hm'⟩ := exists_find?_key MethodDef.name hm
    have hm' : type.method? m.name = some m' := hm'
    rw [Part.require, member_of_find? ht hm', Part.genusName, hm']
    rfl
  · rfl

lemma Placed.nextId_lt {genus : Genus} {label : String} {extra : List SocketDef}
    (h : Placed genus label extra component w w') : w.blocks.nextId < w'.blocks.nextId :=
  h.nextId_eq ▸ Nat.lt_succ_self _

lemma Placed.exists_component {genus : Genus} {label : String} {extra : List SocketDef}
    (h : Placed genus label extra component w w') (hc : w.components.get? component = some c) :
    ∃ c', w'.components.get? component = some c' ∧ c'.genus = c.genus := by
  refine ⟨{ c with blocks := c.blocks.insert (w.blocks.nextId + 1) }, ?_, rfl⟩
  rw [h.components_eq, ComponentTree.get?_modify, if_pos rfl, hc, Option.map_some]

lemma build_atomic (lang : Language) (component : String) (part : Part) : (part.build lang component).Atomic := by
  refine atomic_of_cases fun w => ?_
  cases hc : w.components.get? component with
  | none => exact .inl (build_error lang hc part)
  | some c =>
    obtain ⟨e, -, he⟩ | ⟨_, _, w', -, -, hw'⟩ := build_run lang hc part
    · exact .inl ⟨e, he⟩
    · exact .inr ⟨_, w', hw'⟩

lemma mapM_build_run (lang : Language) (genus : String) (parts : List Part) {w : Workspace} {c : Component}
    (hc : w.components.get? component = some c) (hg : c.genus = genus) :
    ((∀ part ∈ parts, ∃ g, part.require lang genus = .ok g) ∧
        ∃ ids w', parts.mapM (Part.build lang component) w = (.ok ids, w')) ∨
      (∃ part ∈ parts, ∃ e, part.require lang genus = .error e) ∧
        ∃ e w', w.blocks.nextId ≤ w'.blocks.nextId ∧ parts.mapM (Part.build lang component) w = (.error e, w') := by
  induction parts generalizing w c with
  | nil => exact .inl ⟨nofun, [], w, rfl⟩
  | cons part parts ih =>
    subst hg
    obtain ⟨e, herror, hrun⟩ | ⟨g, extra, w₁, hok, hplaced, hrun⟩ := build_run lang hc part
    · refine .inr ⟨⟨part, List.mem_cons_self, e, herror⟩, e, w, Nat.le_refl _, ?_⟩
      rw [List.mapM_cons, Edit.bind_error hrun]
    · obtain ⟨c₁, hc₁, hg₁⟩ := hplaced.exists_component hc
      obtain ⟨hall, ids, w', hw'⟩ | ⟨⟨p, hp, hmissing⟩, e, w', hle, hw'⟩ := ih hc₁ hg₁
      · refine .inl ⟨List.forall_mem_cons.mpr ⟨⟨g, hok⟩, hall⟩, (w.blocks.nextId + 1) :: ids, w', ?_⟩
        rw [bind_cons_run hrun, Edit.bind_ok hw']
        rfl
      · refine .inr ⟨⟨p, List.mem_cons_of_mem _ hp, hmissing⟩, e, w', hplaced.nextId_lt.le.trans hle, ?_⟩
        rw [bind_cons_run hrun, Edit.bind_error hw']

lemma mapM_build_atomicAt_iff (lang : Language) (hc : w.components.get? component = some c) (parts : List Part) :
    (parts.mapM (Part.build lang component)).AtomicAt w ↔
      (∀ part ∈ parts.head?, ∃ e, part.require lang c.genus = .error e) ∨
        ∀ part ∈ parts, ∃ g, part.require lang c.genus = .ok g := by
  cases parts with
  | nil => exact iff_of_true (atomicAt_of_ok (a := []) rfl) (.inl nofun)
  | cons part parts =>
    obtain ⟨e, herror, hrun⟩ | ⟨g, extra, w₁, hok, hplaced, hrun⟩ := build_run lang hc part
    · have hall : ((part :: parts).mapM (Part.build lang component)) w = (.error e, w) := by
        rw [List.mapM_cons, Edit.bind_error hrun]
      refine iff_of_true ((atomicAt_of_error hall).mpr rfl) (.inl fun p hp => ?_)
      obtain rfl := Option.some.inj hp
      exact ⟨e, herror⟩
    · have hhead : ¬ ∀ p ∈ (part :: parts).head?, ∃ e, p.require lang c.genus = .error e := by
        intro h
        obtain ⟨e, he⟩ := h part rfl
        cases he.symm.trans hok
      obtain ⟨c₁, hc₁, hg₁⟩ := hplaced.exists_component hc
      obtain ⟨hall, ids, w', hw'⟩ | ⟨⟨p, hp, e', hmissing⟩, e, w', hle, hw'⟩ :=
        mapM_build_run lang c.genus parts hc₁ hg₁
      · have hrun' : ((part :: parts).mapM (Part.build lang component)) w =
            (.ok ((w.blocks.nextId + 1) :: ids), w') := by
          rw [bind_cons_run hrun, Edit.bind_ok hw']
          rfl
        exact iff_of_true (atomicAt_of_ok hrun') (.inr (List.forall_mem_cons.mpr ⟨⟨g, hok⟩, hall⟩))
      · have hrun' : ((part :: parts).mapM (Part.build lang component)) w = (.error e, w') := by
          rw [bind_cons_run hrun, Edit.bind_error hw']
        refine iff_of_false (fun hatomic => ?_) (not_or_intro hhead fun hall => ?_)
        -- the first part has been built by then
        · exact ne_of_nextId_lt (hplaced.nextId_lt.trans_le hle) ((atomicAt_of_error hrun').mp hatomic)
        · obtain ⟨g', hg'⟩ := hall p (List.mem_cons_of_mem _ hp)
          cases hg'.symm.trans hmissing

lemma generateBlocks_atomicAt_iff (lang : Language) (component : String) (w : Workspace) :
    (generateBlocks lang component).AtomicAt w ↔ ∀ c type, w.components.get? component = some c →
      lang.componentType? c.genus = some type →
        (∀ part ∈ type.parts.head?, lang.genus? (part.genusName type) = none) ∨
          ∀ part ∈ type.parts, lang.genus? (part.genusName type) ≠ none := by
  rw [generateBlocks_eq]
  obtain ⟨hnone, e, he⟩ | ⟨c, hc, hgenus⟩ := genusOf_cases component w
  · refine iff_of_true ((atomicAt_of_error (Edit.bind_error he)).mpr rfl) fun c type hc => ?_
    cases hnone.symm.trans hc
  rw [atomicAt_bind_iff hgenus]
  cases ht : lang.componentType? c.genus with
  | none =>
    refine iff_of_true ((atomicAt_of_error rfl).mpr rfl) fun c' type hc' ht' => ?_
    obtain rfl := Option.some.inj (hc.symm.trans hc')
    cases ht.symm.trans ht'
  | some type =>
    have herror (part : Part) (hp : part ∈ type.parts) :
        (∃ e, part.require lang c.genus = .error e) ↔ lang.genus? (part.genusName type) = none := by
      rw [require_of_mem_parts ht hp]
      obtain ⟨hn, hr⟩ | ⟨g, hg, hr⟩ := requireGenus_cases lang (part.genusName type)
      · simp [hn, hr]
      · simp [hg, hr]
    have hok (part : Part) (hp : part ∈ type.parts) :
        (∃ g, part.require lang c.genus = .ok g) ↔ lang.genus? (part.genusName type) ≠ none := by
      rw [Ne, ← herror part hp]
      cases part.require lang c.genus with
      | error e => simp
      | ok g => simp
    dsimp only
    rw [mapM_build_atomicAt_iff lang hc]
    constructor
    · intro h c' type' hc' ht'
      obtain rfl := Option.some.inj (hc.symm.trans hc')
      obtain rfl := Option.some.inj (ht.symm.trans ht')
      refine h.imp (fun h part hp => ?_) fun h part hp => ?_
      · exact (herror part (List.mem_of_head? hp)).mp (h part hp)
      · exact (hok part hp).mp (h part hp)
    · intro h
      refine (h c type hc ht).imp (fun h part hp => ?_) fun h part hp => ?_
      · exact (herror part (List.mem_of_head? hp)).mpr (h part hp)
      · exact (hok part hp).mpr (h part hp)

theorem composite_edits_atomic_iff (lang : Language) (w : Workspace) (component name : String) (params : List String)
    (withResult : Bool) (definition : BlockId) :
    (∀ part : Part, (part.build lang component).AtomicAt w) ∧ (addProcedureCall lang definition).AtomicAt w ∧
      ((addProcedure lang name params withResult).AtomicAt w ↔
        lang.genus? (procedureGenus withResult) = none ∨ lang.genus? GenusName.argument ≠ none) ∧
      ((generateBlocks lang component).AtomicAt w ↔ ∀ c type, w.components.get? component = some c →
        lang.componentType? c.genus = some type →
          (∀ part ∈ type.parts.head?, lang.genus? (part.genusName type) = none) ∨
            ∀ part ∈ type.parts, lang.genus? (part.genusName type) ≠ none) :=
  ⟨fun part => build_atomic lang component part w, addProcedureCall_atomicAt lang definition w,
    addProcedure_atomicAt_iff lang name params withResult w, generateBlocks_atomicAt_iff lang component w⟩

def bareProcedures : Language := Language.addGenus {} { name := GenusName.procedure, kind := .procedureDef }

theorem failed_procedure_stays :
    ¬ ∀ (lang : Language) (w : Workspace) (name : String) (params : List String) (withResult : Bool), w.Reached →
      (addProcedure lang name params withResult).AtomicAt w := by
  intro hall
  have hatomic := hall bareProcedures (Workspace.new "Screen1") "show" [] false ⟨_, [], rfl⟩
  have hrun : addProcedure bareProcedures "show" [] false (Workspace.new "Screen1") =
      (.error (.unknownGenus "argument"), _) := rfl
  have hsame := congrArg (·.blocks.nextId) (hatomic _ _ hrun)
  cases hsame

end Workspace

end BlockStudio
