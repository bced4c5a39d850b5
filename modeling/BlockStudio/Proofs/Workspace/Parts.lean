import BlockStudio.Proofs.Component.Names

namespace BlockStudio

namespace Edit

variable {σ α β γ : Type}

instance : LawfulMonad (Edit σ) := LawfulMonad.mk' (Edit σ)
  (fun x => funext fun s => by
    show Edit.bind x (fun a => pure (id a)) s = x s
    rw [Edit.bind]
    rcases x s with ⟨_ | _, t⟩
    · rfl
    · rfl)
  (fun a f => rfl)
  (fun x f g => funext fun s => by
    show Edit.bind (Edit.bind x f) g s = Edit.bind x (fun a => Edit.bind (f a) g) s
    simp only [Edit.bind]
    rcases x s with ⟨_ | _, t⟩
    · rfl
    · rfl)

end Edit

inductive Part where
  | event (name : String)
  | getter (property : String)
  | setter (property : String)
  | method (name : String)
  | object
deriving Repr, DecidableEq

namespace Part

open Workspace

def label (component : String) : Part → String
  | event name | getter name | setter name | method name => dotted component name
  | object => component

def build (lang : Language) (component : String) : Part → Edit Workspace BlockId
  | event name => componentEvent lang component name
  | getter property => componentGetter lang component property
  | setter property => componentSetter lang component property
  | method name => componentMethod lang component name
  | object => componentObject lang component

def require (lang : Language) (type : String) : Part → Except EditError Genus
  | event name => do
    let _ ← member lang ComponentType.event? type name
    lang.requireGenus GenusName.componentEvent
  | getter property => do
    let _ ← member lang ComponentType.property? type property
    lang.requireGenus GenusName.componentGetter
  | setter property => do
    let _ ← member lang ComponentType.property? type property
    lang.requireGenus GenusName.componentSetter
  | method name => do
    let m ← member lang ComponentType.method? type name
    lang.requireGenus (if m.returns.isSome then GenusName.componentMethodValue else GenusName.componentMethod)
  | object => lang.requireGenus GenusName.component

end Part

namespace ComponentType

def propertyParts (p : PropertyDef) : List Part := [.getter p.name, .setter p.name]

def parts (type : ComponentType) : List Part :=
  type.events.map (fun e => .event e.name) ++ type.properties.flatMap propertyParts ++
    type.methods.map (fun m => .method m.name) ++ [.object]

end ComponentType

namespace BlockGraph

structure Grown (label : String) (g g' : BlockGraph) : Prop where
  nextId_eq : g'.nextId = g.nextId + 1
  new : ∃ b, g'.get? (g.nextId + 1) = some b ∧ b.label = label
  old : ∀ x, x ≠ g.nextId + 1 → g'.get? x = g.get? x

end BlockGraph

namespace Workspace

variable {lang : Language} {component : String} {w w' : Workspace}

lemma mapM_propertyBlocks (properties : List PropertyDef) :
    (properties.flatMap ComponentType.propertyParts).mapM (Part.build lang component) =
      (do return (← properties.mapM (propertyBlocks lang component)).flatten) := by
  induction properties with
  | nil => rfl
  | cons p properties ih =>
    rw [List.flatMap_cons, List.mapM_append, ih, List.mapM_cons]
    simp [ComponentType.propertyParts, propertyBlocks, Part.build, List.mapM_cons]

lemma generateBlocks_eq (lang : Language) (component : String) : generateBlocks lang component = (do
    let genus ← genusOf component
    match lang.componentType? genus with
    | none => Edit.fail (.unknownGenus genus)
    | some type => type.parts.mapM (Part.build lang component)) := by
  rw [generateBlocks]
  congr 1
  funext genus
  cases lang.componentType? genus with
  | none => rfl
  | some type =>
    dsimp only
    rw [ComponentType.parts, List.mapM_append, List.mapM_append, List.mapM_append, mapM_propertyBlocks]
    simp [List.mapM_map, Part.build]
    rfl

structure Built (component label : String) (w w' : Workspace) : Prop where
  grown : w.blocks.Grown label w'.blocks
  components_eq : w'.components = w.components.modify component fun c =>
    { c with blocks := c.blocks.insert (w.blocks.nextId + 1) }

structure Placed (genus : Genus) (label : String) (extra : List SocketDef) (component : String) (w w' : Workspace) :
    Prop where
  nextId_eq : w'.blocks.nextId = w.blocks.nextId + 1
  new : ∃ b, w'.blocks.get? (w.blocks.nextId + 1) = some b ∧ b.genus = genus.name ∧
    b.label = (if label = "" then genus.initialLabel else label) ∧
    b.sockets = (genus.sockets ++ extra).map Socket.ofDef
  old : ∀ x, x ≠ w.blocks.nextId + 1 → w'.blocks.get? x = w.blocks.get? x
  components_eq : w'.components = w.components.modify component fun c =>
    { c with blocks := c.blocks.insert (w.blocks.nextId + 1) }

lemma Placed.built {genus : Genus} {label : String} {extra : List SocketDef}
    (h : Placed genus label extra component w w') (hl : label ≠ "") : Built component label w w' where
  grown := by
    obtain ⟨b, hb, -, hlabel, -⟩ := h.new
    exact ⟨h.nextId_eq, ⟨b, hb, hlabel.trans (if_neg hl)⟩, h.old⟩
  components_eq := h.components_eq

lemma exists_placed (genus : Genus) (label : String) (extra : List SocketDef) (plug : Option String)
    (component : String) (w : Workspace) : ∃ w', Placed genus label extra component w w' ∧
      (do
        let id ← place genus label extra
        setPlug id plug
        register component id
        return id : Edit Workspace BlockId) w = (.ok (w.blocks.nextId + 1), w') := by
  obtain ⟨b, hnew, hgenus, hlabel, hsockets⟩ : ∃ b, (w.blocks.addBlock genus label extra).1.get?
      (w.blocks.nextId + 1) = some b ∧ b.genus = genus.name ∧
        b.label = (if label = "" then genus.initialLabel else label) ∧
        b.sockets = (genus.sockets ++ extra).map Socket.ofDef :=
    ⟨_, (SortedMap.get?_insert ..).trans (if_pos rfl), rfl, rfl, rfl⟩
  have hold (x : BlockId) (hx : x ≠ w.blocks.nextId + 1) :
      (w.blocks.addBlock genus label extra).1.get? x = w.blocks.get? x := (SortedMap.get?_insert ..).trans (if_neg hx)
  cases plug with
  | none => exact ⟨_, ⟨rfl, ⟨b, hnew, hgenus, hlabel, hsockets⟩, hold, rfl⟩, rfl⟩
  | some type =>
    refine ⟨_, ⟨rfl, ⟨typedPlug type b, ?_, hgenus, hlabel, hsockets⟩, fun x hx => ?_, rfl⟩, rfl⟩
    · exact (BlockGraph.get?_modify ..).trans ((if_pos rfl).trans (congrArg (Option.map (typedPlug type)) hnew))
    · exact (BlockGraph.get?_modify ..).trans ((if_neg hx).trans (hold x hx))

lemma genusOf_cases (component : String) (w : Workspace) :
    (w.components.get? component = none ∧ ∃ e, genusOf component w = (.error e, w)) ∨
      ∃ c, w.components.get? component = some c ∧ genusOf component w = (.ok c.genus, w) := by
  cases hc : w.components.get? component with
  | none =>
    refine .inl ⟨rfl, .unknownComponent component, ?_⟩
    rw [genusOf, Edit.get_bind, ComponentTree.require, hc, Edit.lift_error_bind]
  | some c =>
    refine .inr ⟨c, rfl, ?_⟩
    rw [genusOf, Edit.get_bind, ComponentTree.require_eq_ok.mpr hc, Edit.lift_ok_bind]
    rfl

lemma genusOf_of_get? {c : Component} (hc : w.components.get? component = some c) :
    genusOf component w = (.ok c.genus, w) := by
  obtain ⟨hnone, -⟩ | ⟨c', hc', hrun⟩ := genusOf_cases component w
  · cases hnone.symm.trans hc
  · obtain rfl := Option.some.inj (hc.symm.trans hc')
    exact hrun

lemma dotted_ne_empty (component member : String) : dotted component member ≠ "" := by
  intro h
  have hchars := congrArg String.toList h
  simp [dotted] at hchars

/-- What the builders of blocks have in common: they look up the type of the component, then the member and the genus,
and only then is there a new block. -/
lemma owned_run {α : Type} {c : Component} (find : String → Except EditError α) (genus : α → Except EditError Genus)
    (label : String) (extra : α → List SocketDef) (plug : α → Option String)
    (hc : w.components.get? component = some c) :
    let x : Edit Workspace BlockId := do
      let a ← Edit.lift (find (← genusOf component))
      let id ← place (← Edit.lift (genus a)) label (extra a)
      setPlug id (plug a)
      register component id
      return id
    (∃ e, find c.genus >>= genus = .error e ∧ x w = (.error e, w)) ∨
      ∃ a g w', find c.genus = .ok a ∧ genus a = .ok g ∧ Placed g label (extra a) component w w' ∧
        x w = (.ok (w.blocks.nextId + 1), w') := by
  intro x
  have hx := Edit.bind_ok (f := fun type => Edit.lift (find type) >>= fun a => Edit.lift (genus a) >>= fun genus =>
    place genus label (extra a) >>= fun id => setPlug id (plug a) >>= fun _ => register component id >>= fun _ =>
      pure id) (genusOf_of_get? hc)
  cases hm : find c.genus with
  | error e => exact .inl ⟨e, rfl, hx.trans (by rw [hm, Edit.lift_error_bind])⟩
  | ok a =>
    cases hg : genus a with
    | error e => exact .inl ⟨e, hg, hx.trans (by rw [hm, Edit.lift_ok_bind, hg, Edit.lift_error_bind])⟩
    | ok g =>
      obtain ⟨w', hw', hrun⟩ := exists_placed g label (extra a) (plug a) component w
      exact .inr ⟨a, g, w', rfl, hg, hw', hx.trans (by rw [hm, Edit.lift_ok_bind, hg, Edit.lift_ok_bind]; exact hrun)⟩

lemma build_run {c : Component} (lang : Language) (hc : w.components.get? component = some c) (part : Part) :
    (∃ e, part.require lang c.genus = .error e ∧ part.build lang component w = (.error e, w)) ∨
      ∃ g extra w', part.require lang c.genus = .ok g ∧ Placed g (part.label component) extra component w w' ∧
        part.build lang component w = (.ok (w.blocks.nextId + 1), w') := by
  cases part with
  | event name =>
    refine (owned_run (fun type => member lang ComponentType.event? type name)
      (fun _ => lang.requireGenus GenusName.componentEvent) (dotted component name) (fun _ => [handlerSocket])
      (fun _ => none) hc).imp_right ?_
    rintro ⟨a, g, w', ha, hg, hw', hrun⟩
    exact ⟨g, _, w', by rw [Part.require, ha]; exact hg, hw', hrun⟩
  | getter property =>
    refine (owned_run (fun type => member lang ComponentType.property? type property)
      (fun _ => lang.requireGenus GenusName.componentGetter) (dotted component property) (fun _ => [])
      (fun p => some p.type) hc).imp_right ?_
    rintro ⟨a, g, w', ha, hg, hw', hrun⟩
    exact ⟨g, _, w', by rw [Part.require, ha]; exact hg, hw', hrun⟩
  | setter property =>
    refine (owned_run (fun type => member lang ComponentType.property? type property)
      (fun _ => lang.requireGenus GenusName.componentSetter) (dotted component property)
      (fun p => [valueSocket p.type]) (fun _ => none) hc).imp_right ?_
    rintro ⟨a, g, w', ha, hg, hw', hrun⟩
    exact ⟨g, _, w', by rw [Part.require, ha]; exact hg, hw', hrun⟩
  | method name =>
    refine (owned_run (fun type => member lang ComponentType.method? type name)
      (fun m => lang.requireGenus
        (if m.returns.isSome then GenusName.componentMethodValue else GenusName.componentMethod))
      (dotted component name) paramSockets (·.returns) hc).imp_right ?_
    rintro ⟨a, g, w', ha, hg, hw', hrun⟩
    exact ⟨g, _, w', by rw [Part.require, ha]; exact hg, hw', hrun⟩
  | object =>
    refine (owned_run (fun _ => .ok ()) (fun _ => lang.requireGenus GenusName.component) component (fun _ => [])
      (fun _ => none) hc).imp_right ?_
    rintro ⟨-, g, w', -, hg, hw', hrun⟩
    exact ⟨g, _, w', hg, hw', hrun⟩

lemma build_error (lang : Language) (hc : w.components.get? component = none) (part : Part) :
    ∃ e, part.build lang component w = (.error e, w) := by
  have hgenus : ∃ e, genusOf component w = (.error e, w) := by
    obtain ⟨-, he⟩ | ⟨c, hc', -⟩ := genusOf_cases component w
    · exact he
    · cases hc.symm.trans hc'
  obtain ⟨e, he⟩ := hgenus
  cases part with
  | event name => exact ⟨e, Edit.bind_error he⟩
  | getter property => exact ⟨e, Edit.bind_error he⟩
  | setter property => exact ⟨e, Edit.bind_error he⟩
  | method name => exact ⟨e, Edit.bind_error he⟩
  | object => exact ⟨e, Edit.bind_error he⟩

lemma part_label_ne_empty (part : Part) (h : component ≠ "") : part.label component ≠ "" := by
  cases part with
  | object => exact h
  | _ => exact dotted_ne_empty component _

lemma build_cases (lang : Language) (hw : w.components.get? "" = none) (part : Part) :
    (∃ e, part.build lang component w = (.error e, w)) ∨
      ∃ c w', w.components.get? component = some c ∧ Built component (part.label component) w w' ∧
        part.build lang component w = (.ok (w.blocks.nextId + 1), w') := by
  cases hc : w.components.get? component with
  | none => exact .inl (build_error lang hc part)
  | some c =>
    have hne : component ≠ "" := by
      rintro rfl
      cases hw.symm.trans hc
    obtain ⟨e, -, he⟩ | ⟨_, _, w', -, hplaced, hrun⟩ := build_run lang hc part
    · exact .inl ⟨e, he⟩
    · exact .inr ⟨c, w', rfl, hplaced.built (part_label_ne_empty part hne), hrun⟩

end Workspace

end BlockStudio
