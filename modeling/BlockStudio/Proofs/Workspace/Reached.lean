import BlockStudio.Proofs.Links.Runs
import BlockStudio.Workspace.Derived
import BlockStudio.Workspace.Owned
import BlockStudio.Workspace.Procedure

namespace BlockStudio

namespace Edit

variable {σ α β : Type} {P : σ → Prop} {x : Edit σ α} {f : α → Edit σ β} {s : σ}

def Keeps (P : σ → Prop) (x : Edit σ α) : Prop := ∀ s, P s → P (x s).2

lemma keeps_pure (a : α) : (pure a : Edit σ α).Keeps P := fun _ h => h

lemma keeps_get : (get : Edit σ σ).Keeps P := fun _ h => h

lemma keeps_lift (r : Except EditError α) : (lift r : Edit σ α).Keeps P := fun _ h => h

lemma keeps_fail (e : EditError) : (fail e : Edit σ α).Keeps P := fun _ h => h

lemma keeps_bind (hx : x.Keeps P) (hf : ∀ a, (f a).Keeps P) : (x >>= f).Keeps P := by
  intro s hs
  have h := hx s hs
  cases hr : x s with
  | mk r t =>
    rw [hr] at h
    cases r with
    | ok a =>
      rw [bind_ok hr]
      exact hf a t h
    | error e =>
      rw [bind_error hr]
      exact h

lemma keeps_ite {c : Prop} [Decidable c] {y : Edit σ α} (hx : x.Keeps P) (hy : y.Keeps P) :
    (if c then x else y).Keeps P := by
  split
  · exact hx
  · exact hy

lemma keeps_mapM {γ : Type} {f : γ → Edit σ β} (hf : ∀ c, (f c).Keeps P) (l : List γ) : (l.mapM f).Keeps P := by
  have key : ∀ (l : List γ) (acc : List β), (List.mapM.loop f l acc).Keeps P := by
    intro l
    induction l with
    | nil => exact fun acc => keeps_pure acc.reverse
    | cons c l ih => exact fun acc => keeps_bind (hf c) fun b => ih (b :: acc)
  exact key l []

end Edit

namespace Workspace

open Edit

variable {α : Type} {lang : Language} {w : Workspace} {id : BlockId}

lemma modify_typedPlug (g : BlockGraph) (genus : Genus) (label : String) (extra : List SocketDef) (type : String) :
    (g.addBlock genus label extra).1.modify (g.nextId + 1) (typedPlug type) =
      (g.addBlock { genus with plug := some (.typed type) } label extra).1 := by
  refine BlockGraph.ext_get? rfl fun x => ?_
  rw [BlockGraph.get?_modify]
  simp only [BlockGraph.addBlock, BlockGraph.get?, SortedMap.get?_insert]
  split
  · rfl
  · rfl

def Linked (w : Workspace) : Prop := w.blocks.WellLinked

lemma linked_new (form : String) : (new form).Linked := BlockGraph.empty_wellLinked

structure Additive (P : Workspace → Prop) : Prop where
  place : ∀ genus label extra, (place genus label extra).Keeps P
  typed : ∀ genus label extra type,
    (Workspace.place genus label extra >>= fun id => Workspace.setPlug id (some type)).Keeps P
  connect : ∀ p label c, (onBlocks (BlockGraph.connect p label c)).Keeps P
  stub : ∀ d genus sockets, (onBlocks (BlockGraph.createStub d genus sockets)).Keeps P

namespace Additive

variable {P : Workspace → Prop} (h : Additive P)

include h

lemma addBlock (genus label : String) : (Workspace.addBlock lang genus label).Keeps P :=
  keeps_bind (keeps_lift _) fun g => h.place g label []

lemma placeTyped (genus : Genus) (label : String) (extra : List SocketDef) (type : Option String)
    {f : BlockId → Edit Workspace α} (hf : ∀ id, (f id).Keeps P) :
    (Workspace.place genus label extra >>= fun id => Workspace.setPlug id type >>= fun _ => f id).Keeps P := by
  cases type with
  | none => exact keeps_bind (h.place genus label extra) fun id => keeps_bind (keeps_pure ()) fun _ => hf id
  | some type => exact fun w hw => hf _ _ (h.typed genus label extra type w hw)

lemma componentTypeGetter (type property : String) : (Workspace.componentTypeGetter lang type property).Keeps P :=
  keeps_bind (keeps_lift _) fun _ => keeps_bind (keeps_lift _) fun g => h.placeTyped g _ _ _ keeps_pure

lemma componentTypeSetter (type property : String) : (Workspace.componentTypeSetter lang type property).Keeps P :=
  keeps_bind (keeps_lift _) fun _ => keeps_bind (keeps_lift _) fun g => h.place g _ _

lemma componentTypeMethod (type method : String) : (Workspace.componentTypeMethod lang type method).Keeps P :=
  keeps_bind (keeps_lift _) fun _ => keeps_bind (keeps_lift _) fun g => h.placeTyped g _ _ _ keeps_pure

lemma addParams (argument : Genus) (definition : BlockId) (params : List String) (i : ℕ) :
    (Workspace.addParams argument definition i params).Keeps P := by
  induction params generalizing i with
  | nil => exact keeps_pure ()
  | cons param params ih =>
    exact keeps_bind (h.place argument param []) fun arg =>
      keeps_bind (h.connect definition (argLabel i) arg) fun _ => ih (i + 1)

lemma addProcedure (name : String) (params : List String) (withResult : Bool) :
    (Workspace.addProcedure lang name params withResult).Keeps P :=
  keeps_bind (keeps_lift _) fun g => keeps_bind (h.place g name _) fun definition =>
    keeps_bind (keeps_lift _) fun argument => keeps_bind (h.addParams argument definition params 0) fun _ =>
      keeps_pure definition

lemma addProcedureCall (definition : BlockId) : (Workspace.addProcedureCall lang definition).Keeps P :=
  keeps_bind keeps_get fun _ => keeps_bind (keeps_lift _) fun _ => keeps_bind (keeps_lift _) fun _ =>
    keeps_bind (keeps_lift _) fun caller => h.stub definition caller _

end Additive

section Owned

variable {P : Workspace → Prop}

lemma keeps_relabelOwned (h : ∀ id label, (onBlocks (BlockGraph.relabel id label)).Keeps P) (old new : String)
    (ids : List BlockId) : (relabelOwned old new ids).Keeps P := by
  induction ids with
  | nil => exact keeps_pure []
  | cons id ids ih =>
    refine keeps_bind keeps_get fun w => ?_
    cases (w.blocks.get? id).bind fun b => renamedLabel? old new b.label with
    | none => exact ih
    | some label => exact keeps_bind (h id label) fun _ => keeps_bind ih fun rest => keeps_pure (id :: rest)

lemma keeps_removeBlocks (h : ∀ id, (onBlocks (BlockGraph.removeBlock id)).Keeps P) (ids : List BlockId) :
    (removeBlocks ids).Keeps P := by
  induction ids with
  | nil => exact keeps_pure []
  | cons id ids ih =>
    refine keeps_bind keeps_get fun w => keeps_ite ?_ ih
    exact keeps_bind (h id) fun removed => keeps_bind ih fun rest => keeps_pure (removed ++ rest)

end Owned

end Workspace

inductive TreeEdit where
  | add (name genus parent : String)
  | remove (name : String)
  | rename (old new : String)
  | setProperty (name property value : String)

def TreeEdit.run (t : ComponentTree) : TreeEdit → ComponentTree
  | add name genus parent => (ComponentTree.add name genus parent t).2
  | remove name => (ComponentTree.remove name t).2
  | rename old new => (ComponentTree.rename old new t).2
  | setProperty name property value => (ComponentTree.setProperty name property value t).2

inductive WorkspaceEdit where
  | addBlock (lang : Language) (genus label : String)
  | addProcedure (lang : Language) (name : String) (params : List String) (withResult : Bool)
  | addProcedureCall (lang : Language) (definition : BlockId)
  | addComponent (name genus parent : String)
  | componentEvent (lang : Language) (component event : String)
  | componentGetter (lang : Language) (component property : String)
  | componentSetter (lang : Language) (component property : String)
  | componentMethod (lang : Language) (component method : String)
  | componentObject (lang : Language) (component : String)
  | componentTypeGetter (lang : Language) (type property : String)
  | componentTypeSetter (lang : Language) (type property : String)
  | componentTypeMethod (lang : Language) (type method : String)
  | generateBlocks (lang : Language) (component : String)
  | renameComponent (old new : String)
  | removeComponent (name : String)
  | graph (e : GraphEdit)
  | tree (e : TreeEdit)

open Workspace in
def WorkspaceEdit.run (w : Workspace) : WorkspaceEdit → Workspace
  | addBlock lang genus label => (Workspace.addBlock lang genus label w).2
  | addProcedure lang name params withResult => (Workspace.addProcedure lang name params withResult w).2
  | addProcedureCall lang definition => (Workspace.addProcedureCall lang definition w).2
  | addComponent name genus parent => (Workspace.addComponent name genus parent w).2
  | componentEvent lang component event => (Workspace.componentEvent lang component event w).2
  | componentGetter lang component property => (Workspace.componentGetter lang component property w).2
  | componentSetter lang component property => (Workspace.componentSetter lang component property w).2
  | componentMethod lang component method => (Workspace.componentMethod lang component method w).2
  | componentObject lang component => (Workspace.componentObject lang component w).2
  | componentTypeGetter lang type property => (Workspace.componentTypeGetter lang type property w).2
  | componentTypeSetter lang type property => (Workspace.componentTypeSetter lang type property w).2
  | componentTypeMethod lang type method => (Workspace.componentTypeMethod lang type method w).2
  | generateBlocks lang component => (Workspace.generateBlocks lang component w).2
  | renameComponent old new => (Workspace.renameComponent old new w).2
  | removeComponent name => (Workspace.removeComponent name w).2
  | graph e => { w with blocks := (e.run w.blocks).2 }
  | tree e => { w with components := e.run w.components }

namespace Workspace

open Edit

variable {w : Workspace}

def edited (edits : List WorkspaceEdit) (w : Workspace) : Workspace := edits.foldl (fun w e => e.run w) w

lemma keeps_genusOf {P : Workspace → Prop} (component : String) : (genusOf component).Keeps P :=
  keeps_bind keeps_get fun _ => keeps_bind (keeps_lift _) fun c => keeps_pure c.genus

def registered (component : String) (id : BlockId) (t : ComponentTree) : ComponentTree :=
  t.modify component fun c => { c with blocks := c.blocks.insert id }

structure Kept (P : Workspace → Prop) : Prop where
  graph : ∀ (e : GraphEdit) w, P w → P { w with blocks := (e.run w.blocks).2 }
  tree : ∀ (e : TreeEdit) w, P w → P { w with components := e.run w.components }
  owner : ∀ component id w, P w → P { w with components := registered component id w.components }

namespace Kept

variable {P : Workspace → Prop} (h : Kept P) {lang : Language}

include h

lemma onBlocks {α : Type} {x : Edit BlockGraph α} (e : GraphEdit) (hx : ∀ g, e.run g = GraphEdit.run.fault (x g)) :
    (Workspace.onBlocks x).Keeps P := by
  intro w hw
  have hg := h.graph e w hw
  rw [hx, GraphEdit.fault_snd] at hg
  exact hg

lemma additive : Additive P where
  place genus label extra := h.graph (.addBlock genus label extra)
  typed genus label extra type w hw := by
    have hg := h.graph (.addBlock { genus with plug := some (.typed type) } label extra) w hw
    rwa [GraphEdit.run, ← modify_typedPlug] at hg
  connect p label c := h.onBlocks (.connect p label c) fun _ => rfl
  stub d genus sockets := h.onBlocks (.createStub d genus sockets) fun _ => rfl

lemma onComponents {α : Type} {x : Edit ComponentTree α} (e : TreeEdit) (hx : ∀ t, e.run t = (x t).2) :
    (Workspace.onComponents x).Keeps P := by
  intro w hw
  have ht := h.tree e w hw
  rwa [hx] at ht

lemma register (component : String) (id : BlockId) : (Workspace.register component id).Keeps P := h.owner component id

lemma componentEvent (component event : String) : (Workspace.componentEvent lang component event).Keeps P :=
  keeps_bind (keeps_genusOf component) fun _ => keeps_bind (keeps_lift _) fun _ => keeps_bind (keeps_lift _) fun g =>
    keeps_bind (h.additive.place g _ _) fun id => keeps_bind (h.register component id) fun _ => keeps_pure id

lemma componentGetter (component property : String) : (Workspace.componentGetter lang component property).Keeps P :=
  keeps_bind (keeps_genusOf component) fun _ => keeps_bind (keeps_lift _) fun _ => keeps_bind (keeps_lift _) fun g =>
    h.additive.placeTyped g _ _ _ fun id => keeps_bind (h.register component id) fun _ => keeps_pure id

lemma componentSetter (component property : String) : (Workspace.componentSetter lang component property).Keeps P :=
  keeps_bind (keeps_genusOf component) fun _ => keeps_bind (keeps_lift _) fun _ => keeps_bind (keeps_lift _) fun g =>
    keeps_bind (h.additive.place g _ _) fun id => keeps_bind (h.register component id) fun _ => keeps_pure id

lemma componentMethod (component method : String) : (Workspace.componentMethod lang component method).Keeps P :=
  keeps_bind (keeps_genusOf component) fun _ => keeps_bind (keeps_lift _) fun _ => keeps_bind (keeps_lift _) fun g =>
    h.additive.placeTyped g _ _ _ fun id => keeps_bind (h.register component id) fun _ => keeps_pure id

lemma componentObject (component : String) : (Workspace.componentObject lang component).Keeps P :=
  keeps_bind (keeps_genusOf component) fun _ => keeps_bind (keeps_lift _) fun g =>
    keeps_bind (h.additive.place g _ _) fun id => keeps_bind (h.register component id) fun _ => keeps_pure id

lemma propertyBlocks (component : String) (p : PropertyDef) : (Workspace.propertyBlocks lang component p).Keeps P :=
  keeps_bind (h.componentGetter component p.name) fun getter =>
    keeps_bind (h.componentSetter component p.name) fun setter => keeps_pure [getter, setter]

lemma generateBlocks (component : String) : (Workspace.generateBlocks lang component).Keeps P := by
  refine keeps_bind (keeps_genusOf component) fun genus => ?_
  cases lang.componentType? genus with
  | none => exact keeps_fail _
  | some type =>
    have hevents : (type.events.mapM fun e => Workspace.componentEvent lang component e.name).Keeps P := by
      apply keeps_mapM
      intro e
      exact h.componentEvent component e.name
    have hproperties : (type.properties.mapM (Workspace.propertyBlocks lang component)).Keeps P := by
      apply keeps_mapM
      exact h.propertyBlocks component
    have hmethods : (type.methods.mapM fun m => Workspace.componentMethod lang component m.name).Keeps P := by
      apply keeps_mapM
      intro m
      exact h.componentMethod component m.name
    apply keeps_bind hevents
    intro events
    apply keeps_bind hproperties
    intro properties
    apply keeps_bind hmethods
    intro methods
    exact keeps_bind (h.componentObject component) fun object => keeps_pure _

lemma renameComponent (old new : String) : (Workspace.renameComponent old new).Keeps P := by
  refine keeps_bind (h.onComponents (.rename old new) fun _ => rfl) fun _ => keeps_bind keeps_get fun w => ?_
  exact keeps_relabelOwned (fun id label => h.onBlocks (.relabel id label) fun _ => rfl) old new (w.ownedBlocks new)

lemma removeComponent (name : String) : (Workspace.removeComponent name).Keeps P :=
  keeps_bind (h.onComponents (.remove name) fun _ => rfl) fun _ =>
    keeps_removeBlocks (fun id => h.onBlocks (.removeBlock id) fun _ => rfl) _

lemma run (hw : P w) (e : WorkspaceEdit) : P (e.run w) := by
  cases e with
  | addBlock lang genus label => exact h.additive.addBlock genus label w hw
  | addProcedure lang name params withResult => exact h.additive.addProcedure name params withResult w hw
  | addProcedureCall lang definition => exact h.additive.addProcedureCall definition w hw
  | addComponent name genus parent => exact h.tree (.add name genus parent) w hw
  | componentEvent lang component event => exact h.componentEvent component event w hw
  | componentGetter lang component property => exact h.componentGetter component property w hw
  | componentSetter lang component property => exact h.componentSetter component property w hw
  | componentMethod lang component method => exact h.componentMethod component method w hw
  | componentObject lang component => exact h.componentObject component w hw
  | componentTypeGetter lang type property => exact h.additive.componentTypeGetter type property w hw
  | componentTypeSetter lang type property => exact h.additive.componentTypeSetter type property w hw
  | componentTypeMethod lang type method => exact h.additive.componentTypeMethod type method w hw
  | generateBlocks lang component => exact h.generateBlocks component w hw
  | renameComponent old new => exact h.renameComponent old new w hw
  | removeComponent name => exact h.removeComponent name w hw
  | graph e => exact h.graph e w hw
  | tree e => exact h.tree e w hw

lemma edited (hw : P w) (edits : List WorkspaceEdit) : P (w.edited edits) := by
  induction edits generalizing w with
  | nil => exact hw
  | cons e edits ih => exact ih (h.run hw e)

end Kept

lemma kept_linked : Kept Linked where
  graph e _ hw := BlockGraph.WellLinked.run hw e
  tree _ _ hw := hw
  owner _ _ _ hw := hw

lemma Linked.run (h : w.Linked) (e : WorkspaceEdit) : (e.run w).Linked := kept_linked.run h e

lemma Linked.edited (h : w.Linked) (edits : List WorkspaceEdit) : (w.edited edits).Linked := kept_linked.edited h edits

def Reached (w : Workspace) : Prop := ∃ form edits, (new form).edited edits = w

lemma kept_graph : Kept fun w => ∃ edits, BlockGraph.empty.edited edits = w.blocks where
  graph e _ := by
    rintro ⟨edits, he⟩
    exact ⟨edits ++ [e], by rw [BlockGraph.edited, List.foldl_append, ← he]; rfl⟩
  tree _ _ hw := hw
  owner _ _ _ hw := hw

lemma Reached.graph_edited (h : w.Reached) : ∃ edits, BlockGraph.empty.edited edits = w.blocks := by
  obtain ⟨form, edits, rfl⟩ := h
  exact kept_graph.edited ⟨[], rfl⟩ edits

lemma Reached.linked (h : w.Reached) : w.Linked := by
  obtain ⟨form, edits, rfl⟩ := h
  exact (linked_new form).edited edits

end Workspace

end BlockStudio
