import BlockStudio.Compile.Assembly
import BlockStudio.Proofs.Collection.NameMap
import BlockStudio.Proofs.Links.View
import BlockStudio.Proofs.Yail.Legible
import Mathlib.Tactic.MkIffOfInductiveProp

namespace BlockStudio

open Yail

def BlockKind.writesLabel : BlockKind → Bool
  | globalDef | variableGet | variableSet | argument | procedureDef | procedureWithResult | procedureCall
  | componentObject => true
  | _ => false

def BlockKind.namesMember (kind : BlockKind) : Bool := kind.isMember || kind.isTypeMember

def BlockKind.bindsName : BlockKind → Bool
  | forEach | forRange => true
  | _ => false

def BlockKind.hasParams : BlockKind → Bool
  | procedureDef | procedureWithResult => true
  | _ => false

namespace LinkRules

@[mk_iff]
structure Named (r : LinkRules) : Prop where
  known : ∀ t ∈ r.knownTypes.toList, IsToken t
  property : ∀ e ∈ r.propertyTypes, IsToken e.2
  param : ∀ e ∈ r.methodParams, ∀ t ∈ e.2, IsToken t
  allowed : ∀ e ∈ r.genera, ∀ s ∈ e.2.sockets.entries, ∀ types ∈ s.2.allow, ∀ t ∈ types.toList, IsToken t

instance (r : LinkRules) : Decidable r.Named := decidable_of_iff _ (named_iff r).symm

namespace Named

variable {r : LinkRules} (h : r.Named)

include h

lemma propertyType (genus property : String) : IsToken (r.propertyType genus property) := by
  rw [LinkRules.propertyType]
  cases hl : r.propertyTypes.lookup (genus, property) with
  | none => exact (by decide : IsToken "text")
  | some type =>
    obtain ⟨before, after, hl, -⟩ := List.lookup_eq_some_iff.mp hl
    exact h.property _ (hl ▸ List.mem_append_right before List.mem_cons_self)

lemma types {rule : ConnectorRule} (hr : ∀ types ∈ rule.allow, ∀ t ∈ types.toList, IsToken t) {t : String}
    (ht : t ∈ rule.types r.knownTypes) : IsToken t := by
  rw [ConnectorRule.types] at ht
  split at ht
  · rename_i hallow _
    exact hr _ hallow t (SortedSet.mem_filter.mp ht).1
  · rename_i hallow _
    exact hr _ hallow t ht
  · exact h.known t (SortedSet.mem_filter.mp ht).1
  · cases ht

lemma socketTypes {t : ComponentTree} {b : Block} {socket : String} {types : SortedSet String}
    (hs : r.socketTypes t b socket = some types) : ∀ type ∈ types, IsToken type := by
  have hvalue : IsToken valueType := by decide
  rw [LinkRules.socketTypes] at hs
  split at hs
  · cases hs
  · split at hs
    · obtain ⟨m, -, rfl⟩ := Option.map_eq_some_iff.mp hs
      simp [SortedSet.mem_ofList, h.propertyType, hvalue]
    split at hs
    · obtain rfl := Option.some.inj hs
      have hcomponent : IsToken componentSocket := by decide
      simp [SortedSet.mem_ofList, hcomponent, hvalue]
    split at hs
    · obtain ⟨m, -, hs⟩ := Option.bind_eq_some_iff.mp hs
      obtain ⟨params, hparams, hs⟩ := Option.bind_eq_some_iff.mp hs
      obtain ⟨i, -, hs⟩ := Option.bind_eq_some_iff.mp hs
      obtain ⟨type, htype, hs⟩ := Option.bind_eq_some_iff.mp hs
      obtain rfl := Option.some.inj hs
      obtain ⟨before, after, hl, -⟩ := List.lookup_eq_some_iff.mp hparams
      have hparam := h.param _ (hl ▸ List.mem_append_right before List.mem_cons_self) type (List.mem_of_getElem? htype)
      simp [SortedSet.mem_ofList, hparam]
    · obtain ⟨rules, hrules, hs⟩ := Option.bind_eq_some_iff.mp hs
      obtain ⟨rule, hrule, hs⟩ := Option.bind_eq_some_iff.mp hs
      obtain rfl := Option.some.inj hs
      obtain ⟨before, after, hl, -⟩ := List.lookup_eq_some_iff.mp hrules
      exact fun type => h.types (h.allowed _ (hl ▸ List.mem_append_right before List.mem_cons_self) _
        (NameMap.mem_entries_of_get? hrule))

omit h in
lemma singleType {types : SortedSet String} (ht : ∀ type ∈ types, IsToken type) : IsToken (singleType types) := by
  rw [LinkRules.singleType]
  split
  · rename_i only honly
    have hmem : only ∈ types.toList.filter (· ≠ valueType) := honly ▸ List.mem_cons_self
    exact ht only (List.mem_filter.mp hmem).1
  · decide

lemma argumentTypes {t : ComponentTree} {b : Block} {types : List String} (hs : r.argumentTypes t b = some types) :
    ∀ type ∈ types, IsToken type := by
  rw [LinkRules.argumentTypes] at hs
  split at hs
  · obtain rfl := Option.some.inj hs
    intro type htype
    obtain ⟨s, -, rfl⟩ := List.mem_map.mp htype
    rw [LinkRules.argumentType]
    split
    · exact singleType (h.socketTypes ‹_›)
    · decide
  · cases hs

end Named

end LinkRules

@[mk_iff]
structure Component.Named (r : LinkRules) (c : Component) : Prop where
  name : IsToken c.name
  genus : IsToken c.genus
  parent : ∀ p ∈ c.parent, IsToken p
  property : ∀ e ∈ c.properties.entries, IsToken e.1
  value : ∀ e ∈ c.properties.entries, r.propertyType c.genus e.1 = "component" → e.2 = "" ∨ IsToken e.2

instance (r : LinkRules) (c : Component) : Decidable (c.Named r) := decidable_of_iff _ (Component.named_iff r c).symm

@[mk_iff]
structure Block.Named (w : Workspace) (kind : BlockKind) (b : Block) : Prop where
  label : kind.writesLabel = true → IsToken b.label
  member : kind.namesMember = true → ∀ m ∈ b.member?, IsToken m.1 ∧ IsToken m.2
  bound : kind.bindsName = true → ∀ name ∈ (b.child? "variable").bind w.blocks.get?, IsToken name.label
  params : kind.hasParams = true → ∀ p ∈ w.procedureParams b.id, IsToken p

instance (w : Workspace) (kind : BlockKind) (b : Block) : Decidable (b.Named w kind) :=
  decidable_of_iff _ (Block.named_iff w kind b).symm

namespace Compilation

@[mk_iff]
structure Named (c : Compilation) : Prop where
  rules : c.rules.Named
  components : ∀ t ∈ c.workspace.components.list, t.Named c.rules
  blocks : ∀ b ∈ c.workspace.blocks.list, ∀ genus ∈ c.lang.genus? b.genus, b.Named c.workspace genus.kind
  op : ∀ genus ∈ c.lang.genera.values, ∀ p ∈ genus.primitive, IsToken p.op
  eventParam : ∀ t ∈ c.lang.components.values, ∀ e ∈ t.events, ∀ p ∈ e.params, IsToken p.name

instance (c : Compilation) : Decidable c.Named := decidable_of_iff _ (named_iff c).symm

namespace Named

variable {c : Compilation} {b : Block} (h : c.Named)

include h

lemma eventParams {params : List String} (hp : eventParams? c.lang c.workspace b = some params) :
    ∀ p ∈ params, IsToken p := by
  obtain ⟨m, -, hp⟩ := Option.bind_eq_some_iff.mp hp
  obtain ⟨component, -, hp⟩ := Option.bind_eq_some_iff.mp hp
  obtain ⟨type, htype, hp⟩ := Option.bind_eq_some_iff.mp hp
  obtain ⟨event, hevent, hp⟩ := Option.bind_eq_some_iff.mp hp
  obtain rfl := Option.some.inj hp
  intro p hp
  obtain ⟨param, hparam, rfl⟩ := List.mem_map.mp hp
  exact h.eventParam type (NameMap.mem_values_of_get? htype) event (List.mem_of_find?_eq_some hevent) param hparam

lemma coercionTypes : (c.coercionTypes b).Legible := by
  rw [Compilation.coercionTypes]
  split
  · exact legible_typeList (h.rules.argumentTypes ‹_›)
  · exact legible_noCoercion

end Named

end Compilation

end BlockStudio
