import BlockStudio.Link.Check
import BlockStudio.Proofs.Collection.FirstMatch
import BlockStudio.Proofs.Workspace.References

namespace BlockStudio

namespace LinkRules

variable {lang : Language} {r : LinkRules} {t : ComponentTree} {b : Block} {type : ComponentType} {m : MethodDef}
  {params : List ParamDef} {p : ParamDef} {c : Component} {owner : String}

def shownType (type : String) : String := if type = valueType then "any" else type

/-- The type that a call reads for a parameter: the one declared at the position that the name of the parameter has
among the names that are not `component`. -/
def readType (params : List ParamDef) (p : ParamDef) : String :=
  ((((params.filter (·.name ≠ componentSocket)).findIdx? (·.name = p.name)).bind (params[·]?)).map
    (shownType ·.type)).getD "any"

lemma singleType_singleton (type : String) : singleType (SortedSet.ofList [type]) = shownType type := by
  have hlist : (SortedSet.ofList [type]).toList = [type] := rfl
  rw [singleType, hlist, shownType]
  by_cases h : type = valueType
  · rw [if_pos h, List.filter_cons_of_neg (by simp [h])]
    rfl
  · rw [if_neg h, List.filter_cons_of_pos (by simp [h])]
    rfl

lemma readType_of_nodup (hd : (params.map (·.name)).Nodup) (hcomponent : componentSocket ∉ params.map (·.name))
    (hp : p ∈ params) : readType params p = shownType p.type := by
  have hall : params.filter (·.name ≠ componentSocket) = params := by
    refine List.filter_eq_self.mpr fun q hq => decide_eq_true fun he => hcomponent ?_
    exact List.mem_map.mpr ⟨q, hq, he⟩
  have hfound : params.find? (fun q => q.name = p.name) = some p := find?_key_of_nodup ParamDef.name hd hp
  rw [List.find?_eq_bind_findIdx?_getElem?] at hfound
  rw [readType, hall, hfound, Option.map_some, Option.getD_some]

lemma methodParams_of_ofLanguage (h : ofLanguage lang = .ok r) :
    r.methodParams = (lang.components.values.flatMap paramTable).reverse := by
  rw [ofLanguage] at h
  cases hg : genusRules lang.genera.values with
  | error e =>
    rw [hg] at h
    cases h
  | ok genera =>
    rw [hg] at h
    obtain rfl := Except.ok.inj h
    rfl

lemma lookup_methodParams (h : ofLanguage lang = .ok r) (htype : type ∈ lang.components.values)
    (halone : ∀ t ∈ lang.components.values, t.name = type.name → t = type)
    (hd : (type.methods.map (·.name)).Nodup) (hm : m ∈ type.methods) :
    r.methodParams.lookup (type.name, m.name) = some (m.params.map (·.type)) := by
  rw [methodParams_of_ofLanguage h]
  refine lookup_of_unique ?_ fun v hv => ?_
  · exact List.mem_reverse.mpr (List.mem_flatMap.mpr ⟨type, htype, List.mem_map.mpr ⟨m, hm, rfl⟩⟩)
  · obtain ⟨t, ht, hentry⟩ := List.mem_flatMap.mp (List.mem_reverse.mp hv)
    obtain ⟨m', hm', he⟩ := List.mem_map.mp hentry
    obtain ⟨hkey, rfl⟩ := Prod.mk.inj he
    obtain ⟨hname, hmethod⟩ := Prod.mk.inj hkey
    obtain rfl := halone t ht hname
    obtain rfl := List.inj_on_of_nodup_map hd hm' hm hmethod
    rfl

structure CallsMethod (r : LinkRules) (t : ComponentTree) (type : ComponentType) (m : MethodDef) (b : Block) : Prop where
  kind : r.kindOf? b.genus = some .componentMethod
  member : r.memberOf? t b = some (type.name, m.name)
  sockets : b.sockets.map (·.label) = m.params.map (·.name)

lemma CallsMethod.paramSet_map (h : r.CallsMethod t type m b)
    (hparams : r.methodParams.lookup (type.name, m.name) = some (m.params.map (·.type))) (p : ParamDef) :
    ((r.paramSet t b p.name).map singleType).getD "any" = readType m.params p := by
  have hposition : (b.sockets.filter (·.label ≠ componentSocket)).findIdx? (·.label = p.name) =
      (m.params.filter (·.name ≠ componentSocket)).findIdx? (·.name = p.name) := by
    have hlabels : (b.sockets.map (·.label)).filter (· ≠ componentSocket) =
        (m.params.map (·.name)).filter (· ≠ componentSocket) := congrArg _ h.sockets
    rw [List.filter_map, List.filter_map] at hlabels
    have hfind := congrArg (List.findIdx? (· = p.name)) hlabels
    rwa [List.findIdx?_map, List.findIdx?_map] at hfind
  rw [paramSet, h.member, readType]
  simp only [Option.bind_eq_bind, Option.bind_some, hparams, hposition]
  cases (m.params.filter (·.name ≠ componentSocket)).findIdx? (·.name = p.name) with
  | none => rfl
  | some i =>
    rw [Option.bind_some, Option.bind_some, List.getElem?_map]
    cases m.params[i]? with
    | none => rfl
    | some q => exact singleType_singleton q.type

lemma CallsMethod.argumentTypes_eq (h : r.CallsMethod t type m b)
    (hparams : r.methodParams.lookup (type.name, m.name) = some (m.params.map (·.type))) :
    r.argumentTypes t b = some (m.params.map (readType m.params)) := by
  have hruled : r.hasArgumentRule t b = true := by
    rw [hasArgumentRule, h.kind, h.member]
    simp [hparams]
  -- the socket of a component is no exception in the call of a method, although it is left out of the count
  have hargument (s : Socket) : r.argumentType t b s = ((r.paramSet t b s.label).map singleType).getD "any" := by
    rw [argumentType, socketTypes, h.kind]
    simp only [BlockKind.isTypeMember, decide_true, Bool.true_or, if_true, reduceCtorEq, decide_false, Bool.or_self,
      Bool.false_and, Bool.false_eq_true, if_false]
    cases r.paramSet t b s.label with
    | none => rfl
    | some types => rfl
  rw [argumentTypes, if_pos hruled]
  calc some (b.sockets.map (r.argumentType t b))
      = some ((b.sockets.map (·.label)).map fun label => ((r.paramSet t b label).map singleType).getD "any") := by
        rw [List.map_map]
        exact congrArg some (List.map_congr_left fun s _ => hargument s)
    _ = some (m.params.map (readType m.params)) := by
        rw [h.sockets, List.map_map]
        exact congrArg some (List.map_congr_left fun p _ => h.paramSet_map hparams p)

end LinkRules

namespace Workspace

open LinkRules

variable {lang : Language} {r : LinkRules} {w w' : Workspace} {component method : String} {c : Component}
  {type : ComponentType} {id : BlockId}

lemma exists_of_componentMethod (hc : w.components.get? component = some c)
    (h : componentMethod lang component method w = (.ok id, w')) :
    ∃ m genus b, (lang.componentType? c.genus).bind (·.method? method) = some m ∧
      (lang.genus? GenusName.componentMethod = some genus ∨ lang.genus? GenusName.componentMethodValue = some genus) ∧
      w'.blocks.get? id = some b ∧ b.genus = genus.name ∧ b.label = dotted component method ∧
      b.sockets = (genus.sockets ++ paramSockets m).map Socket.ofDef ∧
      w'.components = registered component id w.components := by
  obtain ⟨e, -, he⟩ | ⟨m, genus, w₁, hm, hg, hplaced, hrun⟩ := owned_run
    (fun type => member lang ComponentType.method? type method)
    (fun m => lang.requireGenus
      (if m.returns.isSome then GenusName.componentMethodValue else GenusName.componentMethod))
    (dotted component method) paramSockets (·.returns) hc
  · cases he.symm.trans h
  obtain ⟨hid, rfl⟩ := Prod.mk.inj (hrun.symm.trans h)
  obtain rfl := Except.ok.inj hid
  have hmethod : (lang.componentType? c.genus).bind (·.method? method) = some m := by
    rw [member] at hm
    split at hm
    · obtain rfl := Except.ok.inj hm
      assumption
    · cases hm
  have hfound : lang.genus? GenusName.componentMethod = some genus ∨
      lang.genus? GenusName.componentMethodValue = some genus := by
    rw [Language.requireGenus] at hg
    split at hg
    · rename_i g hget
      obtain rfl := Except.ok.inj hg
      split at hget
      · exact .inr hget
      · exact .inl hget
    · cases hg
  obtain ⟨b, hb, hgenus, hlabel, hsockets⟩ := hplaced.new
  exact ⟨m, genus, b, hmethod, hfound, hb, hgenus, hlabel.trans (if_neg (dotted_ne_empty component method)), hsockets,
    hplaced.components_eq⟩

theorem argumentTypes_line_up_iff (hr : ofLanguage lang = .ok r)
    (hgenera : ∀ g, lang.genus? GenusName.componentMethod = some g ∨
      lang.genus? GenusName.componentMethodValue = some g → g.sockets = [] ∧ r.kindOf? g.name = some .componentMethod)
    (hc : w.components.get? component = some c) (htype : lang.componentType? c.genus = some type)
    (hname : type.name = c.genus) (halone : ∀ t ∈ lang.components.values, t.name = type.name → t = type)
    (hd : (type.methods.map (·.name)).Nodup) (hdot : '.' ∉ component.toList)
    (hrun : componentMethod lang component method w = (.ok id, w')) :
    ∃ m b types, type.method? method = some m ∧ w'.blocks.get? id = some b ∧
      r.argumentTypes w'.components b = some types ∧ types = m.params.map (readType m.params) ∧
      types.length = m.params.length ∧
      (types = m.params.map (shownType ·.type) ↔ ∀ p ∈ m.params, readType m.params p = shownType p.type) ∧
      ((m.params.map (·.name)).Nodup → componentSocket ∉ m.params.map (·.name) →
        types = m.params.map (shownType ·.type)) := by
  obtain ⟨m, genus, b, hm, hg, hb, hgenus, hlabel, hsockets, htree⟩ := exists_of_componentMethod hc hrun
  obtain ⟨hempty, hkind⟩ := hgenera genus hg
  rw [htype, Option.bind_some] at hm
  obtain rfl : m.name = method := key_of_find? MethodDef.name hm
  have hcalls : r.CallsMethod w'.components type m b := by
    refine ⟨hgenus ▸ hkind, ?_, ?_⟩
    · refine (memberOf?_eq_some_iff (by rw [hgenus, hkind]; rfl)).mpr
        ⟨component, { c with blocks := c.blocks.insert id }, Block.member?_eq_some_iff.mpr ⟨hdot, hlabel⟩, ?_, hname.symm⟩
      rw [htree, registered, ComponentTree.get?_modify, if_pos rfl, hc, Option.map_some]
    · rw [hsockets, hempty, List.nil_append, paramSockets, List.map_map, List.map_map]
      rfl
  have htypes := hcalls.argumentTypes_eq (lookup_methodParams hr (NameMap.mem_values_of_get? htype) halone hd
    (List.mem_of_find?_eq_some hm))
  refine ⟨m, b, _, hm, hb, htypes, rfl, List.length_map _, List.map_inj_left, fun hnames hcomponent => ?_⟩
  exact List.map_congr_left fun p hp => readType_of_nodup hnames hcomponent hp

def gauge : ComponentType where
  name := "Gauge"
  methods := [{ name := "Mark", params := [⟨"at", "number"⟩, ⟨"note", "value"⟩] },
    { name := "Link", params := [⟨"component", "text"⟩, ⟨"n", "number"⟩] }]

def gauges : Language := (({} : Language).addComponentType gauge).addGenus
  { name := GenusName.componentMethod, kind := .componentMethod }

def gaugeRules : LinkRules where
  knownTypes := .empty
  kinds := [(GenusName.componentMethod, .componentMethod)]
  genera := [(GenusName.componentMethod, GenusRules.ofDirectives [])]
  propertyTypes := []
  methodParams := [(("Gauge", "Link"), ["text", "number"]), (("Gauge", "Mark"), ["number", "value"])]
  methodReturns := []

lemma ofLanguage_gauges : ofLanguage gauges = .ok gaugeRules := by rfl

lemma genera_gauges (g : Genus) (hg : gauges.genus? GenusName.componentMethod = some g ∨
    gauges.genus? GenusName.componentMethodValue = some g) :
    g.sockets = [] ∧ gaugeRules.kindOf? g.name = some .componentMethod := by
  obtain hg | hg := hg
  · obtain rfl := Option.some.inj hg
    exact ⟨rfl, rfl⟩
  · cases hg

def oneGauge : Workspace := (Workspace.new "Screen1").edited [.addComponent "Gauge1" "Gauge" "Screen1"]

def gauge1 : Component := { name := "Gauge1", genus := "Gauge", parent := some "Screen1" }

theorem argumentTypes_line_up_iff_gauge : ofLanguage gauges = .ok gaugeRules ∧
    oneGauge.components.get? "Gauge1" = some gauge1 ∧ '.' ∉ "Gauge1".toList ∧
    ∃ w' b, componentMethod gauges "Gauge1" "Mark" oneGauge = (.ok 1, w') ∧ w'.blocks.get? 1 = some b ∧
      gaugeRules.argumentTypes w'.components b = some ["number", "any"] := by
  have hc : oneGauge.components.get? "Gauge1" = some gauge1 := by rfl
  have hdot : '.' ∉ "Gauge1".toList := by decide
  have hrun : componentMethod gauges "Gauge1" "Mark" oneGauge = (.ok 1, _) := rfl
  have htype : gauges.componentType? gauge1.genus = some gauge := rfl
  obtain ⟨m, b, types, hm, hb, htypes, -, -, -, hlines⟩ := argumentTypes_line_up_iff ofLanguage_gauges genera_gauges hc
    htype rfl (by decide) (by decide) hdot hrun
  obtain rfl := Option.some.inj hm
  rw [hlines (by decide) (by decide)] at htypes
  exact ⟨ofLanguage_gauges, hc, hdot, _, b, hrun, hb, htypes⟩

theorem component_param_shifts_types :
    ¬ ∀ (lang : Language) (r : LinkRules) (w w' : Workspace) (component method : String) (c : Component)
      (type : ComponentType) (id : BlockId) (m : MethodDef) (b : Block), ofLanguage lang = .ok r →
      (∀ g, lang.genus? GenusName.componentMethod = some g ∨ lang.genus? GenusName.componentMethodValue = some g →
        g.sockets = [] ∧ r.kindOf? g.name = some .componentMethod) →
      w.components.get? component = some c → lang.componentType? c.genus = some type → type.name = c.genus →
      (∀ t ∈ lang.components.values, t.name = type.name → t = type) → (type.methods.map (·.name)).Nodup →
      '.' ∉ component.toList → type.method? method = some m →
      componentMethod lang component method w = (.ok id, w') → w'.blocks.get? id = some b →
        r.argumentTypes w'.components b = some (m.params.map (shownType ·.type)) := by
  intro hall
  have hrun : componentMethod gauges "Gauge1" "Link" oneGauge = (.ok 1, _) := rfl
  have hread : some ["any", "text"] = some ["text", "number"] :=
    hall gauges gaugeRules oneGauge _ "Gauge1" "Link" gauge1 gauge 1 _ _ ofLanguage_gauges genera_gauges rfl rfl rfl
      (by decide) (by decide) (by decide) rfl hrun rfl
  exact absurd hread (by decide)

end Workspace

end BlockStudio
