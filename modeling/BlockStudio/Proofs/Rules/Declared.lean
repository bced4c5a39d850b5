import BlockStudio.Link.Check
import BlockStudio.Proofs.Collection.FirstMatch
import BlockStudio.Proofs.Rules.Directives
import Mathlib.Data.List.Sort

/-! The rules that a language declares mean what its directives say, in whatever order they stand. -/

namespace BlockStudio

lemma SortedSet.ext_mem {s t : SortedSet String} (h : ∀ a, a ∈ s ↔ a ∈ t) : s = t :=
  SortedSet.ext_toList (s.ascending.eq_of_mem_iff t.ascending h)

lemma NameMap.size_ne_zero_iff {α : Type} (m : NameMap α) : m.size ≠ 0 ↔ ∃ name, m.get? name ≠ none := by
  rw [NameMap.size, ne_eq, List.length_eq_zero_iff]
  constructor
  · intro hne
    obtain ⟨e, l, he⟩ := List.exists_cons_of_ne_nil hne
    exact ⟨e.1, by simp [NameMap.get?, he, NameMap.find?]⟩
  · rintro ⟨name, hget⟩ hnil
    exact hget (by rw [NameMap.get?, hnil]; rfl)

structure Means (known : List String) (allowed excluded : String → Prop) (rule : Option (SortedSet String)) : Prop where
  absent : rule = none ↔ (∀ t, ¬ allowed t) ∧ ∀ t, ¬ excluded t
  mem : ∀ set, rule = some set → ∀ t, t ∈ set ↔
    ((∃ a, allowed a) → t ≠ "" ∧ allowed t) ∧ ((∃ e, excluded e) → t ∈ known ∧ ¬ excluded t)
  blank : (∃ a, allowed a) → (∀ a, allowed a → a = "") → rule = some .empty

namespace Means

variable {known : List String} {allowed excluded : String → Prop} {rule rule' : Option (SortedSet String)}

lemma of_mem (absent : rule = none ↔ (∀ t, ¬ allowed t) ∧ ∀ t, ¬ excluded t)
    (mem : ∀ set, rule = some set → ∀ t, t ∈ set ↔
      ((∃ a, allowed a) → t ≠ "" ∧ allowed t) ∧ ((∃ e, excluded e) → t ∈ known ∧ ¬ excluded t)) :
    Means known allowed excluded rule where
  absent := absent
  mem := mem
  blank ha hb := by
    cases hr : rule with
    | none => exact absurd ha (not_exists.mpr (absent.mp hr).1)
    | some set =>
      refine congrArg some (SortedSet.ext_mem fun t => iff_of_false (fun ht => ?_) List.not_mem_nil)
      obtain ⟨hne, hallowed⟩ := ((mem set hr t).mp ht).1 ha
      exact hne (hb t hallowed)

lemma unique (h : Means known allowed excluded rule) (h' : Means known allowed excluded rule') : rule = rule' := by
  cases hr : rule with
  | none => exact (h'.absent.mpr (h.absent.mp hr)).symm
  | some set =>
    cases hr' : rule' with
    | none =>
      rw [h.absent.mpr (h'.absent.mp hr')] at hr
      cases hr
    | some set' => rw [SortedSet.ext_mem fun t => (h.mem set hr t).trans (h'.mem set' hr' t).symm]

end Means

structure Tells (allowed excluded : String → Prop) (rule : ConnectorRule) : Prop where
  allow_none : rule.allow = none ↔ ∀ t, ¬ allowed t
  mem_allow : ∀ set, rule.allow = some set → ∀ t, t ∈ set ↔ t ≠ "" ∧ allowed t
  exclude_none : rule.exclude = none ↔ ∀ t, ¬ excluded t
  mem_exclude : ∀ set, rule.exclude = some set → ∀ t, t ∈ set ↔ excluded t

namespace Tells

variable {allowed excluded allowed' excluded' : String → Prop} {rule : ConnectorRule} {type : String}

lemma start (ha : ∀ t, ¬ allowed t) (he : ∀ t, ¬ excluded t) : Tells allowed excluded {} where
  allow_none := iff_of_true rfl ha
  mem_allow _ h := nomatch h
  exclude_none := iff_of_true rfl he
  mem_exclude _ h := nomatch h

lemma addAllow (h : Tells allowed excluded rule) (ha : ∀ t, allowed' t ↔ allowed t ∨ t = type) :
    Tells allowed' excluded (rule.addAllow type) where
  allow_none := iff_of_false nofun fun hnone => hnone type ((ha type).mpr (.inr rfl))
  mem_allow set hset t := by
    have hold : t ∈ rule.allow.getD .empty ↔ t ≠ "" ∧ allowed t := by
      cases hr : rule.allow with
      | none => exact iff_of_false List.not_mem_nil fun ht => h.allow_none.mp hr t ht.2
      | some old => exact h.mem_allow old hr t
    obtain rfl := Option.some.inj hset
    rw [ha]
    split
    · rename_i hblank
      rw [hold]
      exact and_congr_right fun hne => ⟨.inl, fun ht => ht.resolve_right fun e => hne (e.trans hblank)⟩
    · rename_i hblank
      rw [SortedSet.mem_insert, hold]
      constructor
      · rintro (rfl | ⟨hne, ht⟩)
        · exact ⟨hblank, .inr rfl⟩
        · exact ⟨hne, .inl ht⟩
      · rintro ⟨hne, ht | ht⟩
        · exact .inr ⟨hne, ht⟩
        · exact .inl ht
  exclude_none := h.exclude_none
  mem_exclude := h.mem_exclude

lemma addExclude (h : Tells allowed excluded rule) (he : ∀ t, excluded' t ↔ excluded t ∨ t = type) :
    Tells allowed excluded' (rule.addExclude type) where
  allow_none := h.allow_none
  mem_allow := h.mem_allow
  exclude_none := iff_of_false nofun fun hnone => hnone type ((he type).mpr (.inr rfl))
  mem_exclude set hset t := by
    have hold : t ∈ rule.exclude.getD .empty ↔ excluded t := by
      cases hr : rule.exclude with
      | none => exact iff_of_false List.not_mem_nil (h.exclude_none.mp hr t)
      | some old => exact h.mem_exclude old hr t
    obtain rfl := Option.some.inj hset
    rw [SortedSet.mem_insert, hold, he, or_comm]

lemma mem_types {known : List String} (h : Tells allowed excluded rule) (hs : ¬ ((∀ t, ¬ allowed t) ∧ ∀ t, ¬ excluded t))
    (t : String) : t ∈ rule.types (.ofList known) ↔
      ((∃ a, allowed a) → t ≠ "" ∧ allowed t) ∧ ((∃ e, excluded e) → t ∈ known ∧ ¬ excluded t) := by
  rw [← not_forall_not, ← h.allow_none, ← not_forall_not, ← h.exclude_none, ConnectorRule.types]
  cases ha : rule.allow with
  | none =>
    cases he : rule.exclude with
    | none => exact absurd ⟨h.allow_none.mp ha, h.exclude_none.mp he⟩ hs
    | some exclude => simp [SortedSet.mem_filter, SortedSet.mem_ofList, h.mem_exclude exclude he]
  | some allow =>
    cases he : rule.exclude with
    | none => simp [h.mem_allow allow ha]
    | some exclude =>
      simp [SortedSet.mem_filter, SortedSet.mem_ofList, h.mem_allow allow ha, h.mem_exclude exclude he]

end Tells

namespace GenusRules

variable {ds : List Directive} {label : String}

lemma get?_onSocket (rules : GenusRules) (label label' : String) (f : ConnectorRule → ConnectorRule) :
    (rules.onSocket label f).sockets.get? label' =
      if label' = label then some (f ((rules.sockets.get? label).getD {})) else rules.sockets.get? label' :=
  NameMap.get?_put _ _ _ _

structure Holds (allowed excluded : String → Prop) (rule : Option ConnectorRule) : Prop where
  absent : rule = none ↔ (∀ t, ¬ allowed t) ∧ ∀ t, ¬ excluded t
  tells : Tells allowed excluded (rule.getD {})

namespace Holds

variable {allowed excluded allowed' excluded' : String → Prop} {rule : Option ConnectorRule} {type : String}

lemma congr (h : Holds allowed excluded rule) (ha : ∀ t, allowed' t ↔ allowed t) (he : ∀ t, excluded' t ↔ excluded t) :
    Holds allowed' excluded' rule := by
  obtain rfl : allowed' = allowed := funext fun t => propext (ha t)
  obtain rfl : excluded' = excluded := funext fun t => propext (he t)
  exact h

lemma addAllow (h : Holds allowed excluded rule) (ha : ∀ t, allowed' t ↔ allowed t ∨ t = type)
    (he : ∀ t, excluded' t ↔ excluded t) : Holds allowed' excluded' (some ((rule.getD {}).addAllow type)) := by
  obtain rfl : excluded' = excluded := funext fun t => propext (he t)
  exact ⟨iff_of_false nofun fun hnone => hnone.1 type ((ha type).mpr (.inr rfl)), h.tells.addAllow ha⟩

lemma addExclude (h : Holds allowed excluded rule) (ha : ∀ t, allowed' t ↔ allowed t)
    (he : ∀ t, excluded' t ↔ excluded t ∨ t = type) : Holds allowed' excluded' (some ((rule.getD {}).addExclude type)) := by
  obtain rfl : allowed' = allowed := funext fun t => propext (ha t)
  exact ⟨iff_of_false nofun fun hnone => hnone.2 type ((he type).mpr (.inr rfl)), h.tells.addExclude he⟩

lemma means {known : List String} (h : Holds allowed excluded rule) :
    Means known allowed excluded (rule.map (·.types (.ofList known))) := by
  refine .of_mem (Option.map_eq_none_iff.trans h.absent) fun set hset t => ?_
  obtain ⟨c, rfl, rfl⟩ := Option.map_eq_some_iff.mp hset
  exact h.tells.mem_types (fun hnone => nomatch h.absent.mpr hnone) t

end Holds

lemma ofDirectives_append (ds : List Directive) (d : Directive) :
    ofDirectives (ds ++ [d]) = (ofDirectives ds).add d := by
  rw [ofDirectives, List.foldl_append]
  rfl

lemma holds_socket (ds : List Directive) (label : String) :
    Holds (.socketAllow label · ∈ ds) (.socketExclude label · ∈ ds) ((ofDirectives ds).sockets.get? label) := by
  induction ds using List.reverseRecOn with
  | nil => exact ⟨by simp [ofDirectives, NameMap.get?, NameMap.find?, NameMap.empty], .start (by simp) (by simp)⟩
  | append_singleton ds d ih =>
    rw [ofDirectives_append]
    cases d with
    | socketAllow label' type =>
      rw [add, get?_onSocket]
      split
      · rename_i he
        subst he
        exact ih.addAllow (by simp) (by simp)
      · exact ih.congr (by simp_all) (by simp)
    | socketExclude label' type =>
      rw [add, get?_onSocket]
      split
      · rename_i he
        subst he
        exact ih.addExclude (by simp) (by simp)
      · exact ih.congr (by simp) (by simp_all)
    | plugAllow type | plugExclude type => exact ih.congr (by simp) (by simp)

lemma holds_plug (ds : List Directive) :
    Holds (.plugAllow · ∈ ds) (.plugExclude · ∈ ds) (ofDirectives ds).plug := by
  induction ds using List.reverseRecOn with
  | nil => exact ⟨by simp [ofDirectives], .start (by simp) (by simp)⟩
  | append_singleton ds d ih =>
    rw [ofDirectives_append]
    cases d with
    | socketAllow label type | socketExclude label type => exact ih.congr (by simp) (by simp)
    | plugAllow type => exact ih.addAllow (by simp) (by simp)
    | plugExclude type => exact ih.addExclude (by simp) (by simp)

def declared (known : SortedSet String) (rules : GenusRules) :
    (String → Option (SortedSet String)) × Option (SortedSet String) :=
  (fun label => (rules.sockets.get? label).map (·.types known), rules.plug.map (·.types known))

end GenusRules

namespace Genus

variable {g g' : Genus} {ds ds' : List Directive}

lemma exists_malformed_iff : (∃ key, g.Malformed key) ↔
    ∃ value, (g.Directs "socket-allow" value ∨ g.Directs "socket-exclude" value) ∧ ':' ∉ value.toList := by
  constructor
  · rintro ⟨key, n, value, hn, rfl | rfl, he, hv⟩
    · exact ⟨value, .inl ⟨n, hn, he⟩, hv⟩
    · exact ⟨value, .inr ⟨n, hn, he⟩, hv⟩
  · rintro ⟨value, ⟨n, hn, he⟩ | ⟨n, hn, he⟩, hv⟩
    · exact ⟨_, n, value, hn, .inl rfl, he, hv⟩
    · exact ⟨_, n, value, hn, .inr rfl, he, hv⟩

def SameDirectives (g g' : Genus) : Prop := ∀ rule value, g.Directs rule value ↔ g'.Directs rule value

lemma SameDirectives.states (h : g.SameDirectives g') (d : Directive) : g.States d ↔ g'.States d := by
  cases d with
  | _ => simp only [States, h _ _]

lemma means_socket (h : Directive.readAll g = .ok ds) (known : List String) (label : String) :
    Means known (g.States <| .socketAllow label ·) (g.States <| .socketExclude label ·)
      (((GenusRules.ofDirectives ds).declared (.ofList known)).1 label) := by
  simp only [← Directive.mem_readAll_iff h]
  exact (GenusRules.holds_socket ds label).means

lemma means_plug (h : Directive.readAll g = .ok ds) (known : List String) :
    Means known (g.States <| .plugAllow ·) (g.States <| .plugExclude ·)
      ((GenusRules.ofDirectives ds).declared (.ofList known)).2 := by
  simp only [← Directive.mem_readAll_iff h]
  exact (GenusRules.holds_plug ds).means

lemma SameDirectives.declared_eq (h : g.SameDirectives g') (hds : Directive.readAll g = .ok ds)
    (hds' : Directive.readAll g' = .ok ds') (known : List String) :
    (GenusRules.ofDirectives ds).declared (.ofList known) = (GenusRules.ofDirectives ds').declared (.ofList known) := by
  refine Prod.ext (funext fun label => ?_) ?_
  · have hmeans := means_socket hds' known label
    simp only [← h.states] at hmeans
    exact (means_socket hds known label).unique hmeans
  · have hmeans := means_plug hds' known
    simp only [← h.states] at hmeans
    exact (means_plug hds known).unique hmeans

end Genus

structure Language.Rearranged (lang lang' : Language) : Prop where
  types : lang.types = lang'.types
  components : lang.components = lang'.components
  genera : List.Forall₂ (fun g g' => g.name = g'.name ∧ g.kind = g'.kind ∧ g.SameDirectives g')
    lang.genera.values lang'.genera.values

namespace LinkRules

variable {lang lang' : Language} {r r' : LinkRules} {t : ComponentTree} {b parent child : Block} {socket genus : String}
  {gs : List Genus} {table : List (String × GenusRules)} {g : Genus}

def rulesOf (g : Genus) : Except DirectiveError (String × GenusRules) := do
  let ds ← Directive.readAll g
  return (g.name, GenusRules.ofDirectives ds)

lemma rulesOf_eq_ok_iff {entry : String × GenusRules} :
    rulesOf g = .ok entry ↔ ∃ ds, Directive.readAll g = .ok ds ∧ entry = (g.name, GenusRules.ofDirectives ds) := by
  rw [rulesOf]
  cases Directive.readAll g with
  | error e => exact iff_of_false nofun nofun
  | ok ds =>
    constructor
    · exact fun h => ⟨ds, rfl, (Except.ok.inj h).symm⟩
    · rintro ⟨ds', h, rfl⟩
      rw [Except.ok.inj h]
      rfl

lemma rulesOf_eq_error_iff {e : DirectiveError} : rulesOf g = .error e ↔ Directive.readAll g = .error e := by
  rw [rulesOf]
  cases Directive.readAll g with
  | error e' =>
    constructor
    · exact fun h => congrArg _ (Except.error.inj h)
    · exact fun h => congrArg _ (Except.error.inj h)
  | ok ds => exact iff_of_false nofun nofun

lemma forall₂_of_genusRules (h : genusRules gs = .ok table) :
    List.Forall₂ (fun g e => ∃ ds, Directive.readAll g = .ok ds ∧ e = (g.name, GenusRules.ofDirectives ds)) gs
      table.reverse := by
  change (gs.mapM rulesOf >>= fun rules => pure rules.reverse) = _ at h
  cases hl : gs.mapM rulesOf with
  | error e =>
    rw [hl] at h
    cases h
  | ok rules =>
    rw [hl] at h
    obtain rfl := Except.ok.inj h
    rw [List.reverse_reverse]
    exact (forall₂_of_mapM_ok hl).imp fun g entry => rulesOf_eq_ok_iff.mp

lemma malformed_of_genusRules {e : DirectiveError} (h : genusRules gs = .error e) :
    ∃ g ∈ gs, e.genus = g.name ∧ g.Malformed e.key := by
  change (gs.mapM rulesOf >>= fun rules => pure rules.reverse) = _ at h
  cases hl : gs.mapM rulesOf with
  | ok rules =>
    rw [hl] at h
    cases h
  | error e' =>
    rw [hl] at h
    obtain rfl := Except.error.inj h
    obtain ⟨g, hg, he⟩ := exists_of_mapM_error hl
    exact ⟨g, hg, Directive.malformed_of_readAll (rulesOf_eq_error_iff.mp he)⟩

lemma exists_genusRules (h : ofLanguage lang = .ok r) : ∃ table, genusRules lang.genera.values = .ok table ∧
    r = { knownTypes := .ofList lang.types
          kinds := (lang.genera.values.map fun g => (g.name, g.kind)).reverse
          genera := table
          propertyTypes := (lang.components.values.flatMap propertyTable).reverse
          methodParams := (lang.components.values.flatMap paramTable).reverse
          methodReturns := (lang.components.values.flatMap returnTable).reverse } := by
  rw [ofLanguage] at h
  cases hg : genusRules lang.genera.values with
  | error e =>
    rw [hg] at h
    cases h
  | ok table =>
    rw [hg] at h
    exact ⟨table, rfl, (Except.ok.inj h).symm⟩

lemma malformed_of_ofLanguage {e : DirectiveError} (h : ofLanguage lang = .error e) :
    ∃ g ∈ lang.genera.values, e.genus = g.name ∧ g.Malformed e.key := by
  rw [ofLanguage] at h
  cases hg : genusRules lang.genera.values with
  | error e' =>
    rw [hg] at h
    obtain rfl := Except.error.inj h
    exact malformed_of_genusRules hg
  | ok table =>
    rw [hg] at h
    cases h

lemma exists_readAll (h : ofLanguage lang = .ok r) (hg : g ∈ lang.genera.values) :
    ∃ ds, Directive.readAll g = .ok ds ∧ (g.name, GenusRules.ofDirectives ds) ∈ r.genera := by
  obtain ⟨table, htable, rfl⟩ := exists_genusRules h
  obtain ⟨entry, hentry, ds, hds, rfl⟩ := exists_of_forall₂ (forall₂_of_genusRules htable) hg
  exact ⟨ds, hds, List.mem_reverse.mp hentry⟩

lemma ofLanguage_error_iff : (∃ e, ofLanguage lang = .error e) ↔ ∃ g ∈ lang.genera.values, ∃ key, g.Malformed key := by
  constructor
  · rintro ⟨e, he⟩
    obtain ⟨g, hg, -, hm⟩ := malformed_of_ofLanguage he
    exact ⟨g, hg, e.key, hm⟩
  · rintro ⟨g, hg, key, hm⟩
    cases hl : ofLanguage lang with
    | error e => exact ⟨e, rfl⟩
    | ok r =>
      obtain ⟨ds, hds, -⟩ := exists_readAll hl hg
      exact absurd hm (Directive.not_malformed_of_readAll hds key)

def declaredPlug (r : LinkRules) (genus : String) : Option (SortedSet String) :=
  ((r.genera.lookup genus).bind (·.plug)).map (·.types r.knownTypes)

def declared (r : LinkRules) (genus : String) :
    Option ((String → Option (SortedSet String)) × Option (SortedSet String)) :=
  (r.genera.lookup genus).map (GenusRules.declared r.knownTypes)

lemma declaredSet_eq : r.declaredSet genus socket = (r.declared genus).bind (·.1 socket) := by
  rw [declaredSet, declared]
  cases r.genera.lookup genus with
  | none => rfl
  | some rules => cases h : rules.sockets.get? socket <;> simp [GenusRules.declared, h]

lemma declaredPlug_eq : r.declaredPlug genus = (r.declared genus).bind (·.2) := by
  rw [declaredPlug, declared]
  cases r.genera.lookup genus with
  | none => rfl
  | some rules => rfl

lemma declared_of_mem (h : ofLanguage lang = .ok r) (hd : (lang.genera.values.map (·.name)).Nodup)
    (hg : g ∈ lang.genera.values) : ∃ ds, Directive.readAll g = .ok ds ∧
      r.declared g.name = some ((GenusRules.ofDirectives ds).declared (.ofList lang.types)) := by
  obtain ⟨ds, hds, hmem⟩ := exists_readAll h hg
  obtain ⟨table, htable, rfl⟩ := exists_genusRules h
  have hlookup : table.lookup g.name = some (GenusRules.ofDirectives ds) := by
    refine lookup_of_unique hmem fun rules hrules => ?_
    obtain ⟨g', hg', ds', hds', he⟩ :=
      exists_of_forall₂ (forall₂_of_genusRules htable).flip (List.mem_reverse.mpr hrules)
    obtain ⟨hname, rfl⟩ := Prod.mk.inj he
    -- no other genus has the name
    obtain rfl := List.inj_on_of_nodup_map hd hg' hg hname.symm
    rw [Except.ok.inj (hds.symm.trans hds')]
  exact ⟨ds, hds, by rw [declared, hlookup, Option.map_some]⟩

structure Agrees (r r' : LinkRules) : Prop where
  knownTypes : r.knownTypes = r'.knownTypes
  kinds : r.kinds = r'.kinds
  propertyTypes : r.propertyTypes = r'.propertyTypes
  methodParams : r.methodParams = r'.methodParams
  methodReturns : r.methodReturns = r'.methodReturns
  coercions : r.coercions = r'.coercions
  declared : ∀ genus, r.declared genus = r'.declared genus

namespace Agrees

variable (h : r.Agrees r')

include h

lemma kindOf? (genus : String) : r.kindOf? genus = r'.kindOf? genus := by
  rw [LinkRules.kindOf?, LinkRules.kindOf?, h.kinds]

lemma memberOf? : r.memberOf? t b = r'.memberOf? t b := by
  rw [LinkRules.memberOf?, LinkRules.memberOf?, h.kindOf?]

lemma propertySet : r.propertySet t b = r'.propertySet t b := by
  simp only [LinkRules.propertySet, LinkRules.propertyType, h.memberOf?, h.propertyTypes]

lemma paramSet : r.paramSet t b socket = r'.paramSet t b socket := by
  simp only [LinkRules.paramSet, h.memberOf?, h.methodParams]

lemma declaredSet : r.declaredSet genus socket = r'.declaredSet genus socket := by
  rw [declaredSet_eq, declaredSet_eq, h.declared]

lemma declaredPlug : r.declaredPlug genus = r'.declaredPlug genus := by
  rw [declaredPlug_eq, declaredPlug_eq, h.declared]

lemma socketTypes : r.socketTypes t b socket = r'.socketTypes t b socket := by
  simp only [LinkRules.socketTypes, h.kindOf?, h.propertySet, h.paramSet, h.declaredSet]

lemma plugTypes : r.plugTypes t b = r'.plugTypes t b := by
  have hplug : r.declaredPlug b.genus = r'.declaredPlug b.genus := h.declaredPlug
  rw [LinkRules.declaredPlug, LinkRules.declaredPlug] at hplug
  simp only [LinkRules.plugTypes, h.kindOf?, h.propertySet, h.memberOf?, h.methodReturns, hplug]

lemma canLink : r.canLink t parent child socket = r'.canLink t parent child socket := by
  rw [LinkRules.canLink, LinkRules.canLink, h.socketTypes, h.plugTypes]

lemma searchCoercion (l : List (String × String)) (blocked : Bool) :
    r.searchCoercion child l blocked = r'.searchCoercion child l blocked := by
  have hblocks (target : String) : r.blocksLiteral child target = r'.blocksLiteral child target := by
    rw [blocksLiteral, blocksLiteral, h.kindOf?]
  induction l generalizing blocked with
  | nil => rfl
  | cons p l ih =>
    rw [LinkRules.searchCoercion, LinkRules.searchCoercion, h.coercions, hblocks, ih, ih]

lemma canCoerce : r.canCoerce t parent child socket = r'.canCoerce t parent child socket := by
  rw [LinkRules.canCoerce, LinkRules.canCoerce, h.canLink, h.socketTypes, h.plugTypes]
  simp only [h.searchCoercion]

lemma hasArgumentRule : r.hasArgumentRule t b = r'.hasArgumentRule t b := by
  have hdeclared := h.declared b.genus
  rw [LinkRules.declared, LinkRules.declared, h.knownTypes] at hdeclared
  have hsize : ((r.genera.lookup b.genus).map fun rules => rules.sockets.size != 0) =
      (r'.genera.lookup b.genus).map fun rules => rules.sockets.size != 0 := by
    cases hr : r.genera.lookup b.genus with
    | none =>
      rw [hr] at hdeclared
      rw [Option.map_eq_none_iff.mp hdeclared.symm]
    | some rules =>
      rw [hr] at hdeclared
      obtain ⟨rules', hr', he⟩ := Option.map_eq_some_iff.mp hdeclared.symm
      rw [hr', Option.map_some, Option.map_some, Option.some.injEq, Bool.eq_iff_iff, bne_iff_ne, bne_iff_ne,
        NameMap.size_ne_zero_iff, NameMap.size_ne_zero_iff]
      refine exists_congr fun label => not_congr ?_
      have hlabel : (rules'.sockets.get? label).map (·.types r'.knownTypes) =
          (rules.sockets.get? label).map (·.types r'.knownTypes) := congrFun (congrArg Prod.fst he) label
      exact Option.map_eq_none_iff.symm.trans ((Eq.congr_left hlabel.symm).trans Option.map_eq_none_iff)
  simp only [LinkRules.hasArgumentRule, h.kindOf?, h.memberOf?, h.methodParams, hsize]

lemma argumentTypes : r.argumentTypes t b = r'.argumentTypes t b := by
  have hargument : r.argumentType t b = r'.argumentType t b := by
    funext s
    rw [argumentType, argumentType, h.socketTypes]
  rw [LinkRules.argumentTypes, LinkRules.argumentTypes, h.hasArgumentRule, hargument]

end Agrees

lemma malformed_of_rearranged (hl : lang.Rearranged lang') : (∃ g ∈ lang.genera.values, ∃ key, g.Malformed key) ↔
    ∃ g ∈ lang'.genera.values, ∃ key, g.Malformed key := by
  simp only [Genus.exists_malformed_iff]
  have hall := hl.genera
  generalize lang.genera.values = genera, lang'.genera.values = genera' at hall ⊢
  induction hall with
  | nil => exact Iff.rfl
  | cons hg _ ih => simp only [List.mem_cons, exists_eq_or_imp, ih, hg.2.2 _ _]

lemma agrees_of_rearranged (hl : lang.Rearranged lang') (h : ofLanguage lang = .ok r) (h' : ofLanguage lang' = .ok r') :
    r.Agrees r' := by
  obtain ⟨table, htable, rfl⟩ := exists_genusRules h
  obtain ⟨table', htable', rfl⟩ := exists_genusRules h'
  have hall := forall₂_of_genusRules htable
  have hall' := forall₂_of_genusRules htable'
  have hkinds : lang.genera.values.map (fun g => (g.name, g.kind)) =
      lang'.genera.values.map fun g => (g.name, g.kind) := by
    refine List.forall₂_eq_eq_eq ▸ List.forall₂_map_left_iff.mpr (List.forall₂_map_right_iff.mpr ?_)
    exact hl.genera.imp fun g g' hg => Prod.ext hg.1 hg.2.1
  have hdeclared : table.map (Prod.map id (GenusRules.declared (.ofList lang.types))) =
      table'.map (Prod.map id (GenusRules.declared (.ofList lang.types))) := by
    rw [← List.reverse_inj, ← List.map_reverse, ← List.map_reverse]
    refine List.ext_getElem ?_ fun i hi hi' => ?_
    · rw [List.length_map, List.length_map, ← hall.length_eq, ← hall'.length_eq, hl.genera.length_eq]
    · rw [List.length_map] at hi hi'
      have hg := hall.length_eq ▸ hi
      have hg' := hall'.length_eq ▸ hi'
      obtain ⟨hname, -, hsame⟩ := (List.forall₂_iff_get.mp hl.genera).2 i hg hg'
      obtain ⟨ds, hds, he⟩ := (List.forall₂_iff_get.mp hall).2 i hg hi
      obtain ⟨ds', hds', he'⟩ := (List.forall₂_iff_get.mp hall').2 i hg' hi'
      rw [List.getElem_map, List.getElem_map]
      exact (congrArg _ he).trans ((Prod.ext hname (hsame.declared_eq hds hds' _)).trans (congrArg _ he').symm)
  refine ⟨congrArg SortedSet.ofList hl.types, congrArg List.reverse hkinds, ?_, ?_, ?_, rfl, fun genus => ?_⟩
  · exact congrArg (fun types : NameMap ComponentType => (types.values.flatMap propertyTable).reverse) hl.components
  · exact congrArg (fun types : NameMap ComponentType => (types.values.flatMap paramTable).reverse) hl.components
  · exact congrArg (fun types : NameMap ComponentType => (types.values.flatMap returnTable).reverse) hl.components
  · rw [declared, declared, ← hl.types, ← lookup_map_snd, ← lookup_map_snd, hdeclared]

theorem tables_mean_directives (lang : Language) :
    ((∃ e, ofLanguage lang = .error e) ↔ ∃ g ∈ lang.genera.values, ∃ key, g.Malformed key) ∧
    (∀ e, ofLanguage lang = .error e → ∃ g ∈ lang.genera.values, e.genus = g.name ∧ g.Malformed e.key) ∧
    (∀ r, ofLanguage lang = .ok r → (lang.genera.values.map (·.name)).Nodup → ∀ g ∈ lang.genera.values,
      (∀ label, Means lang.types (g.States <| .socketAllow label ·) (g.States <| .socketExclude label ·)
        (r.declaredSet g.name label)) ∧
      Means lang.types (g.States <| .plugAllow ·) (g.States <| .plugExclude ·) (r.declaredPlug g.name)) ∧
    ∀ lang', lang.Rearranged lang' →
      ((∃ r, ofLanguage lang = .ok r) ↔ ∃ r, ofLanguage lang' = .ok r) ∧
      ∀ r r', ofLanguage lang = .ok r → ofLanguage lang' = .ok r' → r.Agrees r' ∧
        ∀ t parent child socket, r.canCoerce t parent child socket = r'.canCoerce t parent child socket ∧
          r.argumentTypes t child = r'.argumentTypes t child := by
  refine ⟨ofLanguage_error_iff, fun e => malformed_of_ofLanguage, fun r hr hd g hg => ?_, fun lang' hl => ⟨?_, ?_⟩⟩
  · obtain ⟨ds, hds, hdeclared⟩ := declared_of_mem hr hd hg
    refine ⟨fun label => ?_, ?_⟩
    · rw [declaredSet_eq, hdeclared]
      exact Genus.means_socket hds lang.types label
    · rw [declaredPlug_eq, hdeclared]
      exact Genus.means_plug hds lang.types
  · have hok (lang : Language) : (∃ r, ofLanguage lang = .ok r) ↔ ¬ ∃ e, ofLanguage lang = .error e := by
      cases ofLanguage lang <;> simp
    rw [hok, hok, ofLanguage_error_iff, ofLanguage_error_iff, malformed_of_rearranged hl]
  · intro r r' hr hr'
    have h := agrees_of_rearranged hl hr hr'
    exact ⟨h, fun t parent child socket => ⟨h.canCoerce, h.argumentTypes⟩⟩

end LinkRules

end BlockStudio
