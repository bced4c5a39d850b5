import BlockStudio.Link.Check
import BlockStudio.Proofs.Collection.FirstMatch
import Mathlib.Data.Prod.Lex
import Mathlib.Data.String.Basic
import Mathlib.Order.Bounds.Basic

namespace BlockStudio

namespace CoercionTable

variable {table : CoercionTable} {source target : String}

def registerAll (table : CoercionTable) (more : List (String × String × Bool)) : CoercionTable :=
  more.foldl (fun table e => table.register e.1 e.2.1 e.2.2) table

lemma allows_eq_true_iff : table.allows source target = true ↔ (source, target) ∈ table.pairs := decide_eq_true_iff

lemma pairs_subset_registerAll (more : List (String × String × Bool)) :
    table.pairs ⊆ (table.registerAll more).pairs := by
  induction more generalizing table with
  | nil => exact List.Subset.refl _
  | cons e more ih => exact List.Subset.trans (List.subset_append_left _ _) ih

end CoercionTable

namespace LinkRules

variable {r : LinkRules} {t : ComponentTree} {parent child : Block} {socket : String} {offers accepts : SortedSet String}
  {l : List (String × String)} {p : String × String}

lemma refusal_ne_notNumber (accepts : SortedSet String) (label : String) :
    refusal accepts ≠ "\"" ++ label ++ "\" is not a number" := by
  have hstart : (refusal accepts).toList.head? = some 'T' := by
    rw [refusal]
    split
    · rfl
    · rfl
    · simp
    · simp
  intro h
  rw [h] at hstart
  simp at hstart

structure Registered (r : LinkRules) (t : ComponentTree) (parent child : Block) (socket : String)
    (p : String × String) : Prop where
  offered : ∃ offers, r.plugTypes t child = some offers ∧ p.1 ∈ offers
  accepted : ∃ accepts, r.socketTypes t parent socket = some accepts ∧ p.2 ∈ accepts
  listed : p ∈ r.coercions.pairs

structure Misread (r : LinkRules) (child : Block) (p : String × String) : Prop where
  literal : r.kindOf? child.genus = some .text
  target : p.2 = "number"
  notNumber : Text.isNumber child.label = false

def Converts (r : LinkRules) (t : ComponentTree) (parent child : Block) (socket : String) (p : String × String) : Prop :=
  r.Registered t parent child socket p ∧ ¬ r.Misread child p

lemma blocksLiteral_eq_true_iff : r.blocksLiteral child p.2 = true ↔ r.Misread child p := by
  simp only [blocksLiteral, Bool.and_eq_true, decide_eq_true_eq, Bool.not_eq_true', and_assoc]
  exact ⟨fun ⟨hk, ht, hn⟩ => ⟨hk, ht, hn⟩, fun h => ⟨h.literal, h.target, h.notNumber⟩⟩

def passes (r : LinkRules) (child : Block) (p : String × String) : Bool :=
  r.coercions.allows p.1 p.2 && !r.blocksLiteral child p.2

lemma passes_eq_true_iff : r.passes child p = true ↔ p ∈ r.coercions.pairs ∧ ¬ r.Misread child p := by
  rw [passes, Bool.and_eq_true, CoercionTable.allows_eq_true_iff, Bool.not_eq_true', ← blocksLiteral_eq_true_iff,
    Bool.not_eq_true]

lemma searchCoercion_fst (blocked : Bool) : (r.searchCoercion child l blocked).1 = l.find? (r.passes child) := by
  induction l generalizing blocked with
  | nil => rfl
  | cons p l ih =>
    rw [searchCoercion, List.find?_cons, passes]
    cases r.coercions.allows p.1 p.2 with
    | false => exact ih blocked
    | true =>
      cases r.blocksLiteral child p.2 with
      | false => rfl
      | true => exact ih true

lemma searchCoercion_snd (blocked : Bool) (h : l.find? (r.passes child) = none) :
    (r.searchCoercion child l blocked).2 = true ↔ blocked = true ∨ ∃ p ∈ l, p ∈ r.coercions.pairs := by
  induction l generalizing blocked with
  | nil => simp [searchCoercion]
  | cons p l ih =>
    rw [List.find?_cons, passes] at h
    have hp : p ∈ r.coercions.pairs ↔ r.coercions.allows p.1 p.2 = true := CoercionTable.allows_eq_true_iff.symm
    simp only [searchCoercion, List.mem_cons, exists_eq_or_imp, hp]
    cases ha : r.coercions.allows p.1 p.2 with
    | false =>
      rw [ha] at h
      simpa using ih blocked h
    | true =>
      cases hb : r.blocksLiteral child p.2 with
      | false => simp [ha, hb] at h
      | true =>
        rw [ha, hb] at h
        simpa using ih true h

lemma mem_typePairs : p ∈ typePairs offers accepts ↔ p.1 ∈ offers ∧ p.2 ∈ accepts := by
  obtain ⟨source, target⟩ := p
  simp [typePairs, SortedSet.mem_toList]

lemma typePairs_ascending : (typePairs offers accepts).Pairwise fun p q => toLex p < toLex q := by
  refine List.pairwise_flatMap.mpr ⟨fun source _ => ?_, ?_⟩
  · refine List.pairwise_map.mpr (accepts.ascending.imp fun hlt => ?_)
    exact Prod.Lex.toLex_lt_toLex.mpr (.inr ⟨rfl, hlt⟩)
  · refine offers.ascending.imp fun {a b} hlt p hp q hq => ?_
    obtain ⟨x, -, rfl⟩ := List.mem_map.mp hp
    obtain ⟨y, -, rfl⟩ := List.mem_map.mp hq
    exact Prod.Lex.toLex_lt_toLex.mpr (.inl hlt)

section Ruled

variable (ho : r.plugTypes t child = some offers) (ha : r.socketTypes t parent socket = some accepts)

include ho ha

lemma registered_iff : r.Registered t parent child socket p ↔ p ∈ typePairs offers accepts ∧ p ∈ r.coercions.pairs := by
  rw [mem_typePairs]
  constructor
  · rintro ⟨⟨offers', ho', hp⟩, ⟨accepts', ha', hq⟩, hl⟩
    obtain rfl := Option.some.inj (ho.symm.trans ho')
    obtain rfl := Option.some.inj (ha.symm.trans ha')
    exact ⟨⟨hp, hq⟩, hl⟩
  · rintro ⟨⟨hp, hq⟩, hl⟩
    exact ⟨⟨offers, ho, hp⟩, ⟨accepts, ha, hq⟩, hl⟩

lemma converts_iff : r.Converts t parent child socket p ↔ p ∈ typePairs offers accepts ∧ r.passes child p = true := by
  rw [Converts, registered_iff ho ha, passes_eq_true_iff, and_assoc]

lemma find?_typePairs_iff : (typePairs offers accepts).find? (r.passes child) = some p ↔
    IsLeast {q : String ×ₗ String | r.Converts t parent child socket (ofLex q)} (toLex p) := by
  rw [find?_eq_some_iff_least typePairs_ascending, IsLeast, Set.mem_ofPred_eq, ofLex_toLex, converts_iff ho ha, and_assoc]
  refine and_congr_right fun _ => and_congr_right fun _ => ⟨fun h q hq => ?_, fun h q hq hp => ?_⟩
  · obtain ⟨hq, hp⟩ := (converts_iff ho ha).mp hq
    exact h (ofLex q) hq hp
  · exact h ((converts_iff ho ha).mpr ⟨hq, hp⟩)

lemma find?_typePairs_eq_none_iff : (typePairs offers accepts).find? (r.passes child) = none ↔
    ∀ q, ¬ r.Converts t parent child socket q := by
  rw [List.find?_eq_none]
  exact forall_congr' fun q => by rw [converts_iff ho ha, not_and]

lemma canCoerce_of_some (hl : r.canLink t parent child socket = false)
    (hp : (typePairs offers accepts).find? (r.passes child) = some p) :
    r.canCoerce t parent child socket = .allowed (some p) := by
  obtain ⟨found, blocked, hs⟩ : ∃ found blocked,
      r.searchCoercion child (typePairs offers accepts) false = (found, blocked) := ⟨_, _, rfl⟩
  obtain rfl : found = some p := by rw [← hp, ← searchCoercion_fst false, hs]
  simp only [canCoerce, hl, ho, ha, hs, Bool.false_eq_true, if_false]

lemma canCoerce_of_none (hl : r.canLink t parent child socket = false)
    (hp : (typePairs offers accepts).find? (r.passes child) = none) :
    (∃ p, r.Registered t parent child socket p) ∧
      r.canCoerce t parent child socket = .refused ("\"" ++ child.label ++ "\" is not a number") ∨
    (∀ p, ¬ r.Registered t parent child socket p) ∧
      r.canCoerce t parent child socket = .refused (refusal accepts) := by
  obtain ⟨found, blocked, hs⟩ : ∃ found blocked,
      r.searchCoercion child (typePairs offers accepts) false = (found, blocked) := ⟨_, _, rfl⟩
  obtain rfl : found = none := by rw [← hp, ← searchCoercion_fst false, hs]
  have hblocked := searchCoercion_snd false hp
  simp only [hs, Bool.false_eq_true, false_or] at hblocked
  cases blocked with
  | true =>
    obtain ⟨p, hmem, hlisted⟩ := hblocked.mp rfl
    refine .inl ⟨⟨p, (registered_iff ho ha).mpr ⟨hmem, hlisted⟩⟩, ?_⟩
    simp only [canCoerce, hl, ho, ha, hs, Bool.false_eq_true, if_false]
  | false =>
    refine .inr ⟨fun p hr => ?_, ?_⟩
    · exact Bool.false_ne_true (hblocked.mpr ⟨p, (registered_iff ho ha).mp hr⟩)
    · simp only [canCoerce, hl, ho, ha, hs, Bool.false_eq_true, if_false]

end Ruled

lemma exists_types_of_canLink (h : r.canLink t parent child socket = false) :
    ∃ offers accepts, r.plugTypes t child = some offers ∧ r.socketTypes t parent socket = some accepts := by
  rw [canLink] at h
  split at h
  · exact ⟨_, _, ‹_›, ‹_›⟩
  · cases h

lemma canCoerce_of_canLink (h : r.canLink t parent child socket = true) :
    r.canCoerce t parent child socket = .allowed none := if_pos h

lemma canCoerce_cases (r : LinkRules) (t : ComponentTree) (parent child : Block) (socket : String) :
    r.canLink t parent child socket = true ∧ r.canCoerce t parent child socket = .allowed none ∨
    r.canLink t parent child socket = false ∧
      ((∃ p, IsLeast {q : String ×ₗ String | r.Converts t parent child socket (ofLex q)} (toLex p) ∧
        r.canCoerce t parent child socket = .allowed (some p)) ∨
      (∀ p, ¬ r.Converts t parent child socket p) ∧
        ((∃ p, r.Registered t parent child socket p) ∧
          r.canCoerce t parent child socket = .refused ("\"" ++ child.label ++ "\" is not a number") ∨
        (∀ p, ¬ r.Registered t parent child socket p) ∧ ∃ accepts, r.socketTypes t parent socket = some accepts ∧
          r.canCoerce t parent child socket = .refused (refusal accepts))) := by
  cases hl : r.canLink t parent child socket with
  | true => exact .inl ⟨rfl, canCoerce_of_canLink hl⟩
  | false =>
    obtain ⟨offers, accepts, ho, ha⟩ := exists_types_of_canLink hl
    refine .inr ⟨rfl, ?_⟩
    cases hp : (typePairs offers accepts).find? (r.passes child) with
    | some p => exact .inl ⟨p, (find?_typePairs_iff ho ha).mp hp, canCoerce_of_some ho ha hl hp⟩
    | none =>
      refine .inr ⟨(find?_typePairs_eq_none_iff ho ha).mp hp, ?_⟩
      exact (canCoerce_of_none ho ha hl hp).imp_right fun ⟨hnone, he⟩ => ⟨hnone, accepts, ha, he⟩

lemma Registered.of_subset {table : CoercionTable} (hs : r.coercions.pairs ⊆ table.pairs)
    (h : r.Registered t parent child socket p) : (r.withCoercions table).Registered t parent child socket p :=
  ⟨h.offered, h.accepted, hs h.listed⟩

lemma isAllowed_iff : (r.canCoerce t parent child socket).isAllowed = true ↔
    r.canLink t parent child socket = true ∨ ∃ p, r.Converts t parent child socket p := by
  obtain ⟨hl, he⟩ | ⟨hl, ⟨p, hp, he⟩ | ⟨hnone, hr⟩⟩ := r.canCoerce_cases t parent child socket
  · exact iff_of_true (he ▸ rfl) (.inl hl)
  · exact iff_of_true (he ▸ rfl) (.inr ⟨p, hp.1⟩)
  · refine iff_of_false ?_ (by simp [hl, hnone])
    obtain ⟨-, he⟩ | ⟨-, accepts, -, he⟩ := hr
    · simp [he, LinkVerdict.isAllowed]
    · simp [he, LinkVerdict.isAllowed]

lemma exists_refused_iff : (∃ reason, r.canCoerce t parent child socket = .refused reason) ↔
    r.canLink t parent child socket = false ∧ ∀ p, ¬ r.Converts t parent child socket p := by
  have hrefused : (∃ reason, r.canCoerce t parent child socket = .refused reason) ↔
      ¬ (r.canCoerce t parent child socket).isAllowed = true := by
    cases r.canCoerce t parent child socket with
    | allowed via => simp [LinkVerdict.isAllowed]
    | refused reason => simp [LinkVerdict.isAllowed]
  rw [hrefused, isAllowed_iff, not_or, Bool.not_eq_true, not_exists]

theorem verdict_is_least_conversion (r : LinkRules) (t : ComponentTree) (parent child : Block) (socket : String) :
    (r.canCoerce t parent child socket = .allowed none ↔ r.canLink t parent child socket = true) ∧
    (∀ via, r.canCoerce t parent child socket = .allowed (some via) ↔ r.canLink t parent child socket = false ∧
      IsLeast {p : String ×ₗ String | r.Converts t parent child socket (ofLex p)} (toLex via)) ∧
    ((∃ reason, r.canCoerce t parent child socket = .refused reason) ↔
      r.canLink t parent child socket = false ∧ ∀ p, ¬ r.Converts t parent child socket p) ∧
    (∀ reason, r.canCoerce t parent child socket = .refused reason →
      (reason = "\"" ++ child.label ++ "\" is not a number" ↔
        ∃ p, r.Registered t parent child socket p ∧ r.Misread child p) ∧
      ((∀ p, ¬ r.Registered t parent child socket p) →
        ∃ accepts, r.socketTypes t parent socket = some accepts ∧ reason = refusal accepts)) ∧
    ∀ more, (r.canCoerce t parent child socket).isAllowed = true →
      ((r.withCoercions (r.coercions.registerAll more)).canCoerce t parent child socket).isAllowed = true := by
  have hmore : ∀ more, (r.canCoerce t parent child socket).isAllowed = true →
      ((r.withCoercions (r.coercions.registerAll more)).canCoerce t parent child socket).isAllowed = true := by
    intro more h
    refine isAllowed_iff.mpr ((isAllowed_iff.mp h).imp id fun ⟨p, hr, hm⟩ => ⟨p, ?_, fun hm' => hm ?_⟩)
    · exact hr.of_subset (CoercionTable.pairs_subset_registerAll more)
    · exact ⟨hm'.literal, hm'.target, hm'.notNumber⟩
  obtain ⟨hl, he⟩ | ⟨hl, ⟨p, hp, he⟩ | ⟨hnone, hr⟩⟩ := r.canCoerce_cases t parent child socket
  · refine ⟨iff_of_true he hl, fun via => ?_, exists_refused_iff, by simp [he], hmore⟩
    exact iff_of_false (by simp [he]) (by simp [hl])
  · refine ⟨iff_of_false (by simp [he]) (by simp [hl]), fun via => ?_, exists_refused_iff, by simp [he], hmore⟩
    rw [he, LinkVerdict.allowed.injEq, Option.some.injEq]
    exact ⟨fun e => ⟨hl, e ▸ hp⟩, fun ⟨_, hvia⟩ => toLex.injective (hp.unique hvia)⟩
  · have hnot (via) : ¬ IsLeast {p : String ×ₗ String | r.Converts t parent child socket (ofLex p)} (toLex via) :=
      fun h => hnone _ h.1
    obtain ⟨⟨p, hr⟩, he⟩ | ⟨hr, accepts, ha, he⟩ := hr
    · refine ⟨by simp [hl, he], by simp [he, hnot], exists_refused_iff, fun reason h => ?_, hmore⟩
      obtain rfl := LinkVerdict.refused.inj (he.symm.trans h)
      exact ⟨iff_of_true rfl ⟨p, hr, not_not.mp fun hm => hnone p ⟨hr, hm⟩⟩, fun h => (h p hr).elim⟩
    · refine ⟨by simp [hl, he], by simp [he, hnot], exists_refused_iff, fun reason h => ?_, hmore⟩
      obtain rfl := LinkVerdict.refused.inj (he.symm.trans h)
      exact ⟨iff_of_false (refusal_ne_notNumber accepts child.label) fun ⟨p, hp, _⟩ => hr p hp,
        fun _ => ⟨accepts, ha, rfl⟩⟩

end LinkRules

end BlockStudio
