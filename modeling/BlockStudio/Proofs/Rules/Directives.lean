import BlockStudio.Link.Rules
import BlockStudio.Proofs.Text.Numeral
import BlockStudio.Proofs.Text.Pairs
import Mathlib.Data.List.Forall2

namespace BlockStudio

section Steps

variable {α β ε : Type} {f : α → Except ε β} {l : List α} {bs : List β} {e : ε}

lemma exists_of_forall₂ {R : α → β → Prop} {a : α} (h : List.Forall₂ R l bs) (ha : a ∈ l) : ∃ b ∈ bs, R a b := by
  induction h with
  | nil => cases ha
  | @cons c b _ bs hcb _ ih =>
    obtain rfl | ha := List.mem_cons.mp ha
    · exact ⟨b, List.mem_cons_self, hcb⟩
    · obtain ⟨b', hb', hab⟩ := ih ha
      exact ⟨b', List.mem_cons_of_mem b hb', hab⟩

lemma exists_of_mapM_error (h : l.mapM f = .error e) : ∃ a ∈ l, f a = .error e := by
  induction l with
  | nil => cases h
  | cons a l ih =>
    rw [List.mapM_cons] at h
    cases hf : f a with
    | error e' =>
      rw [hf] at h
      exact ⟨a, List.mem_cons_self, hf.trans (congrArg _ (Except.error.inj h))⟩
    | ok b =>
      cases hl : l.mapM f with
      | error e' =>
        rw [hf, hl] at h
        obtain ⟨a', ha', hfa'⟩ := ih (hl.trans (congrArg _ (Except.error.inj h)))
        exact ⟨a', List.mem_cons_of_mem a ha', hfa'⟩
      | ok bs =>
        rw [hf, hl] at h
        cases h

lemma forall₂_of_mapM_ok (h : l.mapM f = .ok bs) : List.Forall₂ (fun a b => f a = .ok b) l bs := by
  induction l generalizing bs with
  | nil =>
    obtain rfl := Except.ok.inj h
    exact .nil
  | cons a l ih =>
    rw [List.mapM_cons] at h
    cases hf : f a with
    | error e =>
      rw [hf] at h
      cases h
    | ok b =>
      cases hl : l.mapM f with
      | error e =>
        rw [hf, hl] at h
        cases h
      | ok bs' =>
        rw [hf, hl] at h
        obtain rfl := Except.ok.inj h
        exact .cons hf (ih hl)

lemma mem_of_mapM_ok {b : β} (h : l.mapM f = .ok bs) : b ∈ bs ↔ ∃ a ∈ l, f a = .ok b := by
  have hall := forall₂_of_mapM_ok h
  clear h
  induction hall with
  | nil => simp
  | cons hab _ ih => simp [ih, hab, eq_comm]

lemma not_error_of_mapM_ok {a : α} (h : l.mapM f = .ok bs) (ha : a ∈ l) : f a ≠ .error e := by
  obtain ⟨b, -, hb⟩ := exists_of_forall₂ (forall₂_of_mapM_ok h) ha
  simp [hb]

end Steps

def Genus.Directs (g : Genus) (rule value : String) : Prop :=
  ∃ n, (Text.count? n).isSome = true ∧ (rule ++ "-" ++ n, value) ∈ g.directives.entries

def Genus.States (g : Genus) : Directive → Prop
  | .socketAllow label type =>
    ∃ text, ':' ∉ label.toList ∧ type = Text.trim text ∧ g.Directs "socket-allow" (label ++ ":" ++ text)
  | .socketExclude label type =>
    ∃ text, ':' ∉ label.toList ∧ type = Text.trim text ∧ g.Directs "socket-exclude" (label ++ ":" ++ text)
  | .plugAllow type => ∃ text, type = Text.trim text ∧ g.Directs "plug-type" text
  | .plugExclude type => ∃ text, type = Text.trim text ∧ g.Directs "type-exclude" text

def Genus.Malformed (g : Genus) (key : String) : Prop :=
  ∃ n value, (Text.count? n).isSome = true ∧ (key = "socket-allow" ++ "-" ++ n ∨ key = "socket-exclude" ++ "-" ++ n) ∧
    (key, value) ∈ g.directives.entries ∧ ':' ∉ value.toList

namespace Directive

variable {g : Genus} {make : String → String → Directive} {d : Directive} {ds : List Directive} {e : DirectiveError}
  {genus key rule value : String}

lemma notMem_of_count? {n : String} (h : (Text.count? n).isSome = true) : '-' ∉ n.toList := by
  have hdigits (cs : List Char) (hcs : (Text.natBelow? UInt64.size cs).isSome = true) : '-' ∉ cs := by
    obtain ⟨k, hk⟩ := Option.isSome_iff_exists.mp hcs
    obtain ⟨hk, -⟩ := Option.filter_eq_some_iff.mp hk
    rw [Text.natOfDigits?] at hk
    split at hk
    · rename_i hall
      intro hmem
      have hdigit := List.all_eq_true.mp (Bool.and_eq_true_iff.mp hall).2 '-' hmem
      exact absurd hdigit (by decide)
    · cases hk
  rw [Text.count?] at h
  split at h
  · rename_i cs hn
    rw [hn]
    exact fun hmem => (List.mem_cons.mp hmem).elim (by decide) (hdigits cs h)
  · exact hdigits _ h

lemma rule?_eq_some_iff : rule? key = some rule ↔ ∃ n, (Text.count? n).isSome = true ∧ key = rule ++ "-" ++ n := by
  simp only [rule?, Option.bind_eq_bind, Option.bind_eq_some_iff, Prod.exists]
  constructor
  · rintro ⟨rule, n, hcut, k, hk, hrule⟩
    obtain rfl := Option.some.inj hrule
    exact ⟨n, Option.isSome_of_eq_some hk, ((Text.cutLast_eq_some_iff rfl).mp hcut).2⟩
  · rintro ⟨n, hn, rfl⟩
    obtain ⟨k, hk⟩ := Option.isSome_iff_exists.mp hn
    exact ⟨rule, n, (Text.cutLast_eq_some_iff rfl).mpr ⟨notMem_of_count? hn, rfl⟩, k, hk, rfl⟩

lemma directs_iff : g.Directs rule value ↔ ∃ key, rule? key = some rule ∧ (key, value) ∈ g.directives.entries := by
  simp only [Genus.Directs, rule?_eq_some_iff]
  exact ⟨fun ⟨n, hn, he⟩ => ⟨_, ⟨n, hn, rfl⟩, he⟩, fun ⟨_, ⟨n, hn, hk⟩, he⟩ => ⟨n, hn, hk ▸ he⟩⟩

lemma malformed_iff : g.Malformed key ↔ (rule? key = some "socket-allow" ∨ rule? key = some "socket-exclude") ∧
    ∃ value, (key, value) ∈ g.directives.entries ∧ ':' ∉ value.toList := by
  simp only [Genus.Malformed, rule?_eq_some_iff]
  constructor
  · rintro ⟨n, value, hn, hk, he⟩
    exact ⟨hk.imp (fun hk => ⟨n, hn, hk⟩) fun hk => ⟨n, hn, hk⟩, value, he⟩
  · rintro ⟨⟨n, hn, hk⟩ | ⟨n, hn, hk⟩, value, he⟩
    · exact ⟨n, value, hn, .inl hk, he⟩
    · exact ⟨n, value, hn, .inr hk, he⟩

lemma socketRule_eq_ok_iff : socketRule make genus key value = .ok (some d) ↔
    ∃ label text, ':' ∉ label.toList ∧ value = label ++ ":" ++ text ∧ d = make label (Text.trim text) := by
  rw [socketRule]
  cases hc : Text.cut ":" value with
  | none =>
    refine iff_of_false nofun ?_
    rintro ⟨label, text, -, rfl, -⟩
    exact (Text.cut_eq_none_iff (a := ':') rfl).mp hc (by simp)
  | some p =>
    obtain ⟨hl, hv⟩ := (Text.cut_eq_some_iff (a := ':') rfl).mp hc
    constructor
    · exact fun h => ⟨p.1, p.2, hl, hv, (Option.some.inj (Except.ok.inj h)).symm⟩
    · rintro ⟨label, text, hlabel, hvalue, rfl⟩
      obtain rfl := Option.some.inj (hc.symm.trans ((Text.cut_eq_some_iff (a := ':') rfl).mpr ⟨hlabel, hvalue⟩))
      rfl

lemma socketRule_eq_error_iff :
    socketRule make genus key value = .error e ↔ ':' ∉ value.toList ∧ e = { genus, key } := by
  have hcut : Text.cut ":" value = none ↔ ':' ∉ value.toList := Text.cut_eq_none_iff rfl
  rw [socketRule, ← hcut]
  cases Text.cut ":" value with
  | none => simp [eq_comm]
  | some p => simp

lemma read_cases (genus key value : String) :
    rule? key = some "socket-allow" ∧ read genus (key, value) = socketRule socketAllow genus key value ∨
    rule? key = some "socket-exclude" ∧ read genus (key, value) = socketRule socketExclude genus key value ∨
    rule? key = some "plug-type" ∧ read genus (key, value) = .ok (some (plugAllow (Text.trim value))) ∨
    rule? key = some "type-exclude" ∧ read genus (key, value) = .ok (some (plugExclude (Text.trim value))) ∨
    rule? key ∉ ["socket-allow", "socket-exclude", "plug-type", "type-exclude"].map some ∧
      read genus (key, value) = .ok none := by
  rw [read]
  split
  · exact .inl ⟨‹_›, rfl⟩
  · exact .inr (.inl ⟨‹_›, rfl⟩)
  · exact .inr (.inr (.inl ⟨‹_›, rfl⟩))
  · exact .inr (.inr (.inr (.inl ⟨‹_›, rfl⟩)))
  · exact .inr (.inr (.inr (.inr ⟨by simp_all, rfl⟩)))

lemma read_eq_error_iff : read genus (key, value) = .error e ↔
    (rule? key = some "socket-allow" ∨ rule? key = some "socket-exclude") ∧ ':' ∉ value.toList ∧ e = { genus, key } := by
  obtain ⟨hr, he⟩ | ⟨hr, he⟩ | ⟨hr, he⟩ | ⟨hr, he⟩ | ⟨hr, he⟩ := read_cases genus key value
  · simp [hr, he, socketRule_eq_error_iff]
  · simp [hr, he, socketRule_eq_error_iff]
  · simp [hr, he]
  · simp [hr, he]
  · simp_all

lemma read_eq_ok_iff : read genus (key, value) = .ok (some d) ↔
    match d with
    | .socketAllow label type => rule? key = some "socket-allow" ∧
      ∃ text, ':' ∉ label.toList ∧ value = label ++ ":" ++ text ∧ type = Text.trim text
    | .socketExclude label type => rule? key = some "socket-exclude" ∧
      ∃ text, ':' ∉ label.toList ∧ value = label ++ ":" ++ text ∧ type = Text.trim text
    | .plugAllow type => rule? key = some "plug-type" ∧ type = Text.trim value
    | .plugExclude type => rule? key = some "type-exclude" ∧ type = Text.trim value := by
  obtain ⟨hr, he⟩ | ⟨hr, he⟩ | ⟨hr, he⟩ | ⟨hr, he⟩ | ⟨hr, he⟩ := read_cases genus key value
  · rw [he, socketRule_eq_ok_iff]
    cases d <;> simp [hr]
  · rw [he, socketRule_eq_ok_iff]
    cases d <;> simp [hr]
  · cases d <;> simp [hr, he, eq_comm]
  · cases d <;> simp [hr, he, eq_comm]
  · cases d <;> simp_all

lemma mem_readAll_iff (h : readAll g = .ok ds) : d ∈ ds ↔ g.States d := by
  rw [readAll] at h
  cases hl : g.directives.entries.mapM (read g.name) with
  | error e =>
    rw [hl] at h
    cases h
  | ok found =>
    rw [hl] at h
    obtain rfl := Except.ok.inj h
    have hread : d ∈ found.filterMap id ↔
        ∃ key value, (key, value) ∈ g.directives.entries ∧ read g.name (key, value) = .ok (some d) := by
      simp only [List.mem_filterMap, id, exists_eq_right, mem_of_mapM_ok hl, Prod.exists]
    rw [hread]
    cases d with
    | socketAllow label type | socketExclude label type =>
      simp only [read_eq_ok_iff, Genus.States, directs_iff]
      constructor
      · rintro ⟨key, value, he, hr, text, hl, rfl, ht⟩
        exact ⟨text, hl, ht, key, hr, he⟩
      · rintro ⟨text, hl, ht, key, hr, he⟩
        exact ⟨key, _, he, hr, text, hl, rfl, ht⟩
    | plugAllow type | plugExclude type =>
      simp only [read_eq_ok_iff, Genus.States, directs_iff]
      constructor
      · rintro ⟨key, value, he, hr, ht⟩
        exact ⟨value, ht, key, hr, he⟩
      · rintro ⟨value, ht, key, hr, he⟩
        exact ⟨key, value, he, hr, ht⟩

lemma malformed_of_readAll (h : readAll g = .error e) : e.genus = g.name ∧ g.Malformed e.key := by
  rw [readAll] at h
  cases hl : g.directives.entries.mapM (read g.name) with
  | error e' =>
    rw [hl] at h
    obtain rfl := Except.error.inj h
    obtain ⟨⟨key, value⟩, hmem, he⟩ := exists_of_mapM_error hl
    obtain ⟨hr, hv, rfl⟩ := read_eq_error_iff.mp he
    exact ⟨rfl, malformed_iff.mpr ⟨hr, value, hmem, hv⟩⟩
  | ok found =>
    rw [hl] at h
    cases h

lemma not_malformed_of_readAll (h : readAll g = .ok ds) (key : String) : ¬ g.Malformed key := by
  intro hm
  obtain ⟨hr, value, hmem, hv⟩ := malformed_iff.mp hm
  rw [readAll] at h
  cases hl : g.directives.entries.mapM (read g.name) with
  | error e =>
    rw [hl] at h
    cases h
  | ok found => exact not_error_of_mapM_ok hl hmem (read_eq_error_iff.mpr ⟨hr, hv, rfl⟩)

end Directive

end BlockStudio
