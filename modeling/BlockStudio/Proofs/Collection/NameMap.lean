import BlockStudio.Collection.NameMap
import Mathlib.Data.List.Nodup
import Mathlib.Tactic.Lemma

namespace BlockStudio.NameMap

variable {β : Type} {m n : NameMap β} {name old new x : String} {v : β}

lemma mem_of_find? {l : List (String × β)} (h : find? name l = some v) : (name, v) ∈ l := by
  induction l with
  | nil => cases h
  | cons e l ih =>
    rw [find?] at h
    split at h
    · rename_i he
      obtain rfl := Option.some.inj h
      exact he ▸ List.mem_cons_self
    · exact List.mem_cons_of_mem e (ih h)

lemma mem_entries_of_get? (h : m.get? name = some v) : (name, v) ∈ m.entries := mem_of_find? h

lemma mem_values_of_get? (h : m.get? name = some v) : v ∈ m.values := List.mem_map_of_mem (mem_entries_of_get? h)

lemma mem_names_iff : x ∈ m.names ↔ m.contains x = true := by
  rw [contains, Option.isSome_iff_ne_none, ne_eq, get?, find?_eq_none_iff, not_not, names]

lemma mem_entries_iff : (name, v) ∈ m.entries ↔ m.get? name = some v := by
  refine ⟨fun h => ?_, mem_entries_of_get?⟩
  obtain ⟨u, hu⟩ := Option.isSome_iff_exists.mp (mem_names_iff.mp (List.mem_map_of_mem (f := Prod.fst) h))
  have he := List.inj_on_of_nodup_map m.distinct h (mem_entries_of_get? hu) rfl
  rw [hu, (Prod.mk.inj he).2]

lemma find?_renameEntry {l : List (String × β)} (h : new ∉ l.map Prod.fst) :
    find? x (renameEntry old new l) = if x = new then find? old l else if x = old then none else find? x l := by
  induction l with
  | nil => simp [renameEntry, find?]
  | cons e l ih =>
    rw [List.map_cons, List.mem_cons, not_or] at h
    have hrest : renameEntry old new (e :: l) =
        (if e.1 = old then (new, e.2) else e) :: renameEntry old new l := rfl
    rw [hrest]
    grind [find?]

lemma get?_rename (h : m.contains new = false) :
    (m.rename old new).get? x = if x = new then m.get? old else if x = old then none else m.get? x := by
  have hn : new ∉ m.entries.map Prod.fst := fun hm => Bool.false_ne_true (h.symm.trans (mem_names_iff.mp hm))
  rw [rename, dif_neg hn]
  exact find?_renameEntry hn

lemma ext_get? (hn : m.names = n.names) (hg : ∀ x, m.get? x = n.get? x) : m = n := by
  have hfind (k : NameMap β) : k.entries.map (fun e => (e.1, some e.2)) = k.names.map fun x => (x, k.get? x) := by
    rw [names, List.map_map]
    exact List.map_congr_left fun e he => by rw [Function.comp_apply, mem_entries_iff.mp he]
  refine ext_entries (List.map_injective_iff.mpr (fun a b h => ?_) ((hfind m).trans ?_))
  · exact Prod.ext (Prod.mk.inj h).1 (Option.some.inj (Prod.mk.inj h).2)
  · rw [hfind n, hn, funext hg]

lemma names_modify (m : NameMap β) (name : String) (f : β → β) : (m.modify name f).names = m.names := by
  rw [names, modify, names, List.map_map]
  exact List.map_congr_left fun e _ => by by_cases h : e.1 = name <;> simp [h]

lemma names_rename (h : m.contains new = false) :
    (m.rename old new).names = m.names.map fun x => if x = old then new else x := by
  have hn : new ∉ m.entries.map Prod.fst := fun hm => Bool.false_ne_true (h.symm.trans (mem_names_iff.mp hm))
  rw [rename, dif_neg hn, names, names]
  simp only [renameEntry, List.map_map]
  exact List.map_congr_left fun e _ => by by_cases he : e.1 = old <;> simp [he]

end BlockStudio.NameMap
