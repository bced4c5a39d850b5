import BlockStudio.Json.Record
import BlockStudio.Proofs.Json.ReadPrint

namespace BlockStudio.Json

variable {α : Type} {f : Json → Option α} {g : α → Json} {a : α} {n : ℕ}

lemma fieldOf?_of_mem {members : List (String × Json)} (h : (members.map Prod.fst).Nodup) {m : String × Json}
    (hm : m ∈ members) : fieldOf? members m.1 = some (some m.2) := by
  have hf : members.filter (fun x => x.1 = m.1) = [m] := by
    induction members with
    | nil => cases hm
    | cons x members ih =>
      rw [List.map_cons, List.nodup_cons] at h
      rcases List.mem_cons.mp hm with rfl | hm
      · have hrest : members.filter (fun x => x.1 = m.1) = [] := by
          apply List.filter_eq_nil_iff.mpr
          intro x hx
          simp only [decide_eq_true_eq]
          exact fun he => h.1 (he ▸ List.mem_map_of_mem hx)
        rw [List.filter_cons_of_pos (by simp), hrest]
      · have hne : ¬ x.1 = m.1 := fun he => h.1 (he ▸ List.mem_map_of_mem hm)
        rw [List.filter_cons_of_neg (by simpa using hne), ih h.2 hm]
  rw [fieldOf?, hf]

lemma mapM_eq_some {β γ : Type} {f : β → Option γ} {h : γ → β} {l : List γ} (hf : ∀ x ∈ l, f (h x) = some x) :
    (l.map h).mapM f = some l := by
  induction l with
  | nil => rfl
  | cons x l ih =>
    rw [List.map_cons, List.mapM_cons, hf x List.mem_cons_self, ih fun y hy => hf y (List.mem_cons_of_mem x hy)]
    rfl

lemma fields?_object {names : List String} {members : List (String × Json)} (hn : members.map Prod.fst = names)
    (h : names.Nodup) : fields? names (object members) = some (members.map fun m => some m.2) := by
  subst hn
  rw [fields?]
  have key : ∀ l : List (String × Json), l ⊆ members →
      (l.map Prod.fst).mapM (fieldOf? members) = some (l.map fun m => some m.2) := by
    intro l hl
    induction l with
    | nil => rfl
    | cons m l ih =>
      obtain ⟨hm, hl⟩ := List.cons_subset.mp hl
      rw [List.map_cons, List.mapM_cons, fieldOf?_of_mem h hm, ih hl]
      rfl
  exact key members fun _ hm => hm

lemma bind_of_eq {β : Type} {o : Option α} {k : α → Option β} {b : β} (ho : o = some a) (hk : k a = some b) :
    o.bind k = some b := by
  rw [ho, Option.bind_some, hk]

lemma nullable_option (hg : g a ≠ null) (ha : f (g a) = some a) : nullable f (some (option g (some a))) = some (some a) := by
  rw [nullable, withDefault, option, optionOf?]
  · rw [ha]
    rfl
  · exact hg

lemma nullable_all {o : Option α} (hg : ∀ a ∈ o, g a ≠ null) (ha : ∀ a ∈ o, f (g a) = some a) :
    nullable f (some (option g o)) = some o := by
  cases o with
  | none => rfl
  | some a => exact nullable_option (hg a rfl) (ha a rfl)

lemma nullable_text (o : Option String) : nullable text? (some (textOption o)) = some o :=
  nullable_all (fun _ _ h => nomatch h) fun _ _ => rfl

lemma count64?_count (hn : n < UInt64.size) : count64? (count n) = some n := if_pos hn

lemma nullable_count {o : Option ℕ} (h : ∀ n ∈ o, n < UInt64.size) :
    nullable count64? (some (option count o)) = some o :=
  nullable_all (fun _ _ h => nomatch h) fun n hn => count64?_count (h n hn)

lemma listOf?_list {l : List α} (h : ∀ a ∈ l, f (g a) = some a) : listOf? f (list (l.map g)) = some l :=
  mapM_eq_some h

lemma nameMapOf?_nameMap {m : NameMap α} (h : ∀ e ∈ m.entries, f (g e.2) = some e.2) :
    nameMapOf? f (nameMap g m) = some m := by
  have hentries : (m.entries.map fun e => (e.1, g e.2)).mapM (fun x => (f x.2).map fun a => (x.1, a)) =
      some m.entries := mapM_eq_some fun e he => by simp [h e he]
  rw [nameMapOf?, nameMap, object?]
  simp only [Option.bind_eq_bind, Option.bind_some, hentries]
  exact congrArg some (NameMap.ofList_entries m)

lemma countSetOf?_countSet {s : SortedSet ℕ} (h : ∀ n ∈ s, n < UInt64.size) : countSetOf? (countSet s) = some s := by
  rw [countSetOf?, countSet, listOf?_list fun n hn => count64?_count (h n hn), Option.map_some,
    SortedSet.ofList_toList]

lemma readable_option {o : Option α} (h : ∀ a ∈ o, (g a).Readable) : (option g o).Readable := by
  cases o with
  | none => exact .null
  | some a => exact h a rfl

lemma readable_textOption (o : Option String) : (textOption o).Readable := readable_option fun s _ => .text s

lemma readable_list {l : List α} (h : ∀ a ∈ l, (g a).Readable) : (list (l.map g)).Readable := by
  refine .list fun j hj => ?_
  obtain ⟨a, ha, rfl⟩ := List.mem_map.mp hj
  exact h a ha

lemma readable_nameMap {m : NameMap α} (h : ∀ e ∈ m.entries, (g e.2).Readable) : (nameMap g m).Readable := by
  refine .object fun x hx => ?_
  obtain ⟨e, he, rfl⟩ := List.mem_map.mp hx
  exact h e he

end BlockStudio.Json
