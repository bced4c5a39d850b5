import BlockStudio.Proofs.Links.Cascade
import BlockStudio.Proofs.Links.Resolved
import BlockStudio.Proofs.Workspace.Reached

/-! Link edits as surgery: they put stacks together and take them apart, and disconnecting undoes what was put together. -/

namespace BlockStudio

namespace Run

variable {α : Type} {f g : α → Option α} {s : Option α} {x y z : α} {k l m : List α}

lemma eq_some (h : Run f s (x :: l)) : s = some x := by
  cases h
  rfl

lemma eq_none (h : Run f s []) : s = none := by
  cases h
  rfl

lemma tail (h : Run f s (x :: l)) : Run f (f x) l := by
  cases h with
  | step h => exact h

lemma nodup (h : Run f s l) : l.Nodup := by
  cases h with
  | stop => exact List.nodup_nil
  | @step x l h =>
    obtain ⟨m, hm, hc⟩ := (Run.step h).chain x rfl
    exact hm ▸ hc.nodup

lemma notMem_append (h : Run f s (l ++ x :: m)) : x ∉ l ++ m :=
  (List.nodup_cons.mp (List.nodup_middle.mp h.nodup)).1

lemma next_mem (h : Run f s l) (hy : y ∈ l) (hz : f y = some z) : z ∈ l := by
  cases h with
  | stop => cases hy
  | @step x l h =>
    obtain ⟨m, hm, hc⟩ := (Run.step h).chain x rfl
    rw [hm] at hy ⊢
    exact List.mem_cons_of_mem x (hc.next_mem hy hz)

lemma drop (h : Run f s (l ++ m)) : ∃ s, Run f s m := by
  induction l generalizing s with
  | nil => exact ⟨s, h⟩
  | cons y l ih => exact ih h.tail

lemma divert (h : Run f s (l ++ x :: m)) (he : ∀ y ∈ l, g y = f y) (hx : Run g (some x) (x :: k)) :
    Run g s (l ++ x :: k) := by
  induction l generalizing s with
  | nil => exact h.eq_some ▸ hx
  | cons y l ih =>
    have hy : Run g (g y) (l ++ x :: k) := by
      rw [he y List.mem_cons_self]
      exact ih h.tail fun z hz => he z (List.mem_cons_of_mem y hz)
    exact h.eq_some ▸ .step hy

end Run

namespace Links

variable {L : Links} {a c n p t x y z : BlockId} {i : ℕ} {l m A B : List BlockId} {s : Option BlockId}

section Sound

variable (h : L.Sound)

include h

lemma cut_plug (hi : (L.slots p)[i]? = some none) (hp : L.parent c = none) (hb : L.before c = none) :
    (L.plug p i c).cut c = L := by
  have hnone (x : BlockId) : (L.slots x).map (fun s => if s = some c then none else s) = L.slots x :=
    h.map_slots (by simp [hp]) none
  refine ext_slots (fun x => ?_) (fun x => ?_) (fun x => ?_) fun x => ?_
  · by_cases hx : x = p
    · subst hx
      obtain ⟨hlt, he⟩ := List.getElem?_eq_some_iff.mp hi
      simp only [cut, plug, Function.update_self, List.map_set, hnone, if_true]
      rw [← he, List.set_getElem_self]
    · simp only [cut, plug, Function.update_of_ne hx, hnone]
  · by_cases hx : x = c
    · simp [cut, plug, hx, hp]
    · simp [cut, plug, hx]
  · by_cases hx : x = c
    · simp [cut, plug, hx, hb]
    · simp [cut, plug, hx]
  · have ha : L.after x ≠ some c := by simp [h.after_iff, hb]
    simp [cut, plug, ha]

lemma cut_graft (ha : L.after a = none) (hp : L.parent n = none) (hb : L.before n = none) (ht : L.after t = none) :
    (L.graft a n t).cut n = L := by
  refine ext_slots (fun x => ?_) (fun x => ?_) (fun x => ?_) fun x => ?_
  · exact h.map_slots (by simp [hp]) none
  · by_cases hx : x = n
    · simp [cut, graft, hx, hp]
    · simp [cut, graft, hx]
  · by_cases hx : x = n
    · simp [cut, hx, hb]
    · simp [cut, graft, hx, ha]
  · have hxn : L.after x ≠ some n := by simp [h.after_iff, hb]
    by_cases hxa : x = a
    · simp [cut, graft, hxa, ha]
    · by_cases hxt : x = t
      · simp [cut, graft, hxt, ha, ht]
      · simp [cut, graft, hxa, hxt, hxn]

omit h in
lemma run_graft (hn : Run L.after (some n) (m ++ [t])) (hr : Run L.after s (A ++ a :: B))
    (hd : ∀ y ∈ A ++ a :: B, y ∉ m ++ [t]) : Run (L.graft a n t).after s (A ++ a :: (m ++ t :: B)) := by
  have honce := hr.notMem_append
  have hta : t ≠ a := by
    rintro rfl
    exact hd t (by simp) (by simp)
  have hkept (y : BlockId) (hya : y ≠ a) (hyt : y ≠ t) : (L.graft a n t).after y = L.after y := by
    simp only [graft, if_neg hya, if_neg hyt]
  have hne (y : BlockId) (hy : y ∈ A ++ a :: B) : y ≠ t := by
    rintro rfl
    exact hd y hy (by simp)
  obtain ⟨s', hsuffix⟩ := hr.drop
  have hB : Run (L.graft a n t).after (L.after a) B := by
    refine hsuffix.tail.congr fun y hy => hkept y ?_ (hne y (by simp [hy]))
    exact ne_of_mem_of_not_mem (List.mem_append_right A hy) honce
  have ht : Run (L.graft a n t).after (some t) (t :: B) := by
    refine .step ?_
    simpa only [graft, if_neg hta, if_true] using hB
  have hm : Run (L.graft a n t).after (some n) (m ++ t :: B) := by
    refine hn.divert (fun y hy => hkept y ?_ ?_) ht
    · rintro rfl
      exact hd y (by simp) (by simp [hy])
    · exact ne_of_mem_of_not_mem (List.mem_append_left [] hy) hn.notMem_append
  have ha : Run (L.graft a n t).after (some a) (a :: (m ++ t :: B)) := by
    refine .step ?_
    simpa only [graft, if_true] using hm
  refine hr.divert (fun y hy => hkept y ?_ (hne y (by simp [hy]))) ha
  exact ne_of_mem_of_not_mem (List.mem_append_left B hy) honce

omit h in
lemma run_graft_apart (hr : Run L.after s l) (ha : a ∉ l) (ht : t ∉ l) : Run (L.graft a n t).after s l := by
  refine hr.congr fun y hy => ?_
  simp only [graft]
  rw [if_neg (ne_of_mem_of_not_mem hy ha), if_neg (ne_of_mem_of_not_mem hy ht)]

lemma run_cut_above (hr : Run L.after s (A ++ c :: B)) (hA : A ≠ []) : Run (L.cut c).after s A := by
  obtain ⟨l, p, rfl⟩ := (List.eq_nil_or_concat' A).resolve_left hA
  have hsplit : (l ++ [p]) ++ c :: B = l ++ p :: (c :: B) := by simp
  rw [hsplit] at hr
  obtain ⟨s', hsuffix⟩ := hr.drop
  have hp : L.after p = some c := hsuffix.tail.eq_some
  have hend : (L.cut c).after p = none := if_pos hp
  refine hr.divert (fun y hy => if_neg fun hy' => ?_) (.step (hend ▸ .stop))
  exact ne_of_mem_of_not_mem (List.mem_append_left _ hy) hr.notMem_append (h.after_inj hy' hp)

omit h in
lemma run_cut_below (hr : Run L.after (some c) (c :: B)) : Run (L.cut c).after (some c) (c :: B) := by
  refine hr.congr fun y hy => if_neg fun hy' => ?_
  obtain ⟨m, hm, hc⟩ := hr.chain c rfl
  obtain rfl := (List.cons.inj hm).2
  exact hc.notMem (hc.next_mem hy hy')

omit h in
lemma run_cut_apart (hr : Run L.after s l) (hc : c ∉ l) : Run (L.cut c).after s l :=
  hr.congr fun _ hy => if_neg fun hy' => hc (hr.next_mem hy hy')

lemma top_unique (hx : L.before x = none) (hy : L.before y = none) (hl : Chain L.after x l)
    (hm : Chain L.after y m) (hzl : z ∈ x :: l) (hzm : z ∈ y :: m) : x = y := by
  induction hd : h.depth z using Nat.strongRecOn generalizing z with
  | _ n ih =>
    cases hb : L.before z with
    | none =>
      -- nothing leads to a block below none, which is thus the first of both
      have hfirst {v : BlockId} {k : List BlockId} (hk : Chain L.after v k) (hz : z ∈ v :: k) : z = v := by
        refine (List.mem_cons.mp hz).resolve_right fun hz => ?_
        obtain ⟨q, -, hq⟩ := hk.exists_prev hz
        exact Option.some_ne_none q (((h.after_iff q z).mp hq).symm.trans hb)
      exact (hfirst hl hzl).symm.trans (hfirst hm hzm)
    | some p =>
      have hprev {v : BlockId} {k : List BlockId} (hv : L.before v = none) (hk : Chain L.after v k)
          (hz : z ∈ v :: k) : p ∈ v :: k := by
        rcases List.mem_cons.mp hz with rfl | hz
        · exact absurd (hb.symm.trans hv) (Option.some_ne_none p)
        · obtain ⟨q, hq, ha⟩ := hk.exists_prev hz
          exact Option.some.inj (((h.after_iff q z).mp ha).symm.trans hb) ▸ hq
      have hdepth := h.depth_up (up_of_before hb)
      exact ih (h.depth p) (by omega) (hprev hx hl hzl) (hprev hy hm hzm) rfl

lemma before_graft : (L.graft a n t).before x = none ↔ L.before x = none ∧ x ≠ n := by
  have hax := h.after_iff a x
  simp only [graft]
  grind

end Sound

lemma before_cut : (L.cut c).before x = none ↔ L.before x = none ∨ x = c := by
  by_cases hx : x = c
  · simp [cut, hx]
  · simp [cut, hx]

end Links

lemma Socket.map_untyped (sockets : List Socket) : sockets.map Socket.untyped =
    List.zipWith (fun s held => { s with block := held }) (sockets.map Socket.bare) (sockets.map (·.block)) := by
  rw [List.zipWith_map, List.zipWith_self]
  rfl

namespace BlockGraph

variable {g g' : BlockGraph} {b : Block} {c first next p prev x y z : BlockId} {label : String} {A B : List BlockId}

def Tops (g : BlockGraph) (x : BlockId) : Prop := ∃ b, g.get? x = some b ∧ b.before = none

lemma tops_iff : g.Tops x ↔ g.contains x = true ∧ g.links.before x = none := by
  rw [contains_iff]
  constructor
  · rintro ⟨b, hb, hu⟩
    exact ⟨⟨b, hb⟩, (links_eq_some hb).2.2.1.trans hu⟩
  · rintro ⟨⟨b, hb⟩, hu⟩
    exact ⟨b, hb, (links_eq_some hb).2.2.1.symm.trans hu⟩

structure Spliced (prev next : BlockId) (g g' : BlockGraph) : Prop where
  restacked : g.Restacked g'
  tops_iff : ∀ x, g'.Tops x ↔ g.Tops x ∧ x ≠ next
  joined : ∀ first A B, g.Tops first → g.stack first = A ++ prev :: B →
    g'.stack first = A ++ prev :: (g.stack next ++ B)
  others : ∀ first, g.Tops first → first ≠ next → prev ∉ g.stack first → g'.stack first = g.stack first

structure Severed (c : BlockId) (g g' : BlockGraph) : Prop where
  restacked : g.Restacked g'
  tops_iff : ∀ x, g'.Tops x ↔ g.Tops x ∨ x = c
  split : ∀ first A B, g.Tops first → g.stack first = A ++ c :: B → g'.stack first = A ∧ g'.stack c = c :: B
  others : ∀ first, g.Tops first → c ∉ g.stack first → g'.stack first = g.stack first

section Sound

variable (h : g.links.Sound)

include h

lemma run_stack (x : BlockId) : Run g.links.after (some x) (g.stack x) := by
  obtain ⟨l, hl⟩ := after_ends h x
  exact stack_eq h hl ▸ .of_chain hl

lemma Tops.unique (hx : g.Tops x) (hy : g.Tops y) (hzx : z ∈ g.stack x) (hzy : z ∈ g.stack y) : x = y := by
  obtain ⟨l, hl⟩ := after_ends h x
  obtain ⟨m, hm⟩ := after_ends h y
  rw [stack_eq h hl] at hzx
  rw [stack_eq h hm] at hzy
  exact Links.top_unique h (tops_iff.mp hx).2 (tops_iff.mp hy).2 hl hm hzx hzy

lemma run_below (hs : g.stack first = A ++ x :: B) : Run g.links.after (g.links.after x) B := by
  have hr : Run g.links.after (some first) (A ++ x :: B) := hs ▸ run_stack h first
  obtain ⟨s, hsuffix⟩ := hr.drop
  exact hsuffix.tail

lemma exists_stacked (hx : g.contains x = true) : ∃ first A B, g.Tops first ∧ g.stack first = A ++ x :: B := by
  obtain ⟨l, hl⟩ := h.up_ends x
  induction hl with
  | @last x hup =>
    obtain ⟨m, hm⟩ := after_ends h x
    exact ⟨x, [], m, tops_iff.mpr ⟨hx, (Links.up_eq_none.mp hup).1⟩, stack_eq h hm⟩
  | @link x y l hup hl ih =>
    rcases Links.up_eq_some.mp hup with hb | ⟨hb, -⟩
    · obtain ⟨first, A, B, hfirst, hstack⟩ := ih (contains_up h hup)
      have hB : Run g.links.after (some x) B := (h.after_iff y x).mpr hb ▸ run_below h hstack
      obtain ⟨m, rfl, -⟩ := hB.chain x rfl
      exact ⟨first, A ++ [y], m, hfirst, by simpa using hstack⟩
    · obtain ⟨m, hm⟩ := after_ends h x
      exact ⟨x, [], m, tops_iff.mpr ⟨hx, hb⟩, stack_eq h hm⟩

lemma Settled.eq_of_links (hs : g.Settled []) (hs' : g'.Settled []) (hr : Relinked g g') (hl : g'.links = g.links) :
    g' = g := by
  refine ext_get? hr.1 (hs.get?_eq h hs' fun k => ?_)
  cases hb : g'.get? k with
  | none =>
    have hk := hr.2 k
    rw [hb, Option.map_none, eq_comm, Option.map_eq_none_iff] at hk
    rw [hk]
  | some b' =>
    obtain ⟨b, hk, hbare⟩ := hr.bare hb
    obtain ⟨hslots', hparent', hbefore', hafter'⟩ := links_eq_some hb
    obtain ⟨hslots, hparent, hbefore, hafter⟩ := links_eq_some hk
    rw [hl] at hslots' hparent' hbefore' hafter'
    have huntyped (b : Block) : b.untyped =
        { b.bare with
          sockets := List.zipWith (fun s held => { s with block := held }) b.bare.sockets (b.sockets.map (·.block))
          parent := b.parent
          before := b.before
          after := b.after } := by
      rw [Block.untyped, Socket.map_untyped]
      rfl
    rw [hk, Option.map_some, Option.map_some, huntyped, huntyped, hbare, ← hslots', ← hparent', ← hbefore',
      ← hafter', hslots, hparent, hbefore, hafter]

end Sound

section WellLinked

variable (h : g.WellLinked)

include h

lemma disconnect_restores (hs : g.Settled []) (h' : g'.WellLinked) (hs' : g'.Settled []) (hr : Relinked g g')
    (hc : g.contains c = true) (hl : g'.links.cut c = g.links) : disconnect c g' = (.ok (), g) := by
  obtain ⟨g'', hrun, hr', hl'⟩ := disconnect_present h' (hr.contains_eq.trans hc)
  have hs'' : g''.Settled [] := by
    have hsettled := hs'.disconnect h' c
    rwa [hrun] at hsettled
  rw [hrun, hs.eq_of_links h.sound hs'' (hr.trans hr') (hl'.trans hl)]

lemma disconnect_connect (hs : g.Settled []) (hr : connect p label c g = (.ok (), g')) :
    disconnect c g' = (.ok (), g) := by
  have h' := h.connect p label c
  have hs' := hs.connect h p label c
  obtain ⟨e, he⟩ | ⟨hf, -, ho, hrun⟩ := connect_cases g p label c
  · cases he.symm.trans hr
  obtain ⟨hc, hpar, hbef⟩ := free_of_requireFree hf
  obtain ⟨b, s, hb, hsock, hn⟩ := requireOpenSocket_eq_ok.mp ho
  obtain ⟨i, hi, hl⟩ := links_plugged hb hsock hn hc
  rw [hr] at h' hs' hrun
  obtain rfl : g' = _ := congrArg Prod.snd hrun
  refine disconnect_restores h hs h' hs' (relinked_plugged.trans relinked_adapt) hc ?_
  rw [sameJoints_adapt.links_eq, hl, Links.cut_plug h.sound hi hpar hbef]

lemma spliced_setNext (hr : setNext prev next g = (.ok (), g')) : g.contains prev = true ∧ Spliced prev next g g' := by
  have hsound' := (h.setNext prev next).sound
  obtain ⟨e, he⟩ | ⟨hf, hprev, hcy, hrun⟩ := setNext_cases h prev next
  · cases he.symm.trans hr
  obtain ⟨hc, hpar, hbef⟩ := free_of_requireFree hf
  have hl := links_setNext h.sound hf hprev hcy
  rw [hr] at hsound' hrun
  obtain rfl : g' = _ := congrArg Prod.snd hrun
  have hnext : g.Tops next := tops_iff.mpr ⟨hc, hbef⟩
  obtain ⟨m, hm⟩ := after_ends h.sound next
  have hout : prev ∉ g.stack next := by
    rw [stack_eq h.sound hm]
    exact notMem_of_not_encloses h.sound hcy hm
  -- the last block of the stack that comes in
  obtain ⟨N, hN⟩ : ∃ N, g.stack next = N ++ [g.lowest next] := by
    rw [lowest_eq h.sound hm, stack_eq h.sound hm]
    exact ⟨_, (List.dropLast_append_getLast (List.cons_ne_nil next m)).symm⟩
  refine ⟨hprev, restacked_grafted, fun x => ?tops, fun first A B hfirst hstack => ?joined,
    fun first hfirst hne hnot => ?others⟩
  case tops =>
    rw [tops_iff, tops_iff, restacked_grafted.relinked.contains_eq, hl, Links.before_graft h.sound, and_assoc]
  case joined =>
    have hapart : ∀ y ∈ A ++ prev :: B, y ∉ N ++ [g.lowest next] := by
      intro y hy hyn
      rw [← hstack] at hy
      rw [← hN] at hyn
      obtain rfl := hfirst.unique h.sound hnext hy hyn
      exact hout (hstack ▸ List.mem_append_right A List.mem_cons_self)
    have hrun := Links.run_graft (hN ▸ run_stack h.sound next) (hstack ▸ run_stack h.sound first) hapart
    rw [← hl] at hrun
    have hlist : N ++ g.lowest next :: B = g.stack next ++ B := by rw [hN, List.append_assoc, List.singleton_append]
    exact hlist ▸ stackAt_eq hsound' hrun
  case others =>
    have hlow : g.lowest next ∉ g.stack first := fun hin =>
      hne (hfirst.unique h.sound hnext hin (hN ▸ List.mem_append_right N (List.mem_singleton_self _)))
    have hrun := Links.run_graft_apart (n := next) (run_stack h.sound first) hnot hlow
    exact stackAt_eq hsound' (hl ▸ hrun)

lemma disconnect_setNext (hs : g.Settled []) (hr : setNext prev next g = (.ok (), g'))
    (hlast : g.links.after prev = none) : disconnect next g' = (.ok (), g) := by
  have h' := h.setNext prev next
  have hs' := hs.setNext h prev next
  obtain ⟨e, he⟩ | ⟨hf, hprev, hcy, hrun⟩ := setNext_cases h prev next
  · cases he.symm.trans hr
  obtain ⟨hc, hpar, hbef⟩ := free_of_requireFree hf
  have hl := links_setNext h.sound hf hprev hcy
  obtain ⟨m, hm⟩ := after_ends h.sound next
  rw [hr] at h' hs' hrun
  obtain rfl : g' = _ := congrArg Prod.snd hrun
  refine disconnect_restores h hs h' hs' restacked_grafted.relinked hc ?_
  rw [hl, Links.cut_graft h.sound hlast hpar hbef (lowest_eq h.sound hm ▸ hm.getLast_eq_none)]

lemma severed_disconnect (hb : g.get? c = some b) (hu : b.before = some x) :
    ∃ g', disconnect c g = (.ok (), g') ∧ Severed c g g' := by
  have hbef : g.links.before c = some x := (links_eq_some hb).2.2.1.trans hu
  have hpar : b.parent = none := (links_eq_some hb).2.1.symm.trans (h.sound.parent_of_before hbef)
  obtain ⟨g', hrun, hrel, hl⟩ := disconnect_of_before h hb hpar hu
  have hsound' : g'.links.Sound := hl ▸ Links.cut_sound h.sound
  refine ⟨g', hrun, hrel, fun y => ?tops, fun first A B hfirst hstack => ?split, fun first hfirst hnot => ?others⟩
  case tops =>
    rw [tops_iff, tops_iff, hrel.relinked.contains_eq, hl, Links.before_cut, and_or_left]
    refine or_congr_right (and_iff_right_of_imp ?_)
    rintro rfl
    exact contains_of_get? hb
  case split =>
    have hA : A ≠ [] := by
      rintro rfl
      obtain ⟨m, hm⟩ := after_ends h.sound first
      obtain rfl : first = c := (List.cons.inj ((stack_eq h.sound hm).symm.trans hstack)).1
      exact Option.some_ne_none x (hbef.symm.trans (tops_iff.mp hfirst).2)
    have hr : Run g.links.after (some first) (A ++ c :: B) := hstack ▸ run_stack h.sound first
    obtain ⟨s, hsuffix⟩ := hr.drop
    obtain rfl := hsuffix.eq_some
    have habove := Links.run_cut_above h.sound hr hA
    have hbelow := Links.run_cut_below hsuffix
    rw [← hl] at habove hbelow
    exact ⟨stackAt_eq hsound' habove, stackAt_eq hsound' hbelow⟩
  case others =>
    exact stackAt_eq hsound' (hl ▸ Links.run_cut_apart (run_stack h.sound first) hnot)

end WellLinked

theorem link_edits_are_surgery {w : Workspace} (hw : w.Reached) :
    (∀ p label c g, connect p label c w.blocks = (.ok (), g) → disconnect c g = (.ok (), w.blocks)) ∧
    (∀ prev next g, setNext prev next w.blocks = (.ok (), g) → Spliced prev next w.blocks g ∧
      ∃ first A B, w.blocks.Tops first ∧ w.blocks.stack first = A ++ prev :: B ∧
        (B = [] → disconnect next g = (.ok (), w.blocks))) ∧
    ∀ c b above, w.blocks.get? c = some b → b.before = some above →
      ∃ g, disconnect c w.blocks = (.ok (), g) ∧ Severed c w.blocks g ∧
        ∃ first A B, w.blocks.Tops first ∧ w.blocks.stack first = A ++ above :: c :: B := by
  have h := hw.linked
  obtain ⟨edits, he⟩ := hw.graph_edited
  have hs : w.blocks.Settled [] := he ▸ settled_edited empty_wellLinked settled_empty edits
  refine ⟨fun p label c g => disconnect_connect h hs, fun prev next g hr => ?_, fun c b above hb hu => ?_⟩
  · obtain ⟨hprev, hspliced⟩ := spliced_setNext h hr
    obtain ⟨first, A, B, hfirst, hstack⟩ := exists_stacked h.sound hprev
    refine ⟨hspliced, first, A, B, hfirst, hstack, ?_⟩
    rintro rfl
    exact disconnect_setNext h hs hr (run_below h.sound hstack).eq_none
  · obtain ⟨g, hr, hsevered⟩ := severed_disconnect h hb hu
    have habove : w.blocks.links.after above = some c :=
      (h.sound.after_iff above c).mpr ((links_eq_some hb).2.2.1.trans hu)
    obtain ⟨first, A, B, hfirst, hstack⟩ := exists_stacked h.sound (contains_of_after habove)
    obtain ⟨m, rfl, -⟩ := (run_below h.sound hstack).chain c habove
    exact ⟨g, hr, hsevered, first, A, m, hfirst, hstack⟩

/-- Blocks 2, 3 and 4 are stacked in the socket of block 1, and block 6 stands below block 5. -/
def twoStacks : Workspace :=
  (Workspace.new "Screen1").edited
    [.graph (.addBlock bracket "" []), .graph (.addBlock bracket "" []), .graph (.addBlock bracket "" []),
      .graph (.addBlock bracket "" []), .graph (.addBlock bracket "" []), .graph (.addBlock bracket "" []),
      .graph (.connect 1 "do" 2), .graph (.setNext 2 3), .graph (.setNext 3 4), .graph (.setNext 5 6)]

theorem link_edits_are_surgery_twoStacks :
    twoStacks.Reached ∧
      (∃ g, connect 6 "do" 1 twoStacks.blocks = (.ok (), g) ∧ disconnect 1 g = (.ok (), twoStacks.blocks)) ∧
      (∃ g, setNext 2 5 twoStacks.blocks = (.ok (), g) ∧ g.stack 2 = [2, 5, 6, 3, 4] ∧ ¬ g.Tops 5) ∧
      ∃ g, disconnect 3 twoStacks.blocks = (.ok (), g) ∧ g.stack 2 = [2] ∧ g.stack 3 = [3, 4] := by
  have hw : twoStacks.Reached := ⟨_, _, rfl⟩
  obtain ⟨hconnect, hset, hdisconnect⟩ := link_edits_are_surgery hw
  have hplug : connect 6 "do" 1 twoStacks.blocks = (.ok (), (connect 6 "do" 1 twoStacks.blocks).2) := by rfl
  have hsplice : setNext 2 5 twoStacks.blocks = (.ok (), (setNext 2 5 twoStacks.blocks).2) := by rfl
  have htop : twoStacks.blocks.Tops 2 := ⟨_, rfl, rfl⟩
  obtain ⟨hspliced, -⟩ := hset _ _ _ hsplice
  obtain ⟨g, hr, hsevered, -⟩ := hdisconnect 3 _ 2 rfl rfl
  obtain ⟨habove, hbelow⟩ := hsevered.split 2 [2] [4] htop rfl
  exact ⟨hw, ⟨_, hplug, hconnect _ _ _ _ hplug⟩, ⟨_, hsplice, hspliced.joined 2 [] [3, 4] htop rfl,
    fun htop => ((hspliced.tops_iff 5).mp htop).2 rfl⟩, g, hr, habove, hbelow⟩

end BlockGraph

end BlockStudio
