import TodoLists.Proofs.Query.Selection
import TodoLists.Proofs.SortOrder.Sorting

/-!
# Sorted results

A sorted result holds what the stages find, an item once for each stage that is true of it, and each
id with the item that it leads to. Items that no key tells apart stay in the order of the query. A
sort by name takes texts for names, since names of other kinds need not have an order.
-/

namespace TodoLists.ItemList

variable {l : ItemList}

/-- An item is found once for each stage that is true of it. -/
theorem count_found (h : l.ids.Nodup) {e : ItemId × Item} (he : e ∈ l.entries)
    (fs : List Filter) :
    ((l.found fs).map (·.1)).count e.1 = fs.countP fun f => f.holds e.2 := by
  induction fs with
  | nil => rfl
  | cons f fs ih =>
    have hstage : ((l.entries.filter fun e => f.holds e.2).map (·.1)).count e.1 =
        if f.holds e.2 = true then 1 else 0 := by
      rw [(nodup_map_fst_filter h _).count]
      exact if_congr (mem_map_fst_filter h (fun e => f.holds e.2) he) rfl rfl
    rw [found_cons, List.map_append, List.count_append, hstage, ih, List.countP_cons,
      Nat.add_comm]

theorem selectSorted_eq (h : l.ids.Nodup) {q : Query} (hq : q.hasPriority = false) {o : SortOrder}
    (ho : .priority ∉ o.keys)
    (hnames : .name ∈ o.keys → ∀ e ∈ l.entries, e.2.HasTextName) :
    l.selectSorted q o =
      .ok ((l.found q.stageList).mergeSort (SortOrder.precedes o.keys)) := by
  have hlook : l.lookUp ((l.found q.stageList).map (·.1)) = l.found q.stageList :=
    lookUp_map_fst h fun e he => mem_of_mem_found he
  rw [selectSorted, SortOrder.checkSupported_eq_ok ho, Query.select_eq hq]
  simp only [Except.mapError, bind, Except.bind, hlook]
  split
  · next hkeys =>
    rw [hkeys, SortOrder.mergeSort_precedes_nil]
    rfl
  · next hkeys =>
    rw [SortOrder.sort_eq ho fun hname e he => hnames hname e (mem_of_mem_found he)]

theorem count_found_matches (h : l.ids.Nodup) {q : Query} (hq : q.hasPriority = false)
    {e : ItemId × Item} (he : e ∈ l.entries) :
    ((l.found q.stageList).map (·.1)).count e.1 =
      q.stageList.countP fun f => f.matches? e.2 = .ok true := by
  rw [count_found h he]
  apply List.countP_congr
  intro f hf
  rw [decide_eq_true_iff, Filter.matches?_eq_holds e.2 (Filter.hasPriority_of_mem hq hf),
    Except.ok.injEq]

section

variable {o : SortOrder} (ho : .priority ∉ o.keys)
  (hnames : .name ∈ o.keys → ∀ e ∈ l.entries, e.2.HasTextName)

include ho hnames

theorem compare_entries {x y : ItemId × Item} (hx : x ∈ l.entries) (hy : y ∈ l.entries) :
    o.compare x.2 y.2 = .ok (SortOrder.ordering o.keys x.2 y.2) :=
  SortOrder.compareBy_eq_ordering ho (fun h => hnames h x hx) fun h => hnames h y hy

/-- The entries of a row that compare equal to one of the list. -/
theorem filter_compare {es : List (ItemId × Item)} (hes : ∀ x ∈ es, x ∈ l.entries)
    {e : ItemId × Item} (he : e ∈ l.entries) :
    es.filter (fun x => o.compare x.2 e.2 = .ok .eq) =
      es.filter fun x => SortOrder.ordering o.keys x.2 e.2 == .eq := by
  apply List.filter_congr
  intro x hx
  rw [compare_entries ho hnames (hes x hx) he, Bool.eq_iff_iff, decide_eq_true_iff,
    Except.ok.injEq, beq_iff_eq]

end

/-- What the stages find is there, each item as often as it is found, in a stable order. -/
theorem selectSorted_complete (l : ItemList) (hids : l.ids.Nodup) (q : Query)
    (hq : q.hasPriority = false) (o : SortOrder) (ho : .priority ∉ o.keys)
    (hnames : .name ∈ o.keys → ∀ e ∈ l.entries, e.2.HasTextName) :
    ∃ pairs, l.selectSorted q o = .ok pairs ∧
      (∀ x ∈ pairs, l.get? x.1 = some x.2) ∧
      (∀ e ∈ l.entries, (pairs.map (·.1)).count e.1 =
        q.stageList.countP fun f => f.matches? e.2 = .ok true) ∧
      (pairs.Pairwise fun x y => ∃ r, o.compare x.2 y.2 = .ok r ∧ r ≠ .gt) ∧
      l.selectSorted q .none = .ok (l.found q.stageList) ∧
      ∀ e ∈ l.entries, pairs.filter (fun x => o.compare x.2 e.2 = .ok .eq) =
        (l.found q.stageList).filter fun x => o.compare x.2 e.2 = .ok .eq := by
  have hperm := List.mergeSort_perm (l.found q.stageList) (SortOrder.precedes o.keys)
  have hfound : ∀ x ∈ l.found q.stageList, x ∈ l.entries := fun x hx => mem_of_mem_found hx
  have hsorted := fun x hx => hfound x (hperm.mem_iff.1 hx)
  refine ⟨_, selectSorted_eq hids hq ho hnames, ?_, ?_, ?_, ?_, ?_⟩
  · intro x hx
    exact get?_of_mem hids (hsorted x hx)
  · intro e he
    rw [(hperm.map _).count_eq, count_found_matches hids hq he]
  · apply (SortOrder.pairwise_mergeSort_precedes o.keys (l.found q.stageList)).imp_of_mem
    intro x y hx hy hle
    exact ⟨_, compare_entries ho hnames (hsorted x hx) (hsorted y hy), hle⟩
  · rw [selectSorted_eq hids hq (o := .none) List.not_mem_nil fun h => absurd h List.not_mem_nil]
    exact congrArg Except.ok (SortOrder.mergeSort_precedes_nil _)
  · intro e he
    rw [filter_compare ho hnames hsorted he, filter_compare ho hnames hfound he]
    exact SortOrder.filter_mergeSort o.keys e.2 _

/-- Two items of one name, one of which is found by both stages of the query below. -/
def errands : ItemList :=
  ⟨[(⟨1⟩, .ofTexts "walk" "" .completed ["out"]), (⟨2⟩, .ofTexts "walk" "" .waiting [])]⟩

theorem selectSorted_complete_errands :
    errands.ids.Nodup ∧ (Query.mk (.tag "out") [.all]).hasPriority = false ∧
    .priority ∉ [SortKey.name] ∧ (∀ e ∈ errands.entries, e.2.HasTextName) ∧
    ∃ pairs, errands.selectSorted ⟨.tag "out", [.all]⟩ ⟨[.name]⟩ = .ok pairs ∧
      (pairs.map (·.1)).count ⟨1⟩ = 2 := by
  have hids : errands.ids.Nodup := by decide
  have hsupported : SortKey.priority ∉ [SortKey.name] := by decide
  have hnames : ∀ e ∈ errands.entries, e.2.HasTextName :=
    List.forall_mem_cons.2 ⟨⟨_, rfl⟩, List.forall_mem_singleton.2 ⟨_, rfl⟩⟩
  obtain ⟨pairs, hpairs, -, hcount, -⟩ := selectSorted_complete errands hids
    ⟨.tag "out", [.all]⟩ rfl ⟨[.name]⟩ hsupported fun _ => hnames
  exact ⟨hids, rfl, hsupported, hnames, pairs, hpairs, hcount _ List.mem_cons_self⟩

end TodoLists.ItemList
