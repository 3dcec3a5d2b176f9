import TodoLists.Proofs.Filter.Meaning
import TodoLists.Proofs.ItemList.Distinct

/-!
# What queries find

Without a priority in it, a query finds what the truth values of its stages say: for one stage after
the other, the items of the whole list on which it is true. Counted once, that is what the first
stage finds and then, of the items left over, what the other stages find.
-/

namespace TodoLists

variable {l : ItemList}

namespace Query

def hasPriority (q : Query) : Bool := Filter.anyHasPriority q.stageList

/-- Some stage is true of the item. -/
def holds (q : Query) (i : Item) : Bool := Filter.anyHolds i q.stageList

theorem holds_eq_true_iff {q : Query} (h : q.hasPriority = false) (i : Item) :
    q.holds i = true ↔ ∃ f ∈ q.stageList, f.matches? i = .ok true := by
  rw [holds, Filter.anyHolds_eq_any, List.any_eq_true]
  refine exists_congr fun f => and_congr_right fun hf => ?_
  rw [Filter.matches?_eq_holds i (Filter.hasPriority_of_mem h hf), Except.ok.injEq]

end Query

namespace ItemList

/-- The entries that stages find, stage by stage. -/
def found (l : ItemList) (fs : List Filter) : List (ItemId × Item) :=
  fs.flatMap fun f => l.entries.filter fun e => f.holds e.2

/-- The entries that stages find, each where it is found first. -/
def firstFound : List Filter → List (ItemId × Item) → List (ItemId × Item)
  | [], _ => []
  | f :: fs, es =>
    (es.filter fun e => f.holds e.2) ++ firstFound fs (es.filter fun e => !f.holds e.2)

theorem found_cons (l : ItemList) (f : Filter) (fs : List Filter) :
    l.found (f :: fs) = (l.entries.filter fun e => f.holds e.2) ++ l.found fs := rfl

theorem mem_of_mem_found {fs : List Filter} {e : ItemId × Item} (h : e ∈ l.found fs) :
    e ∈ l.entries := by
  obtain ⟨f, -, he⟩ := List.mem_flatMap.1 h
  exact (List.mem_filter.1 he).1

/-! ### Selecting -/

theorem matching?_eq {f : Filter} (h : f.hasPriority = false) (es : List (ItemId × Item)) :
    matching? f es = .ok ((es.filter fun e => f.holds e.2).map (·.1)) := by
  induction es with
  | nil => rfl
  | cons e es ih =>
    rw [matching?, Filter.matches?_eq_holds e.2 h, ih, List.filter_cons]
    cases f.holds e.2 <;> rfl

theorem select_eq {f : Filter} (h : f.hasPriority = false) (l : ItemList) :
    l.select f = .ok ((l.entries.filter fun e => f.holds e.2).map (·.1)) := by
  rw [select, Filter.checkSupported_eq, h, matching?_eq h]
  rfl

end ItemList

namespace Query

theorem selectStages_eq {fs : List Filter} (h : Filter.anyHasPriority fs = false) (l : ItemList) :
    selectStages l fs = .ok ((l.found fs).map (·.1)) := by
  induction fs with
  | nil => rfl
  | cons f fs ih =>
    rw [Filter.anyHasPriority, Bool.or_eq_false_iff] at h
    rw [selectStages, ItemList.select_eq h.1, ih h.2, ItemList.found_cons, List.map_append]
    rfl

theorem select_eq {q : Query} (h : q.hasPriority = false) (l : ItemList) :
    q.select l = .ok ((l.found q.stageList).map (·.1)) := by
  rw [select, checkSupported, Filter.checkAllSupported_eq, ← hasPriority, h,
    selectStages_eq h]
  rfl

theorem select_of_hasPriority {q : Query} (h : q.hasPriority = true) (l : ItemList) :
    q.select l = .error .filterByPriority := by
  rw [select, checkSupported, Filter.checkAllSupported_eq, ← hasPriority, h]
  rfl

end Query

/-! ### Finding each item once -/

namespace ItemList

theorem firstFound_perm (fs : List Filter) (es : List (ItemId × Item)) :
    (firstFound fs es).Perm (es.filter fun e => Filter.anyHolds e.2 fs) := by
  induction fs generalizing es with
  | nil => simp [firstFound, Filter.anyHolds]
  | cons f fs ih =>
    have hfirst : (es.filter fun e => Filter.anyHolds e.2 (f :: fs)).filter (fun e => f.holds e.2) =
        es.filter fun e => f.holds e.2 := by
      rw [List.filter_filter]
      apply List.filter_congr
      intro e _
      rw [Filter.anyHolds]
      cases f.holds e.2 <;> rfl
    have hrest : (es.filter fun e => Filter.anyHolds e.2 (f :: fs)).filter
          (fun e => !f.holds e.2) =
        (es.filter fun e => !f.holds e.2).filter fun e => Filter.anyHolds e.2 fs := by
      rw [List.filter_filter, List.filter_filter]
      apply List.filter_congr
      intro e _
      rw [Filter.anyHolds]
      cases f.holds e.2 <;> cases Filter.anyHolds e.2 fs <;> rfl
    have hperm := List.filter_append_perm (fun e => f.holds e.2)
      (es.filter fun e => Filter.anyHolds e.2 (f :: fs))
    rw [hfirst, hrest] at hperm
    exact ((ih _).append_left _).trans hperm

theorem filter_found (p : Item → Bool) (fs : List Filter) :
    (l.found fs).filter (fun e => p e.2) = found ⟨l.entries.filter fun e => p e.2⟩ fs := by
  rw [found, List.filter_flatMap]
  apply List.flatMap_congr
  intro f _
  rw [List.filter_filter, List.filter_filter]
  exact List.filter_congr fun e _ => Bool.and_comm _ _

/-- Ids that the first stage finds are not found again. -/
theorem removeAll_found (h : l.ids.Nodup) (f : Filter) (fs : List Filter) :
    ((l.found fs).map (·.1)).removeAll ((l.entries.filter fun e => f.holds e.2).map (·.1)) =
      (found ⟨l.entries.filter fun e => !f.holds e.2⟩ fs).map (·.1) := by
  rw [← filter_found (fun i => !f.holds i), List.removeAll, List.filter_map]
  refine congrArg (List.map _) (List.filter_congr fun e he => ?_)
  have hiff := mem_map_fst_filter h (fun e => f.holds e.2) (mem_of_mem_found he)
  rw [Function.comp_apply, List.elem_eq_mem, Bool.eq_iff_iff.2 (decide_eq_true_iff.trans hiff)]

/-- Taking each id where it comes first leaves the entries that are found first. -/
theorem eraseDups_found (h : l.ids.Nodup) (fs : List Filter) :
    ((l.found fs).map (·.1)).eraseDups = (firstFound fs l.entries).map (·.1) := by
  induction fs generalizing l with
  | nil => rfl
  | cons f fs ih =>
    have hrest := ih (l := ⟨l.entries.filter fun e => !f.holds e.2⟩) (nodup_map_fst_filter h _)
    rw [found_cons, List.map_append, List.eraseDups_append,
      eraseDups_of_nodup (nodup_map_fst_filter h _), removeAll_found h, hrest, firstFound,
      List.map_append]

end ItemList

end TodoLists
