import TodoLists.Proofs.Query.Selection
import TodoLists.Proofs.SortOrder.Sorting

/-!
# What can be evaluated

Whether a query finds anything at all may hang on a part that no item ever leads to, since looking
at a filter from the left stops early. So a query is refused for what it holds and not for what
comes up: a priority anywhere in it, however deep, or among the keys of the sort order. Whatever the
list is, even an empty one, the answer is the same.
-/

namespace TodoLists

namespace Filter

/-- The first filter is the second one or occurs in one of its parts. -/
inductive OccursIn : Filter → Filter → Prop where
  | refl (f : Filter) : OccursIn f f
  | and {f g : Filter} {gs : List Filter} (hg : g ∈ gs) (h : OccursIn f g) : OccursIn f (and gs)
  | or {f g : Filter} {gs : List Filter} (hg : g ∈ gs) (h : OccursIn f g) : OccursIn f (or gs)
  | not {f g : Filter} (h : OccursIn f g) : OccursIn f (not g)

/-- Some priority occurs in the filter. -/
def HoldsPriority (f : Filter) : Prop := ∃ r, OccursIn (priority r) f

theorem holdsPriority_and_iff {fs : List Filter} :
    HoldsPriority (and fs) ↔ ∃ f ∈ fs, f.HoldsPriority := by
  constructor
  · rintro ⟨r, h⟩
    cases h with
    | and hg h => exact ⟨_, hg, r, h⟩
  · rintro ⟨f, hf, r, h⟩
    exact ⟨r, .and hf h⟩

theorem holdsPriority_or_iff {fs : List Filter} :
    HoldsPriority (or fs) ↔ ∃ f ∈ fs, f.HoldsPriority := by
  constructor
  · rintro ⟨r, h⟩
    cases h with
    | or hg h => exact ⟨_, hg, r, h⟩
  · rintro ⟨f, hf, r, h⟩
    exact ⟨r, .or hf h⟩

theorem holdsPriority_not_iff {f : Filter} : HoldsPriority (not f) ↔ f.HoldsPriority := by
  constructor
  · rintro ⟨r, h⟩
    cases h with
    | not h => exact ⟨r, h⟩
  · rintro ⟨r, h⟩
    exact ⟨r, .not h⟩

theorem anyHasPriority_iff_of_parts {fs : List Filter}
    (h : ∀ f ∈ fs, f.hasPriority = true ↔ f.HoldsPriority) :
    anyHasPriority fs = true ↔ ∃ f ∈ fs, f.HoldsPriority := by
  rw [anyHasPriority_eq_any, List.any_eq_true]
  exact exists_congr fun f => and_congr_right (h f)

theorem hasPriority_iff (f : Filter) : f.hasPriority = true ↔ f.HoldsPriority := by
  induction f using induction_on_parts with
  | all | none | status | tag | name =>
    constructor
    · intro h
      cases h
    · rintro ⟨r, h⟩
      cases h
  | priority r => exact ⟨fun _ => ⟨r, .refl _⟩, fun _ => rfl⟩
  | and fs ih => exact (anyHasPriority_iff_of_parts ih).trans holdsPriority_and_iff.symm
  | or fs ih => exact (anyHasPriority_iff_of_parts ih).trans holdsPriority_or_iff.symm
  | not f ih => exact ih.trans holdsPriority_not_iff.symm

theorem hasPriority_eq_false_iff (f : Filter) : f.hasPriority = false ↔ ¬ f.HoldsPriority := by
  rw [← hasPriority_iff, Bool.not_eq_true]

theorem support_eq_error_iff {refused : Bool} :
    support refused = .error .filterByPriority ↔ refused = true := by
  cases refused <;> simp [support]

theorem support_eq_ok_iff {refused : Bool} : support refused = .ok () ↔ refused = false := by
  cases refused <;> simp [support]

end Filter

/-! ### Queries -/

namespace Query

variable {q : Query}

/-- Some priority occurs in a stage of the query. -/
def HoldsPriority (q : Query) : Prop := ∃ f ∈ q.stageList, f.HoldsPriority

theorem hasPriority_iff : q.hasPriority = true ↔ q.HoldsPriority :=
  Filter.anyHasPriority_iff_of_parts fun f _ => Filter.hasPriority_iff f

theorem hasPriority_eq_false_iff : q.hasPriority = false ↔ ¬ q.HoldsPriority := by
  rw [← hasPriority_iff, Bool.not_eq_true]

theorem select_eq_error_iff {l : ItemList} :
    q.select l = .error .filterByPriority ↔ q.HoldsPriority := by
  rw [← hasPriority_iff]
  cases h : q.hasPriority with
  | true => simp [select_of_hasPriority h]
  | false => simp [select_eq h]

theorem select_isOk_iff {l : ItemList} : (q.select l).isOk = true ↔ ¬ q.HoldsPriority := by
  rw [← hasPriority_iff]
  cases h : q.hasPriority with
  | true => simp [select_of_hasPriority h, Except.isOk, Except.toBool]
  | false => simp [select_eq h, Except.isOk, Except.toBool]

end Query

/-! ### Sorted results -/

theorem SortOrder.checkSupported_of_mem {o : SortOrder} (ho : .priority ∈ o.keys) :
    o.checkSupported = .error .byPriority := by
  rw [checkSupported, if_pos]
  simpa using ho

/-- Without a priority among the keys only names can be in the way of sorting. -/
theorem SortOrder.sort_cases {o : SortOrder} (ho : .priority ∉ o.keys)
    (ps : List (ItemId × Item)) : (∃ ps', o.sort ps = .ok ps') ∨ o.sort ps = .error .names := by
  rw [sort, checkSupported_eq_ok ho]
  simp only [bind, Except.bind]
  split
  · exact Or.inl ⟨_, rfl⟩
  · exact Or.inr rfl

namespace ItemList

variable {l : ItemList} {q : Query} {o : SortOrder}

theorem exists_mem_of_mem_lookUp {ids : List ItemId} {x : ItemId × Item} (h : x ∈ l.lookUp ids) :
    ∃ e ∈ l.entries, e.2 = x.2 := by
  obtain ⟨id, -, hx⟩ := List.mem_filterMap.1 h
  obtain ⟨i, hi, rfl⟩ := Option.map_eq_some_iff.1 hx
  obtain ⟨e, he, rfl⟩ := Option.map_eq_some_iff.1 hi
  exact ⟨e, List.mem_of_find?_eq_some he, rfl⟩

theorem selectSorted_of_priority_key (ho : .priority ∈ o.keys) (l : ItemList) (q : Query) :
    l.selectSorted q o = .error (.unsupported .sortByPriority) := by
  rw [selectSorted, SortOrder.checkSupported_of_mem ho]
  rfl

theorem selectSorted_of_hasPriority (ho : .priority ∉ o.keys) (hq : q.hasPriority = true)
    (l : ItemList) : l.selectSorted q o = .error (.unsupported .filterByPriority) := by
  rw [selectSorted, SortOrder.checkSupported_eq_ok ho, Query.select_of_hasPriority hq]
  rfl

/-- What can be evaluated is found, and sorted if there are keys to sort by. -/
theorem selectSorted_of_supported (ho : .priority ∉ o.keys) (hq : q.hasPriority = false)
    (l : ItemList) : l.selectSorted q o =
      if o.keys = [] then .ok (l.lookUp ((l.found q.stageList).map (·.1)))
      else (o.sort (l.lookUp ((l.found q.stageList).map (·.1)))).mapError Unsortable.toFault := by
  rw [selectSorted, SortOrder.checkSupported_eq_ok ho, Query.select_eq hq]
  rfl

theorem selectSorted_ne_unsupported (ho : .priority ∉ o.keys) (hq : q.hasPriority = false)
    (l : ItemList) (u : Unsupported) : l.selectSorted q o ≠ .error (.unsupported u) := by
  intro h
  rw [selectSorted_of_supported ho hq] at h
  split at h
  · cases h
  · rcases SortOrder.sort_cases ho (l.lookUp ((l.found q.stageList).map (·.1))) with
      ⟨ps, hps⟩ | hnames
    · rw [hps] at h
      cases h
    · rw [hnames] at h
      cases h

theorem exists_selectSorted_eq_ok (ho : .priority ∉ o.keys) (hq : q.hasPriority = false)
    (hnames : .name ∈ o.keys → ∀ e ∈ l.entries, e.2.HasTextName) :
    ∃ pairs, l.selectSorted q o = .ok pairs := by
  rw [selectSorted_of_supported ho hq]
  split
  · exact ⟨_, rfl⟩
  · rw [SortOrder.sort_eq ho]
    · exact ⟨_, rfl⟩
    · intro hname x hx
      obtain ⟨e, he, hex⟩ := exists_mem_of_mem_lookUp hx
      exact hex ▸ hnames hname e he

theorem selectSorted_unsupported_iff : (∃ u, l.selectSorted q o = .error (.unsupported u)) ↔
    q.HoldsPriority ∨ .priority ∈ o.keys := by
  rw [← Query.hasPriority_iff]
  by_cases ho : .priority ∈ o.keys
  · exact ⟨fun _ => Or.inr ho, fun _ => ⟨_, selectSorted_of_priority_key ho l q⟩⟩
  · cases hq : q.hasPriority with
    | true => exact ⟨fun _ => Or.inl rfl, fun _ => ⟨_, selectSorted_of_hasPriority ho hq l⟩⟩
    | false =>
      refine ⟨fun ⟨u, hu⟩ => absurd hu (selectSorted_ne_unsupported ho hq l u), ?_⟩
      rintro (h | h)
      · cases h
      · exact absurd h ho

/-- Where names are texts, nothing but a priority is in the way. -/
theorem selectSorted_error_iff (hnames : .name ∈ o.keys → ∀ e ∈ l.entries, e.2.HasTextName) :
    (∃ e, l.selectSorted q o = .error e) ↔ q.HoldsPriority ∨ .priority ∈ o.keys := by
  constructor
  · rintro ⟨e, he⟩
    by_contra h
    obtain ⟨hq, ho⟩ := not_or.1 h
    obtain ⟨pairs, hpairs⟩ :=
      exists_selectSorted_eq_ok ho (Query.hasPriority_eq_false_iff.2 hq) hnames
    rw [hpairs] at he
    cases he
  · intro h
    obtain ⟨u, hu⟩ := selectSorted_unsupported_iff.2 h
    exact ⟨_, hu⟩

end ItemList

/-! ### The items do not matter -/

/-- A filter, a query or a sort is refused exactly for a priority in it, and what is not refused has
its truth value on every item. -/
theorem Query.refused_iff_holdsPriority :
    (∀ f : Filter,
      (f.checkSupported = .error .filterByPriority ↔ f.HoldsPriority) ∧
      (f.checkSupported = .ok () ↔ ¬ f.HoldsPriority) ∧
      (f.checkSupported = .ok () → ∀ i, f.matches? i = .ok (f.holds i))) ∧
    (∀ (q : Query) (l m : ItemList),
      (q.select l = .error .filterByPriority ↔ q.HoldsPriority) ∧
      ((q.select l).isOk = true ↔ ¬ q.HoldsPriority) ∧ (q.select l).isOk = (q.select m).isOk) ∧
    ∀ (q : Query) (o : SortOrder) (l : ItemList),
      ((∃ u, l.selectSorted q o = .error (.unsupported u)) ↔
        q.HoldsPriority ∨ .priority ∈ o.keys) ∧
      ((.name ∈ o.keys → ∀ e ∈ l.entries, e.2.HasTextName) →
        ((∃ e, l.selectSorted q o = .error e) ↔ q.HoldsPriority ∨ .priority ∈ o.keys)) := by
  refine ⟨fun f => ?_, fun q l m => ?_, fun q o l => ?_⟩
  · rw [Filter.checkSupported_eq, Filter.support_eq_error_iff, Filter.support_eq_ok_iff,
      ← Filter.hasPriority_eq_false_iff]
    exact ⟨Filter.hasPriority_iff f, Iff.rfl, fun h i => Filter.matches?_eq_holds i h⟩
  · refine ⟨select_eq_error_iff, select_isOk_iff, ?_⟩
    rw [Bool.eq_iff_iff, select_isOk_iff, select_isOk_iff]
  · exact ⟨ItemList.selectSorted_unsupported_iff, ItemList.selectSorted_error_iff⟩

/-- A priority that is never come to, behind a part that is true of no item. -/
def Filter.unreached : Filter := .and [.none, .not (.priority (.only 3))]

/-- The filter has a truth value on the item, and is refused all the same, even on an empty list; an
empty disjunction is not. -/
theorem Query.refused_iff_holdsPriority_unreached :
    Filter.unreached.matches? (.ofTexts "tea" "" .waiting []) = .ok false ∧
    (Query.of Filter.unreached).select .empty = .error .filterByPriority ∧
    (Filter.or []).checkSupported = .ok () ∧
    (Filter.or []).matches? (.ofTexts "tea" "" .waiting []) = .ok false ∧
    (∀ e ∈ (ItemList.mk [(⟨1⟩, .ofTexts "tea" "" .waiting [])]).entries, e.2.HasTextName) ∧
    ∃ e, (ItemList.mk [(⟨1⟩, .ofTexts "tea" "" .waiting [])]).selectSorted
      (.of Filter.unreached) ⟨[.name]⟩ = .error e := by
  obtain ⟨hfilter, hquery, hsort⟩ := refused_iff_holdsPriority
  have hholds : (Query.of Filter.unreached).HoldsPriority := hasPriority_iff.1 rfl
  have hnames : ∀ e ∈ (ItemList.mk [(⟨1⟩, .ofTexts "tea" "" .waiting [])]).entries,
      e.2.HasTextName := List.forall_mem_singleton.2 ⟨_, rfl⟩
  have hempty : (Filter.or []).checkSupported = .ok () := rfl
  exact ⟨rfl, (hquery _ _ .empty).1.2 hholds, hempty, (hfilter _).2.2 hempty _, hnames,
    ((hsort _ _ _).2 fun _ => hnames).2 (Or.inl hholds)⟩

end TodoLists
