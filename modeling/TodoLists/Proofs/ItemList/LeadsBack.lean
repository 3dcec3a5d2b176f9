import TodoLists.Proofs.Query.Selection

/-!
# Ids that lead back

A query answers with ids, and whoever asked goes back to the items by these ids. Where ids repeat,
an id leads to the first item that has it, and the query may have found another one. Every query is
served all the same exactly when no condition tells items with one id apart: they have one status,
answer to the same names and carry the same tags.
-/

namespace TodoLists

/-- No condition tells the two items apart. -/
structure Item.Alike (i j : Item) : Prop where
  status : i.status = j.status
  isNamed : ∀ n, i.isNamed n = j.isNamed n
  hasTag : ∀ t, i.hasTag t = j.hasTag t

theorem Item.Alike.refl (i : Item) : i.Alike i := ⟨rfl, fun _ => rfl, fun _ => rfl⟩

theorem Item.Alike.symm {i j : Item} (h : i.Alike j) : j.Alike i :=
  ⟨h.status.symm, fun n => (h.isNamed n).symm, fun t => (h.hasTag t).symm⟩

theorem Item.Alike.trans {i j k : Item} (h : i.Alike j) (h' : j.Alike k) : i.Alike k :=
  ⟨h.status.trans h'.status, fun n => (h.isNamed n).trans (h'.isNamed n),
    fun t => (h.hasTag t).trans (h'.hasTag t)⟩

namespace Filter

theorem allHold_eq_all (i : Item) (fs : List Filter) : allHold i fs = fs.all (holds i) := by
  induction fs with
  | nil => rfl
  | cons f fs ih => rw [allHold, ih, List.all_cons]

/-- A filter has one truth value on items that no condition tells apart. -/
theorem holds_eq_of_alike {i j : Item} (h : i.Alike j) (f : Filter) : f.holds i = f.holds j := by
  induction f using induction_on_parts with
  | all | none | priority => rfl
  | status r => rw [holds, holds, h.status]
  | tag t => exact h.hasTag t
  | name n => exact h.isNamed n
  | and fs ih =>
    rw [holds, holds, allHold_eq_all, allHold_eq_all, Bool.eq_iff_iff, List.all_eq_true,
      List.all_eq_true]
    exact forall₂_congr fun g hg => by rw [ih g hg]
  | or fs ih =>
    rw [holds, holds, anyHolds_eq_any, anyHolds_eq_any, Bool.eq_iff_iff, List.any_eq_true,
      List.any_eq_true]
    exact exists_congr fun g => and_congr_right fun hg => by rw [ih g hg]
  | not f ih => rw [holds, holds, ih]

theorem contains_only_iff {s t : Status} : (Range.only s).contains t = true ↔ t = s := by
  cases s <;> cases t <;> decide

/-- Items are alike when every filter that is true of the one is true of the other. -/
theorem alike_of_holds {i j : Item}
    (h : ∀ f : Filter, f.hasPriority = false → f.holds i = true → f.holds j = true) :
    i.Alike j := by
  have heq : ∀ f : Filter, f.hasPriority = false → f.holds i = f.holds j := by
    intro f hf
    cases hi : f.holds i with
    | true => exact (h f hf hi).symm
    | false =>
      have hnot := h (.not f) hf (by rw [holds, hi]; rfl)
      rw [holds, Bool.not_eq_true'] at hnot
      exact hnot.symm
  refine ⟨?_, fun n => heq (.name n) rfl, fun t => heq (.tag t) rfl⟩
  have hstatus := heq (.status (.only j.status)) rfl
  rw [holds, holds, contains_only_iff.2 rfl] at hstatus
  exact contains_only_iff.1 hstatus

end Filter

namespace ItemList

variable {l : ItemList}

/-- Every id that the query finds leads to an item that one of its stages matches. -/
def LeadsBack (l : ItemList) (q : Query) : Prop :=
  ∀ ids, q.select l = .ok ids → ∀ id ∈ ids,
    ∃ i, l.get? id = some i ∧ ∃ f ∈ q.stageList, f.matches? i = .ok true

/-- Items with one id are alike. -/
def IsFaithful (l : ItemList) : Prop :=
  ∀ e ∈ l.entries, ∀ e' ∈ l.entries, e.1 = e'.1 → e.2.Alike e'.2

theorem isFaithful_of_nodup (h : l.ids.Nodup) : l.IsFaithful :=
  fun _ he _ he' hid => eq_of_ids_nodup h he he' hid ▸ .refl _

/-- The id of an entry leads to some entry with this id. -/
theorem exists_get?_of_mem {e : ItemId × Item} (he : e ∈ l.entries) :
    ∃ e' ∈ l.entries, e'.1 = e.1 ∧ l.get? e.1 = some e'.2 := by
  have hsome : (l.entries.find? fun x => x.1 == e.1).isSome = true :=
    List.find?_isSome.2 ⟨e, he, beq_self_eq_true e.1⟩
  obtain ⟨e', hfind⟩ := Option.isSome_iff_exists.1 hsome
  have hid : e'.1 = e.1 := by simpa using List.find?_some hfind
  exact ⟨e', List.mem_of_find?_eq_some hfind, hid, by rw [get?, hfind]; rfl⟩

theorem mem_map_fst_lookUp {e : ItemId × Item} (he : e ∈ l.entries) {ids : List ItemId}
    (hid : e.1 ∈ ids) : e.1 ∈ (l.lookUp ids).map (·.1) := by
  obtain ⟨e', -, -, hget⟩ := exists_get?_of_mem he
  exact List.mem_map.2 ⟨(e.1, e'.2), List.mem_filterMap.2 ⟨e.1, hid, by rw [hget]; rfl⟩, rfl⟩

theorem IsFaithful.leadsBack (h : l.IsFaithful) (q : Query) : l.LeadsBack q := by
  intro ids hselect id hid
  cases hq : q.hasPriority with
  | true =>
    rw [Query.select_of_hasPriority hq] at hselect
    cases hselect
  | false =>
    rw [Query.select_eq hq] at hselect
    cases hselect
    obtain ⟨e, he, rfl⟩ := List.mem_map.1 hid
    obtain ⟨f, hf, hfound⟩ := List.mem_flatMap.1 he
    obtain ⟨hmem, hholds⟩ := List.mem_filter.1 hfound
    obtain ⟨e', hmem', hsame, hget⟩ := exists_get?_of_mem hmem
    refine ⟨e'.2, hget, f, hf, ?_⟩
    rw [Filter.matches?_eq_holds e'.2 (Filter.hasPriority_of_mem hq hf),
      Filter.holds_eq_of_alike (h e' hmem' e hmem hsame), hholds]

/-- If queries of one stage lead back, an item is like the one its id leads to. -/
theorem alike_of_leadsBack (h : ∀ f : Filter, l.LeadsBack (.of f)) {e : ItemId × Item}
    (he : e ∈ l.entries) {i : Item} (hget : l.get? e.1 = some i) : e.2.Alike i := by
  apply Filter.alike_of_holds
  intro f hf hholds
  have hq : (Query.of f).hasPriority = false := by
    rw [Query.hasPriority, Query.of, Query.stageList, Filter.anyHasPriority, hf]
    rfl
  have hmem : e.1 ∈ (l.found [f]).map (·.1) :=
    List.mem_map_of_mem (List.mem_flatMap.2
      ⟨f, List.mem_singleton_self f, List.mem_filter.2 ⟨he, hholds⟩⟩)
  obtain ⟨i', hget', g, hg, hmatches⟩ := h f _ (Query.select_eq hq l) e.1 hmem
  obtain rfl : g = f := List.mem_singleton.1 hg
  cases hget.symm.trans hget'
  rwa [Filter.matches?_eq_holds i hf, Except.ok.injEq] at hmatches

/-- The ids that queries find lead back, whatever the query is, exactly if items with one id are
alike. -/
theorem leadsBack_iff : (∀ q, l.LeadsBack q) ↔ l.IsFaithful := by
  constructor
  · intro h e he e' he' hid
    obtain ⟨x, -, -, hget⟩ := exists_get?_of_mem he
    have halike := alike_of_leadsBack (fun f => h (.of f)) he hget
    exact halike.trans (alike_of_leadsBack (fun f => h (.of f)) he' (hid ▸ hget)).symm
  · exact IsFaithful.leadsBack

end ItemList

end TodoLists
