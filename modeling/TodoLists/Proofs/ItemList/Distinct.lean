import TodoLists.Query.Select
import Mathlib.Data.List.Nodup

/-!
# Lists with distinct ids

Where no id is repeated, an id leads to its own item, and going through ids one at a time comes to
the same as going through the list once.
-/

namespace TodoLists

/-- Taking each member where it comes first leaves a list without repetitions as it is. -/
theorem eraseDups_of_nodup {α : Type} [BEq α] [LawfulBEq α] {xs : List α} (h : xs.Nodup) :
    xs.eraseDups = xs := by
  induction xs with
  | nil => rfl
  | cons x xs ih =>
    obtain ⟨hnot, hnodup⟩ := List.nodup_cons.1 h
    have hrest : (xs.filter fun y => !y == x) = xs := by
      apply List.filter_eq_self.2
      intro y hy
      have hne : y ≠ x := fun hyx => hnot (hyx ▸ hy)
      rw [beq_eq_false_iff_ne.2 hne]
      rfl
    rw [List.eraseDups_cons, hrest, ih hnodup]

namespace ItemList

variable {l : ItemList}

/-- Two entries with one id are the same entry. -/
theorem eq_of_ids_nodup (h : l.ids.Nodup) {e e' : ItemId × Item} (he : e ∈ l.entries)
    (he' : e' ∈ l.entries) (hid : e.1 = e'.1) : e = e' :=
  List.inj_on_of_nodup_map h he he' hid

theorem nodup_map_fst_filter (h : l.ids.Nodup) (p : ItemId × Item → Bool) :
    ((l.entries.filter p).map (·.1)).Nodup :=
  h.sublist (List.filter_sublist.map _)

/-- The id of an entry is among those of the entries that pass only if the entry passes. -/
theorem mem_map_fst_filter (h : l.ids.Nodup) (p : ItemId × Item → Bool) {e : ItemId × Item}
    (he : e ∈ l.entries) : e.1 ∈ (l.entries.filter p).map (·.1) ↔ p e = true := by
  constructor
  · intro hid
    obtain ⟨x, hx, hxid⟩ := List.mem_map.1 hid
    obtain ⟨hx, hpass⟩ := List.mem_filter.1 hx
    rwa [← eq_of_ids_nodup h hx he hxid]
  · exact fun hpass => List.mem_map_of_mem (List.mem_filter.2 ⟨he, hpass⟩)

/-! ### Looking up -/

theorem get?_of_mem (h : l.ids.Nodup) {e : ItemId × Item} (he : e ∈ l.entries) :
    l.get? e.1 = some e.2 := by
  rw [get?]
  cases hfind : l.entries.find? fun x => x.1 == e.1 with
  | none => exact absurd (List.find?_eq_none.1 hfind e he) (by simp)
  | some x =>
    have hid : x.1 = e.1 := by simpa using List.find?_some hfind
    rw [eq_of_ids_nodup h (List.mem_of_find?_eq_some hfind) he hid]
    rfl

/-- The ids of entries lead back to the entries. -/
theorem lookUp_map_fst (h : l.ids.Nodup) {es : List (ItemId × Item)}
    (hes : ∀ e ∈ es, e ∈ l.entries) : l.lookUp (es.map (·.1)) = es := by
  induction es with
  | nil => rfl
  | cons e es ih =>
    obtain ⟨he, hes⟩ := List.forall_mem_cons.1 hes
    have htail := ih hes
    rw [lookUp] at htail ⊢
    rw [List.map_cons, List.filterMap_cons, get?_of_mem h he, htail]
    rfl

/-! ### Changing and removing -/

theorem modifyFirst_eq_map {es : List (ItemId × Item)} (h : (es.map (·.1)).Nodup) (id : ItemId)
    (f : Item → Item) :
    modifyFirst id f es = es.map fun e => if e.1 = id then (e.1, f e.2) else e := by
  induction es with
  | nil => rfl
  | cons e es ih =>
    obtain ⟨hnot, hnodup⟩ := List.nodup_cons.1 h
    rw [modifyFirst, List.map_cons]
    by_cases hid : e.1 = id
    · have hrest : ∀ x ∈ es, (if x.1 = id then (x.1, f x.2) else x) = x := fun x hx =>
        if_neg fun hx' => hnot (List.mem_map.2 ⟨x, hx, hx'.trans hid.symm⟩)
      rw [if_pos hid, if_pos hid, List.map_congr_left hrest, List.map_id']
    · rw [if_neg hid, if_neg hid, ih hnodup]

/-- Each item is changed once, if its id is among those given. -/
theorem entries_modifyAll (h : l.ids.Nodup) {ids : List ItemId} (hids : ids.Nodup)
    (f : Item → Item) :
    (l.modifyAll ids f).entries =
      l.entries.map fun e => if e.1 ∈ ids then (e.1, f e.2) else e := by
  induction ids generalizing l with
  | nil => simp [modifyAll]
  | cons id ids ih =>
    obtain ⟨hid, hids⟩ := List.nodup_cons.1 hids
    have hstep : (l.modify id f).entries =
        l.entries.map fun e => if e.1 = id then (e.1, f e.2) else e := modifyFirst_eq_map h id f
    have hrest := ih (l := l.modify id f) (by rwa [ids_modify]) hids
    rw [modifyAll] at hrest ⊢
    rw [List.foldl_cons, hrest, hstep, List.map_map]
    apply List.map_congr_left
    intro e _
    by_cases he : e.1 = id
    · simp [he, hid]
    · simp [he]

theorem entries_removeAll (l : ItemList) (ids : List ItemId) :
    (l.removeAll ids).entries = l.entries.filter fun e => e.1 ∉ ids := by
  induction ids generalizing l with
  | nil =>
    rw [removeAll, List.foldl_nil]
    exact (List.filter_eq_self.2 fun e _ => by simp).symm
  | cons id ids ih =>
    have hrest := ih (l.remove id)
    rw [removeAll] at hrest ⊢
    rw [List.foldl_cons, hrest, remove, List.filter_filter]
    apply List.filter_congr
    intro e _
    by_cases he : e.1 = id <;> simp [he]

theorem ids_modifyAll (l : ItemList) (ids : List ItemId) (f : Item → Item) :
    (l.modifyAll ids f).ids = l.ids := by
  induction ids generalizing l with
  | nil => rfl
  | cons id ids ih => exact (ih (l.modify id f)).trans (ids_modify l id f)

theorem ids_removeAll_nodup (h : l.ids.Nodup) (ids : List ItemId) : (l.removeAll ids).ids.Nodup := by
  rw [ItemList.ids, entries_removeAll]
  exact nodup_map_fst_filter h _

end ItemList

end TodoLists
