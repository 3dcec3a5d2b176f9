import TodoLists.Proofs.Json.Order
import TodoLists.SortOrder

/-!
# Sorting by keys

Among items that have texts for names, a row of keys without a priority compares any two items, and
the comparison is a total preorder. Sorting by it is stable: items that no key tells apart keep
their order.
-/

namespace TodoLists

open Std

/-- The name as a text; one that is no text counts as empty. -/
def Item.nameText (i : Item) : LooseText :=
  match i.name with
  | .str t => t
  | _ => ⟨[]⟩

def Item.HasTextName (i : Item) : Prop := ∃ t : LooseText, i.name = .str t

namespace SortKey

/-- How a key orders two items. A priority tells none apart. -/
def ordering : SortKey → Item → Item → Ordering
  | name => compareOn Item.nameText
  | status => compareOn fun i => i.status.rank
  | priority => fun _ _ => .eq

instance (k : SortKey) : TransCmp k.ordering :=
  match k with
  | name => inferInstanceAs (TransCmp (compareOn Item.nameText))
  | status => inferInstanceAs (TransCmp (compareOn fun i : Item => i.status.rank))
  | priority => { eq_swap := rfl, isLE_trans := fun _ _ => rfl }

theorem compare_eq_ordering {k : SortKey} (hk : k ≠ .priority) {a b : Item}
    (ha : k = .name → a.HasTextName) (hb : k = .name → b.HasTextName) :
    k.compare a b = .ok (k.ordering a b) := by
  cases k with
  | name =>
    obtain ⟨s, hs⟩ := ha rfl
    obtain ⟨t, ht⟩ := hb rfl
    simp only [compare, ordering, compareOn, Item.nameText, hs, ht, Json.order?]
  | status => rfl
  | priority => exact absurd rfl hk

end SortKey

namespace SortOrder

/-- How a row of keys orders two items. -/
def ordering : List SortKey → Item → Item → Ordering
  | [] => fun _ _ => .eq
  | k :: ks => compareLex k.ordering (ordering ks)

instance transCmp_ordering (ks : List SortKey) : TransCmp (ordering ks) := by
  induction ks with
  | nil => exact { eq_swap := rfl, isLE_trans := fun _ _ => rfl }
  | cons k ks ih => exact inferInstanceAs (TransCmp (compareLex k.ordering (ordering ks)))

theorem compareBy_eq_ordering {ks : List SortKey} (hks : .priority ∉ ks) {a b : Item}
    (ha : .name ∈ ks → a.HasTextName) (hb : .name ∈ ks → b.HasTextName) :
    compareBy a b ks = .ok (ordering ks a b) := by
  induction ks with
  | nil => rfl
  | cons k ks ih =>
    rw [List.mem_cons, not_or] at hks
    have hrest := ih hks.2 (fun h => ha (List.mem_cons_of_mem k h))
      fun h => hb (List.mem_cons_of_mem k h)
    have hkey : k.compare a b = .ok (k.ordering a b) :=
      SortKey.compare_eq_ordering (Ne.symm hks.1) (fun h => ha (h ▸ List.mem_cons_self))
        fun h => hb (h ▸ List.mem_cons_self)
    rw [compareBy, hkey, hrest, ordering, compareLex]
    cases k.ordering a b <;> rfl

/-! ### Stable sorting -/

section

variable (ks : List SortKey)

/-- The first pair may stand before the second. -/
def precedes (x y : ItemId × Item) : Bool := (ordering ks x.2 y.2).isLE

theorem precedes_trans (x y z : ItemId × Item) (hxy : precedes ks x y = true)
    (hyz : precedes ks y z = true) : precedes ks x z = true :=
  TransCmp.isLE_trans hxy hyz

theorem precedes_total (x y : ItemId × Item) : (precedes ks x y || precedes ks y x) = true := by
  have hswap : ordering ks y.2 x.2 = (ordering ks x.2 y.2).swap := OrientedCmp.eq_swap
  rw [precedes, precedes, hswap]
  cases ordering ks x.2 y.2 <;> rfl

theorem pairwise_mergeSort_precedes (ps : List (ItemId × Item)) :
    (ps.mergeSort (precedes ks)).Pairwise fun x y => ordering ks x.2 y.2 ≠ .gt := by
  have hsorted := List.pairwise_mergeSort (precedes_trans ks) (precedes_total ks) ps
  apply hsorted.imp
  intro x y hxy hgt
  rw [precedes, hgt] at hxy
  cases hxy

/-- Pairs that compare equal to an item keep their order. -/
theorem filter_mergeSort (i : Item) (ps : List (ItemId × Item)) :
    (ps.mergeSort (precedes ks)).filter (fun p => ordering ks p.2 i == .eq) =
      ps.filter fun p => ordering ks p.2 i == .eq := by
  have hsorted : (ps.filter fun p => ordering ks p.2 i == .eq).Pairwise
      fun x y => precedes ks x y = true := by
    apply List.pairwise_of_forall_mem_list
    intro x hx y hy
    have hxi : ordering ks x.2 i = .eq := eq_of_beq (List.mem_filter.1 hx).2
    have hyi : ordering ks y.2 i = .eq := eq_of_beq (List.mem_filter.1 hy).2
    have hxy : ordering ks x.2 y.2 = .eq := TransCmp.eq_trans hxi (OrientedCmp.eq_symm hyi)
    rw [precedes, hxy]
    rfl
  have hsub := List.sublist_mergeSort (precedes_trans ks) (precedes_total ks) hsorted
    List.filter_sublist
  have hperm := (List.mergeSort_perm ps (precedes ks)).filter fun p => ordering ks p.2 i == .eq
  have hsub' := hsub.filter fun p => ordering ks p.2 i == .eq
  rw [List.filter_filter] at hsub'
  simp only [Bool.and_self] at hsub'
  exact (hsub'.eq_of_length hperm.length_eq.symm).symm

end

/-- Without keys every pair may stand before every other one. -/
theorem mergeSort_precedes_nil (ps : List (ItemId × Item)) : ps.mergeSort (precedes []) = ps :=
  List.mergeSort_of_pairwise (List.pairwise_of_forall fun _ _ => rfl)

theorem checkSupported_eq_ok {o : SortOrder} (ho : .priority ∉ o.keys) :
    o.checkSupported = .ok () := by
  rw [checkSupported, if_neg]
  simpa using ho

/-- Sorting pairs whose names have an order. -/
theorem sort_eq {o : SortOrder} (ho : .priority ∉ o.keys) {ps : List (ItemId × Item)}
    (hnames : .name ∈ o.keys → ∀ p ∈ ps, p.2.HasTextName) :
    o.sort ps = .ok (ps.mergeSort (precedes o.keys)) := by
  have hcompare : ∀ x ∈ ps, ∀ y ∈ ps, o.compare x.2 y.2 = .ok (ordering o.keys x.2 y.2) :=
    fun x hx y hy => compareBy_eq_ordering ho (fun h => hnames h x hx) fun h => hnames h y hy
  have hpairwise : ps.Pairwise fun x y => (o.compare x.2 y.2).isOk :=
    List.pairwise_of_forall_mem_list fun x hx y hy => by
      rw [hcompare x hx y hy]
      rfl
  have hle : ∀ x ∈ ps, ∀ y ∈ ps, o.mayPrecede x.2 y.2 = precedes o.keys (id x) (id y) := by
    intro x hx y hy
    rw [mayPrecede, hcompare x hx y hy]
    rfl
  have hsort := List.map_mergeSort hle
  rw [List.map_id, List.map_id] at hsort
  rw [sort, checkSupported_eq_ok ho, if_pos hpairwise, hsort]
  rfl

end SortOrder

end TodoLists
