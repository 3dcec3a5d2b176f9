import TodoLists.Proofs.Range.Edges
import TodoLists.Status
import Mathlib.Order.Lattice

/-!
# The lattice of ranges

Ranges over a linear order are a distributive lattice, with the union for its join, the intersection
for its meet and "is a subrange of" for its order. A range is determined by the places of its two
edges, of which the lower one is compared the other way round, and pairs of such places are a
distributive lattice already. None of this asks what a range contains: two inverted ranges with
different edges are different ranges, though both are empty.
-/

namespace TodoLists

/-- Statuses are in linear order, so the ranges of status filters are such a lattice. -/
instance : LinearOrder Status where
  le_refl a := Nat.le_refl a.rank
  le_trans _ _ _ := Nat.le_trans
  le_antisymm _ _ hab hba := Status.rank_inj.1 (Nat.le_antisymm hab hba)
  le_total a b := Nat.le_total a.rank b.rank
  lt_iff_le_not_ge _ _ := Nat.lt_iff_le_and_not_ge
  toDecidableLE := inferInstance
  toDecidableLT := inferInstance
  toDecidableEq := inferInstance

namespace Range

variable {α : Type}

/-- The edges of a range, larger when the range is wider. -/
def places (r : Range α) : (WithBot (Side α))ᵒᵈ × WithTop (Side α) :=
  (OrderDual.toDual r.low.lowPlace, r.high.highPlace)

theorem places_injective : Function.Injective (places (α := α)) := by
  intro r s h
  obtain ⟨hlow, hhigh⟩ := Prod.mk.inj h
  cases r
  cases s
  exact congrArg₂ Range.mk (Limit.lowPlace_injective (OrderDual.toDual.injective hlow))
    (Limit.highPlace_injective hhigh)

variable [LinearOrder α]

instance : LE (Range α) := ⟨fun r s => r.isSubrangeOf s = true⟩

instance : LT (Range α) := ⟨fun r s => r ≤ s ∧ ¬ s ≤ r⟩

instance : Max (Range α) := ⟨union⟩

instance : Min (Range α) := ⟨intersection⟩

theorem le_iff_isSubrangeOf {r s : Range α} : r ≤ s ↔ r.isSubrangeOf s = true := Iff.rfl

theorem sup_eq_union (r s : Range α) : r ⊔ s = r.union s := rfl

theorem inf_eq_intersection (r s : Range α) : r ⊓ s = r.intersection s := rfl

theorem places_le_places {r s : Range α} : r.places ≤ s.places ↔ r ≤ s := by
  rw [le_iff_isSubrangeOf, isSubrangeOf_iff]
  rfl

theorem places_lt_places {r s : Range α} : r.places < s.places ↔ r < s := by
  rw [lt_iff_le_not_ge, places_le_places, places_le_places]
  rfl

theorem places_sup (r s : Range α) : (r ⊔ s).places = r.places ⊔ s.places :=
  Prod.ext (congrArg OrderDual.toDual (lowPlace_union r s)) (highPlace_union r s)

theorem places_inf (r s : Range α) : (r ⊓ s).places = r.places ⊓ s.places :=
  Prod.ext (congrArg OrderDual.toDual (lowPlace_intersection r s)) (highPlace_intersection r s)

instance : DistribLattice (Range α) :=
  places_injective.distribLattice places places_le_places places_lt_places places_sup places_inf

/-- Union and intersection are commutative, associative and idempotent, absorb each other and
distribute over each other. The subrange order is a partial order, and it is the order of this
lattice. -/
theorem union_intersection_lattice (a b c : Range α) :
    (a.union b = b.union a ∧ a.intersection b = b.intersection a) ∧
    ((a.union b).union c = a.union (b.union c) ∧
      (a.intersection b).intersection c = a.intersection (b.intersection c)) ∧
    (a.union a = a ∧ a.intersection a = a) ∧
    (a.union (a.intersection b) = a ∧ a.intersection (a.union b) = a) ∧
    (a.intersection (b.union c) = (a.intersection b).union (a.intersection c) ∧
      a.union (b.intersection c) = (a.union b).intersection (a.union c)) ∧
    (a.isSubrangeOf a = true ∧
      (a.isSubrangeOf b = true → b.isSubrangeOf a = true → a = b) ∧
      (a.isSubrangeOf b = true → b.isSubrangeOf c = true → a.isSubrangeOf c = true)) ∧
    (a.isSubrangeOf b = true ↔ a.union b = b) ∧
    (a.isSubrangeOf b = true ↔ a.intersection b = a) := by
  simp only [← sup_eq_union, ← inf_eq_intersection, ← le_iff_isSubrangeOf]
  exact ⟨⟨sup_comm a b, inf_comm a b⟩, ⟨sup_assoc a b c, inf_assoc a b c⟩,
    ⟨sup_idem a, inf_idem a⟩, ⟨sup_inf_self, inf_sup_self⟩,
    ⟨inf_sup_left a b c, sup_inf_left a b c⟩, ⟨le_rfl, le_antisymm, le_trans⟩,
    sup_eq_right.symm, inf_eq_left.symm⟩

/-- A status, the statuses after the first, and all statuses. -/
theorem union_intersection_lattice_statuses :
    let a : Range Status := only .queuing
    let b : Range Status := ⟨.excluding .waiting, .including .completed⟩
    (a.isSubrangeOf b = true ∧ b.isSubrangeOf everything = true) ∧
      a.isSubrangeOf everything = true ∧ a.union b = b ∧ a.intersection b = a := by
  intro a b
  have hab : a.isSubrangeOf b = true := by decide
  have hb : b.isSubrangeOf everything = true := by decide
  obtain ⟨-, -, -, -, -, ⟨-, -, htrans⟩, hunion, hintersection⟩ :=
    union_intersection_lattice a b everything
  exact ⟨⟨hab, hb⟩, htrans hab hb, hunion.1 hab, hintersection.1 hab⟩

end Range

end TodoLists
