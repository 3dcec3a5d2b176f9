import TodoLists.Proofs.Range.Edges
import Mathlib.Order.MinMax

/-!
# What ranges contain

An intersection contains what both ranges contain. A union is a single range, so it contains the gap
between two ranges that have nothing in common; where they have a value in common there is no gap,
and the union contains what one of the two contains. An inverted range contains nothing, but its
edges still count: the union of two inverted ranges may contain something.
-/

namespace TodoLists.Range

open Limit

variable {α : Type} [LinearOrder α] {a b : Range α} {u v : α}

theorem contains_intersection_iff :
    (a.intersection b).contains v = true ↔ a.contains v = true ∧ b.contains v = true := by
  simp only [contains_iff, lowPlace_intersection, highPlace_intersection, max_le_iff, le_min_iff]
  exact and_and_and_comm

/-- A value is in the union when a lower edge and an upper edge let it through, perhaps of different
ranges. -/
theorem contains_union_iff : (a.union b).contains v = true ↔
    (a.low.lowAdmits v = true ∨ b.low.lowAdmits v = true) ∧
      (a.high.highAdmits v = true ∨ b.high.highAdmits v = true) := by
  simp only [contains_iff, lowPlace_union, highPlace_union, min_le_iff, le_max_iff, lowAdmits_iff,
    highAdmits_iff]

theorem contains_union (h : a.contains v = true ∨ b.contains v = true) :
    (a.union b).contains v = true := by
  simp only [contains, Bool.and_eq_true] at h
  rw [contains_union_iff]
  rcases h with ⟨hlow, hhigh⟩ | ⟨hlow, hhigh⟩
  · exact ⟨Or.inl hlow, Or.inl hhigh⟩
  · exact ⟨Or.inr hlow, Or.inr hhigh⟩

theorem lowAdmits_of_le {l : Limit α} (huv : u ≤ v) (hu : l.lowAdmits u = true) :
    l.lowAdmits v = true := by
  rw [lowAdmits_iff] at hu ⊢
  exact hu.trans (WithBot.coe_le_coe.2 (Side.below_le_below.2 huv))

theorem highAdmits_of_le {l : Limit α} (huv : u ≤ v) (hv : l.highAdmits v = true) :
    l.highAdmits u = true := by
  rw [highAdmits_iff] at hv ⊢
  exact (WithTop.coe_le_coe.2 (Side.above_le_above.2 huv)).trans hv

/-- A value between the lower edge of one range and the upper edge of another is in one of them,
provided there is a value in both. -/
theorem contains_of_common (ha : a.contains u = true) (hb : b.contains u = true)
    (hlow : a.low.lowAdmits v = true) (hhigh : b.high.highAdmits v = true) :
    a.contains v = true ∨ b.contains v = true := by
  simp only [contains, Bool.and_eq_true] at ha hb ⊢
  rcases le_total v u with hvu | huv
  · exact Or.inl ⟨hlow, highAdmits_of_le hvu ha.2⟩
  · exact Or.inr ⟨lowAdmits_of_le huv hb.1, hhigh⟩

theorem contains_union_iff_of_common (ha : a.contains u = true) (hb : b.contains u = true) :
    (a.union b).contains v = true ↔ a.contains v = true ∨ b.contains v = true := by
  refine ⟨fun h => ?_, contains_union⟩
  rw [contains_union_iff] at h
  rcases h with ⟨hlow | hlow, hhigh | hhigh⟩
  · exact Or.inl (Bool.and_eq_true_iff.2 ⟨hlow, hhigh⟩)
  · exact contains_of_common ha hb hlow hhigh
  · exact (contains_of_common hb ha hlow hhigh).symm
  · exact Or.inr (Bool.and_eq_true_iff.2 ⟨hlow, hhigh⟩)

/-- Ranges without a common value may leave a gap. -/
example : ((Range.only 1).union (only 3)).contains (2 : Int) = true := by decide

theorem contains_of_isSubrangeOf (h : a.isSubrangeOf b = true) (hv : a.contains v = true) :
    b.contains v = true := by
  rw [isSubrangeOf_iff] at h
  rw [contains_iff] at hv ⊢
  exact ⟨h.1.trans hv.1, hv.2.trans h.2⟩

/-- What the operations on ranges mean for the values that ranges contain. -/
theorem operations_on_values (a b : Range α) :
    (∀ v, (a.intersection b).contains v = true ↔ a.contains v = true ∧ b.contains v = true) ∧
    (∀ v, (a.union b).contains v = true ↔
      (a.low.lowAdmits v = true ∨ b.low.lowAdmits v = true) ∧
        (a.high.highAdmits v = true ∨ b.high.highAdmits v = true)) ∧
    (∀ v, a.contains v = true ∨ b.contains v = true → (a.union b).contains v = true) ∧
    ((∃ u, a.contains u = true ∧ b.contains u = true) →
      ∀ v, (a.union b).contains v = true ↔ a.contains v = true ∨ b.contains v = true) ∧
    (a.isSubrangeOf b = true → ∀ v, a.contains v = true → b.contains v = true) := by
  refine ⟨fun _ => contains_intersection_iff, fun _ => contains_union_iff, fun _ => contains_union,
    ?_, fun h _ => contains_of_isSubrangeOf h⟩
  rintro ⟨u, ha, hb⟩ v
  exact contains_union_iff_of_common ha hb

/-- The ranges overlap in 4 alone, and the second one goes on without an end. -/
theorem operations_on_values_overlap :
    let a : Range Int := ⟨.including 1, .excluding 5⟩
    let b : Range Int := ⟨.excluding 3, .unbounded⟩
    (∃ u, a.contains u = true ∧ b.contains u = true) ∧
      (∀ v, (a.union b).contains v = true ↔ a.contains v = true ∨ b.contains v = true) ∧
      (only 2).isSubrangeOf a = true ∧ ∀ v, (only 2).contains v = true → a.contains v = true := by
  intro a b
  have hcommon : ∃ u, a.contains u = true ∧ b.contains u = true := ⟨4, by decide⟩
  have hsub : (only 2).isSubrangeOf a = true := by decide
  exact ⟨hcommon, (operations_on_values a b).2.2.2.1 hcommon, hsub,
    (operations_on_values (only 2) a).2.2.2.2 hsub⟩

end TodoLists.Range
