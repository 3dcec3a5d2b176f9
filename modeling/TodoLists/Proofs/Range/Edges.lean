import TodoLists.Range
import Mathlib.Data.Prod.Lex
import Mathlib.Order.WithBot

/-!
# Limits as places on a line

Over a linear order every value has two sides, and a limit stands at one of them: as a lower edge it
stands below its value when it includes it and above when it excludes it, as an upper edge the other
way round. An absent limit stands at the end of the line. Both comparisons of limits and both
comparisons of a limit with a value only say which place comes first, so that the edges of a union
and of an intersection are minima and maxima of places.
-/

namespace TodoLists

/-- The sides of the values in order, the one below each value directly before the one above it. -/
abbrev Side (α : Type) := α ×ₗ Bool

namespace Side

variable {α : Type} [LinearOrder α] {a b : α}

def below (a : α) : Side α := toLex (a, false)

def above (a : α) : Side α := toLex (a, true)

@[simp] theorem below_le_below : below a ≤ below b ↔ a ≤ b := by
  rw [below, below, Prod.Lex.toLex_le_toLex]
  simpa using le_iff_lt_or_eq.symm

@[simp] theorem above_le_above : above a ≤ above b ↔ a ≤ b := by
  rw [above, above, Prod.Lex.toLex_le_toLex]
  simpa using le_iff_lt_or_eq.symm

@[simp] theorem below_le_above : below a ≤ above b ↔ a ≤ b := by
  rw [below, above, Prod.Lex.toLex_le_toLex]
  simpa using le_iff_lt_or_eq.symm

@[simp] theorem above_le_below : above a ≤ below b ↔ a < b := by
  rw [above, below, Prod.Lex.toLex_le_toLex]
  simp

end Side

namespace Limit

variable {α : Type}

/-- Where the limit stands as a lower edge. -/
def lowPlace : Limit α → WithBot (Side α)
  | unbounded => ⊥
  | including a => Side.below a
  | excluding a => Side.above a

/-- Where the limit stands as an upper edge. -/
def highPlace : Limit α → WithTop (Side α)
  | unbounded => ⊤
  | including a => Side.above a
  | excluding a => Side.below a

theorem lowPlace_injective : Function.Injective (lowPlace (α := α)) := by
  intro l m h
  cases l <;> cases m <;> simp_all [lowPlace, Side.below, Side.above]

theorem highPlace_injective : Function.Injective (highPlace (α := α)) := by
  intro l m h
  cases l <;> cases m <;> simp_all [highPlace, Side.below, Side.above]

variable [LinearOrder α] {l m : Limit α} {v : α}

theorem lowCovers_iff : l.lowCovers m = true ↔ l.lowPlace ≤ m.lowPlace := by
  cases l <;> cases m <;> simp [lowCovers, lowPlace]

theorem highCovers_iff : l.highCovers m = true ↔ m.highPlace ≤ l.highPlace := by
  cases l <;> cases m <;> simp [highCovers, highPlace]

theorem lowAdmits_iff : l.lowAdmits v = true ↔ l.lowPlace ≤ Side.below v := by
  cases l <;> simp [lowAdmits, lowPlace]

theorem highAdmits_iff : l.highAdmits v = true ↔ Side.above v ≤ l.highPlace := by
  cases l <;> simp [highAdmits, highPlace]

end Limit

namespace Range

open Limit

variable {α : Type} [LinearOrder α] (r s : Range α)

theorem isSubrangeOf_iff : r.isSubrangeOf s = true ↔
    s.low.lowPlace ≤ r.low.lowPlace ∧ r.high.highPlace ≤ s.high.highPlace := by
  rw [isSubrangeOf, Bool.and_eq_true, lowCovers_iff, highCovers_iff]

theorem contains_iff (v : α) : r.contains v = true ↔
    r.low.lowPlace ≤ Side.below v ∧ Side.above v ≤ r.high.highPlace := by
  rw [contains, Bool.and_eq_true, lowAdmits_iff, highAdmits_iff]

/-! ### The edges of a union and of an intersection -/

theorem lowPlace_union :
    (r.union s).low.lowPlace = min r.low.lowPlace s.low.lowPlace := by
  rw [union, apply_ite lowPlace, min_def]
  simp only [lowCovers_iff]

theorem highPlace_union :
    (r.union s).high.highPlace = max r.high.highPlace s.high.highPlace := by
  rw [union, apply_ite highPlace, max_comm, max_def]
  simp only [highCovers_iff]

theorem lowPlace_intersection :
    (r.intersection s).low.lowPlace = max r.low.lowPlace s.low.lowPlace := by
  rw [intersection, apply_ite lowPlace, max_comm, max_def]
  simp only [lowCovers_iff]

theorem highPlace_intersection :
    (r.intersection s).high.highPlace = min r.high.highPlace s.high.highPlace := by
  rw [intersection, apply_ite highPlace, min_def]
  simp only [highCovers_iff]

end Range

end TodoLists
