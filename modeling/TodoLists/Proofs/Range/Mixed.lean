import TodoLists.Range.Mixed

/-!
# Values of one kind

Where the values of all limits are of one kind, no comparison is refused, and the operations on
ranges over statuses and numbers together are those over the one kind. What holds of ranges over a
linear order therefore holds of them too.
-/

namespace TodoLists

variable {α : Type} [LE α] [LT α] [DecidableLE α] [DecidableLT α]

/-- The values that come from a type are a kind, and their order is that of the type. -/
structure Value.IsKind (f : α → Value) : Prop where
  sameKind : ∀ a b, (f a).sameKind (f b) = true
  le_iff : ∀ a b, f a ≤ f b ↔ a ≤ b
  lt_iff : ∀ a b, f a < f b ↔ a < b

theorem Value.isKind_status : IsKind Value.status where
  sameKind _ _ := rfl
  le_iff _ _ := decide_eq_true_iff
  lt_iff _ _ := decide_eq_false_iff_not.trans Nat.not_le

theorem Value.isKind_number : IsKind Value.number where
  sameKind _ _ := rfl
  le_iff _ _ := decide_eq_true_iff
  lt_iff _ _ := decide_eq_false_iff_not.trans Int.not_le

namespace Limit

def map {β : Type} (f : α → β) : Limit α → Limit β
  | unbounded => unbounded
  | including a => including (f a)
  | excluding a => excluding (f a)

variable {f : α → Value} (hf : Value.IsKind f) (l m : Limit α) (v : α)

include hf

theorem lowAdmits?_map : (l.map f).lowAdmits? (f v) = some (l.lowAdmits v) := by
  cases l <;>
    simp [lowAdmits?, map, value?, whenSameKind, lowAdmits, hf.sameKind, hf.le_iff, hf.lt_iff]

theorem highAdmits?_map : (l.map f).highAdmits? (f v) = some (l.highAdmits v) := by
  cases l <;>
    simp [highAdmits?, map, value?, whenSameKind, highAdmits, hf.sameKind, hf.le_iff, hf.lt_iff]

theorem lowCovers?_map : (l.map f).lowCovers? (m.map f) = some (l.lowCovers m) := by
  cases l <;> cases m <;>
    simp [lowCovers?, map, value?, whenSameKind, lowCovers, hf.sameKind, hf.le_iff, hf.lt_iff]

theorem highCovers?_map : (l.map f).highCovers? (m.map f) = some (l.highCovers m) := by
  cases l <;> cases m <;>
    simp [highCovers?, map, value?, whenSameKind, highCovers, hf.sameKind, hf.le_iff, hf.lt_iff]

end Limit

namespace Range

def map {β : Type} (f : α → β) (r : Range α) : Range β := ⟨r.low.map f, r.high.map f⟩

variable {f : α → Value} (hf : Value.IsKind f) (r s : Range α) (v : α)

include hf

theorem contains?_map : (r.map f).contains? (f v) = some (r.contains v) := by
  rw [contains?, map, Limit.lowAdmits?_map hf, Option.bind_some, Limit.highAdmits?_map hf, contains]
  cases r.low.lowAdmits v <;> rfl

theorem isSubrangeOf?_map : (r.map f).isSubrangeOf? (s.map f) = some (r.isSubrangeOf s) := by
  rw [isSubrangeOf?, map, map, Limit.lowCovers?_map hf, Option.bind_some, Limit.highCovers?_map hf,
    isSubrangeOf]
  cases s.low.lowCovers r.low <;> rfl

theorem union?_map : (r.map f).union? (s.map f) = some ((r.union s).map f) := by
  rw [union?, map, map, Limit.lowCovers?_map hf, Limit.highCovers?_map hf, union, map,
    apply_ite (Limit.map f), apply_ite (Limit.map f)]
  rfl

theorem intersection?_map :
    (r.map f).intersection? (s.map f) = some ((r.intersection s).map f) := by
  rw [intersection?, map, map, Limit.lowCovers?_map hf, Limit.highCovers?_map hf, intersection, map,
    apply_ite (Limit.map f), apply_ite (Limit.map f)]
  rfl

end Range

end TodoLists
