import TodoLists.Filter

/-!
# Splicing

Joining two filters takes up the parts of an operand that is a conjunction, or a disjunction, itself.
How a chain of operands was put together is therefore not to be seen in the tree. Nor does it show
on an item: the parts are looked at in the order of the operands, and looking stops at the part
where it would have stopped, so a priority is met in one tree if it is met in the other.
-/

namespace TodoLists.Filter

theorem both_assoc (f g h : Filter) : (f.both g).both h = f.both (g.both h) := by
  show and ((f.both g).conjuncts ++ h.conjuncts) = and (f.conjuncts ++ (g.both h).conjuncts)
  rw [conjuncts_both, conjuncts_both, List.append_assoc]

theorem either_assoc (f g h : Filter) : (f.either g).either h = f.either (g.either h) := by
  show or ((f.either g).disjuncts ++ h.disjuncts) = or (f.disjuncts ++ (g.either h).disjuncts)
  rw [disjuncts_either, disjuncts_either, List.append_assoc]

variable (i : Item)

/-! ### Parts one after another -/

theorem allMatch?_append (fs gs : List Filter) : allMatch? i (fs ++ gs) =
    (do if ← allMatch? i fs then allMatch? i gs else return false) := by
  induction fs with
  | nil => rfl
  | cons f fs ih =>
    rw [List.cons_append, allMatch?, allMatch?, ih]
    rcases f.matches? i with e | ⟨_ | _⟩ <;> rfl

theorem anyMatches?_append (fs gs : List Filter) : anyMatches? i (fs ++ gs) =
    (do if ← anyMatches? i fs then return true else anyMatches? i gs) := by
  induction fs with
  | nil => rfl
  | cons f fs ih =>
    rw [List.cons_append, anyMatches?, anyMatches?, ih]
    rcases f.matches? i with e | ⟨_ | _⟩ <;> rfl

theorem allMatch?_singleton (f : Filter) : allMatch? i [f] = f.matches? i := by
  rw [allMatch?]
  rcases f.matches? i with e | ⟨_ | _⟩ <;> rfl

theorem anyMatches?_singleton (f : Filter) : anyMatches? i [f] = f.matches? i := by
  rw [anyMatches?]
  rcases f.matches? i with e | ⟨_ | _⟩ <;> rfl

/-- A filter and the conjunction of its parts are the same on every item, whether or not the filter
is a conjunction. -/
theorem allMatch?_conjuncts (f : Filter) : allMatch? i f.conjuncts = f.matches? i := by
  cases f with
  | and fs => rw [conjuncts, matches?]
  | all | none | status | priority | tag | name | or | not => exact allMatch?_singleton i _

theorem anyMatches?_disjuncts (f : Filter) : anyMatches? i f.disjuncts = f.matches? i := by
  cases f with
  | or fs => rw [disjuncts, matches?]
  | all | none | status | priority | tag | name | and | not => exact anyMatches?_singleton i _

theorem matches?_both (f g : Filter) :
    (f.both g).matches? i = (do if ← f.matches? i then g.matches? i else return false) := by
  rw [both, matches?, allMatch?_append, allMatch?_conjuncts, allMatch?_conjuncts]

theorem matches?_either (f g : Filter) :
    (f.either g).matches? i = (do if ← f.matches? i then return true else g.matches? i) := by
  rw [either, matches?, anyMatches?_append, anyMatches?_disjuncts, anyMatches?_disjuncts]

/-- Neither the tree nor the outcome on an item tells how a chain of operands was put together. The
outcome is that of the first operand and then, unless that settles it, of the second. -/
theorem splicing_invisible (f g h : Filter) :
    (f.both g).both h = f.both (g.both h) ∧
    (f.either g).either h = f.either (g.either h) ∧
    (f.both g).matches? i = (do if ← f.matches? i then g.matches? i else return false) ∧
    (f.either g).matches? i = (do if ← f.matches? i then return true else g.matches? i) :=
  ⟨both_assoc f g h, either_assoc f g h, matches?_both i f g, matches?_either i f g⟩

end TodoLists.Filter
