import TodoLists.Filter

/-!
# What filters mean

A filter without a priority has a truth value on every item, and that is what looking at its parts
from the left finds. A priority anywhere in the tree is noticed before any item is looked at, also
where looking from the left would never come to it.
-/

namespace TodoLists.Filter

@[elab_as_elim]
theorem induction_on_parts {P : Filter → Prop} (f : Filter) (all : P all) (none : P none)
    (status : ∀ r, P (status r)) (priority : ∀ r, P (priority r)) (tag : ∀ t, P (tag t))
    (name : ∀ n, P (name n)) (and : ∀ fs, (∀ f ∈ fs, P f) → P (and fs))
    (or : ∀ fs, (∀ f ∈ fs, P f) → P (or fs)) (not : ∀ f, P f → P (not f)) : P f :=
  Filter.rec (motive_2 := fun fs => ∀ f ∈ fs, P f) all none status priority tag name and or not
    (fun _ h => absurd h List.not_mem_nil)
    (fun _ _ hf hfs => List.forall_mem_cons.2 ⟨hf, hfs⟩) f

mutual

/-- The filter is a priority or has one among its parts. -/
def hasPriority : Filter → Bool
  | priority _ => true
  | and fs => anyHasPriority fs
  | or fs => anyHasPriority fs
  | not f => f.hasPriority
  | _ => false

def anyHasPriority : List Filter → Bool
  | [] => false
  | f :: fs => f.hasPriority || anyHasPriority fs

end

mutual

/-- The truth value of a filter on an item; a priority is true of none. -/
def holds (i : Item) : Filter → Bool
  | all => true
  | none => false
  | status r => r.contains i.status
  | priority _ => false
  | tag t => i.hasTag t
  | name n => i.isNamed n
  | and fs => allHold i fs
  | or fs => anyHolds i fs
  | not f => !f.holds i

def allHold (i : Item) : List Filter → Bool
  | [] => true
  | f :: fs => f.holds i && allHold i fs

def anyHolds (i : Item) : List Filter → Bool
  | [] => false
  | f :: fs => f.holds i || anyHolds i fs

end

theorem anyHasPriority_eq_any (fs : List Filter) : anyHasPriority fs = fs.any hasPriority := by
  induction fs with
  | nil => rfl
  | cons f fs ih => rw [anyHasPriority, ih, List.any_cons]

theorem hasPriority_of_mem {fs : List Filter} (h : anyHasPriority fs = false) {f : Filter}
    (hf : f ∈ fs) : f.hasPriority = false := by
  rw [anyHasPriority_eq_any, List.any_eq_false] at h
  exact Bool.eq_false_iff.2 (h f hf)

theorem anyHolds_eq_any (i : Item) (fs : List Filter) : anyHolds i fs = fs.any (holds i) := by
  induction fs with
  | nil => rfl
  | cons f fs ih => rw [anyHolds, ih, List.any_cons]

/-! ### Looking for priorities -/

/-- What is answered before any item is looked at. -/
def support (refused : Bool) : Except Unsupported Unit :=
  if refused then .error .filterByPriority else .ok ()

theorem support_or (b c : Bool) : support (b || c) = (support b >>= fun _ => support c) := by
  cases b <;> rfl

theorem checkAllSupported_of_parts {fs : List Filter}
    (h : ∀ f ∈ fs, f.checkSupported = support f.hasPriority) :
    checkAllSupported fs = support (anyHasPriority fs) := by
  induction fs with
  | nil => rfl
  | cons f fs ih =>
    obtain ⟨hf, hfs⟩ := List.forall_mem_cons.1 h
    rw [checkAllSupported, hf, ih hfs, anyHasPriority, support_or]

theorem checkSupported_eq (f : Filter) : f.checkSupported = support f.hasPriority := by
  induction f using induction_on_parts with
  | all | none | status | tag | name | priority => rfl
  | and fs ih | or fs ih => exact checkAllSupported_of_parts ih
  | not f ih => exact ih

theorem checkAllSupported_eq (fs : List Filter) :
    checkAllSupported fs = support (anyHasPriority fs) :=
  checkAllSupported_of_parts fun f _ => checkSupported_eq f

/-! ### Looking at an item -/

section

variable (i : Item)

theorem allMatch?_of_parts {fs : List Filter} (h : ∀ f ∈ fs, f.matches? i = .ok (f.holds i)) :
    allMatch? i fs = .ok (allHold i fs) := by
  induction fs with
  | nil => rfl
  | cons f fs ih =>
    obtain ⟨hf, hfs⟩ := List.forall_mem_cons.1 h
    rw [allMatch?, hf, ih hfs, allHold]
    cases f.holds i <;> rfl

theorem anyMatches?_of_parts {fs : List Filter} (h : ∀ f ∈ fs, f.matches? i = .ok (f.holds i)) :
    anyMatches? i fs = .ok (anyHolds i fs) := by
  induction fs with
  | nil => rfl
  | cons f fs ih =>
    obtain ⟨hf, hfs⟩ := List.forall_mem_cons.1 h
    rw [anyMatches?, hf, ih hfs, anyHolds]
    cases f.holds i <;> rfl

/-- Without a priority in it, a filter that is looked at from the left comes to its truth value. -/
theorem matches?_eq_holds {f : Filter} (h : f.hasPriority = false) :
    f.matches? i = .ok (f.holds i) := by
  induction f using induction_on_parts with
  | all | none | status | tag | name => rfl
  | priority r => cases h
  | and fs ih => exact allMatch?_of_parts i fun f hf => ih f hf (hasPriority_of_mem h hf)
  | or fs ih => exact anyMatches?_of_parts i fun f hf => ih f hf (hasPriority_of_mem h hf)
  | not f ih =>
    rw [matches?, ih h, holds]
    rfl

end

end TodoLists.Filter
