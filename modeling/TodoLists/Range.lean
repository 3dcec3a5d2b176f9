/-!
# Ranges

A range is a pair of limits over any ordered type, each of which includes its value, excludes it, or
is absent. Two comparisons carry everything else: whether a limit lets a value through, and whether
one limit is at least as permissive as another. At equal values an including limit is the more
permissive one on both sides, so a union never loses a value. Nothing asks for the low value to be
below the high one; an inverted range is a range that holds nothing.
-/

namespace TodoLists

inductive Limit (α : Type) where
  | unbounded
  | including (value : α)
  | excluding (value : α)
  deriving DecidableEq, Repr

namespace Limit

variable {α : Type} [LE α] [LT α] [DecidableLE α] [DecidableLT α]

/-- As a lower edge, the limit lets the value through. -/
def lowAdmits : Limit α → α → Bool
  | unbounded, _ => true
  | including a, v => a ≤ v
  | excluding a, v => a < v

/-- As an upper edge, the limit lets the value through. -/
def highAdmits : Limit α → α → Bool
  | unbounded, _ => true
  | including a, v => v ≤ a
  | excluding a, v => v < a

/-- As lower edges, the first limit is at least as permissive as the second. -/
def lowCovers : Limit α → Limit α → Bool
  | unbounded, _ => true
  | _, unbounded => false
  | excluding a, including b => a < b
  | including a, including b => a ≤ b
  | including a, excluding b => a ≤ b
  | excluding a, excluding b => a ≤ b

/-- As upper edges, the first limit is at least as permissive as the second. -/
def highCovers : Limit α → Limit α → Bool
  | unbounded, _ => true
  | _, unbounded => false
  | excluding a, including b => b < a
  | including a, including b => b ≤ a
  | including a, excluding b => b ≤ a
  | excluding a, excluding b => b ≤ a

@[simp] theorem lowCovers_unbounded (l : Limit α) : unbounded.lowCovers l = true := rfl

@[simp] theorem highCovers_unbounded (l : Limit α) : unbounded.highCovers l = true := rfl

omit [LE α] [LT α] [DecidableLE α] [DecidableLT α] in
/-- The value of the limit, if it has one, is of a kind. -/
def all (p : α → Bool) : Limit α → Bool
  | unbounded => true
  | including a => p a
  | excluding a => p a

omit [LE α] [LT α] [DecidableLE α] [DecidableLT α] in
/-- The value of a limit in a given spelling; an absent limit is spelt `inf`. -/
def print (render : α → List Char) : Limit α → List Char
  | unbounded => "inf".toList
  | including a => render a
  | excluding a => render a

end Limit

structure Range (α : Type) where
  low : Limit α
  high : Limit α
  deriving DecidableEq, Repr

namespace Range

variable {α : Type}

def only (a : α) : Range α := ⟨.including a, .including a⟩

def everything : Range α := ⟨.unbounded, .unbounded⟩

/-- The values of both limits are of a kind. -/
def all (p : α → Bool) (r : Range α) : Bool := r.low.all p && r.high.all p

section Ordered

variable [LE α] [LT α] [DecidableLE α] [DecidableLT α]

def contains (r : Range α) (v : α) : Bool := r.low.lowAdmits v && r.high.highAdmits v

/-- Both edges of the first range are at least as tight as those of the second. -/
def isSubrangeOf (r s : Range α) : Bool := s.low.lowCovers r.low && s.high.highCovers r.high

/-- The smallest single range over both; it covers a gap between them as well. -/
def union (r s : Range α) : Range α :=
  ⟨if r.low.lowCovers s.low then r.low else s.low,
    if r.high.highCovers s.high then r.high else s.high⟩

def intersection (r s : Range α) : Range α :=
  ⟨if s.low.lowCovers r.low then r.low else s.low,
    if s.high.highCovers r.high then r.high else s.high⟩

@[simp] theorem contains_everything (v : α) : (everything : Range α).contains v = true := rfl

end Ordered

/-- Query notation: a range pinned to one included value is that value, any other range is
bracketed, round where a limit is excluded and square otherwise. -/
def print [DecidableEq α] (render : α → List Char) (r : Range α) : List Char :=
  let bracketed :=
    (match r.low with | .excluding _ => '(' | _ => '[') :: (r.low.print render ++
      " ... ".toList ++ r.high.print render ++
      [match r.high with | .excluding _ => ')' | _ => ']'])
  match r.low with
  | .including a => if r.high = .including a then render a else bracketed
  | _ => bracketed

theorem print_only [DecidableEq α] (render : α → List Char) (a : α) :
    (only a).print render = render a := by simp [print, only]

end Range

end TodoLists
