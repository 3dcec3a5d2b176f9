import TodoLists.Json.Scalar

/-!
# Equality and order of values

Numbers are equal when they stand for the same number, and objects when they have the same members
in whatever order. Only texts, numbers and arrays have an order. Arrays are ordered by the first
elements that differ, so it matters only whether those have an order. NaN is neither smaller nor
greater than any number.
-/

namespace TodoLists.Json

mutual

def same : Json → Json → Bool
  | arr es, arr fs => sameElements es fs
  | obj ms, obj ns => ms.length == ns.length && sameMembers ms ns
  | a, b => a.sameKey b

def sameElements : List Json → List Json → Bool
  | [], [] => true
  | e :: es, f :: fs => same e f && sameElements es fs
  | _, _ => false

/-- Every member of the first object is one of the second. -/
def sameMembers : List (LooseText × Json) → List (LooseText × Json) → Bool
  | [], _ => true
  | (name, v) :: ms, ns =>
    (match ns.find? fun n => n.1 == name with
      | some n => same v n.2
      | none => false) && sameMembers ms ns

end

def Number.order : Number → Number → Ordering
  | .nan, _ => .eq
  | _, .nan => .eq
  | a, b => a.compare b

mutual

/-- How two values are ordered, if they are. -/
def order? : Json → Json → Option Ordering
  | str s, str t => some (compare s t)
  | arr es, arr fs => orderElements? es fs
  | a, b => do return (← a.number?).order (← b.number?)

def orderElements? : List Json → List Json → Option Ordering
  | [], [] => some .eq
  | [], _ :: _ => some .lt
  | _ :: _, [] => some .gt
  | e :: es, f :: fs => if same e f then orderElements? es fs else order? e f

end

/-- A value that may stand before another one. -/
def mayPrecede (a b : Json) : Bool := (a.order? b).any (·.isLE)

/-- The values from the smallest on, if any two of them have an order. -/
def sort? (vs : List Json) : Option (List Json) :=
  if vs.Pairwise fun a b => (a.order? b).isSome then some (vs.mergeSort mayPrecede) else none

end TodoLists.Json
