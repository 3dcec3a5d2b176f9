import TodoLists.Range
import TodoLists.Status

/-!
# Ranges over statuses and numbers together

A status and a number have no order between them. Over values that may be either, each comparison of
two limits, or of a limit and a value, is refused when the two are of different kinds. The upper
edges are compared only when the comparison of the lower edges leaves the question open.
-/

namespace TodoLists

/-- A value that a limit may hold. -/
inductive Value where
  | status (s : Status)
  | number (n : Int)
  deriving DecidableEq, Repr

namespace Value

def print : Value → List Char
  | status s => s.name.toList
  | number n => (toString n).toList

def sameKind : Value → Value → Bool
  | status _, status _ => true
  | number _, number _ => true
  | _, _ => false

/-- Statuses come before numbers; only comparisons within one kind are ever asked for. -/
def le : Value → Value → Bool
  | status a, status b => a ≤ b
  | number a, number b => a ≤ b
  | status _, number _ => true
  | number _, status _ => false

instance : LE Value := ⟨fun a b => a.le b = true⟩
instance : LT Value := ⟨fun a b => b.le a = false⟩
instance : DecidableLE Value := fun a b => inferInstanceAs (Decidable (a.le b = true))
instance : DecidableLT Value := fun a b => inferInstanceAs (Decidable (b.le a = false))

end Value

namespace Limit

def value? {α : Type} : Limit α → Option α
  | unbounded => none
  | including a => some a
  | excluding a => some a

/-- The answer, unless values of two kinds meet. -/
def whenSameKind (a b : Option Value) (answer : Bool) : Option Bool :=
  match a, b with
  | some a, some b => if a.sameKind b then some answer else none
  | _, _ => some answer

def lowAdmits? (l : Limit Value) (v : Value) : Option Bool :=
  whenSameKind l.value? (some v) (l.lowAdmits v)

def highAdmits? (l : Limit Value) (v : Value) : Option Bool :=
  whenSameKind l.value? (some v) (l.highAdmits v)

def lowCovers? (l m : Limit Value) : Option Bool :=
  whenSameKind l.value? m.value? (l.lowCovers m)

def highCovers? (l m : Limit Value) : Option Bool :=
  whenSameKind l.value? m.value? (l.highCovers m)

end Limit

namespace Range

def contains? (r : Range Value) (v : Value) : Option Bool :=
  (r.low.lowAdmits? v).bind fun b => if b then r.high.highAdmits? v else some false

def isSubrangeOf? (r s : Range Value) : Option Bool :=
  (s.low.lowCovers? r.low).bind fun b => if b then s.high.highCovers? r.high else some false

def union? (r s : Range Value) : Option (Range Value) := do
  let low ← r.low.lowCovers? s.low
  let high ← r.high.highCovers? s.high
  return ⟨if low then r.low else s.low, if high then r.high else s.high⟩

def intersection? (r s : Range Value) : Option (Range Value) := do
  let low ← s.low.lowCovers? r.low
  let high ← s.high.highCovers? r.high
  return ⟨if low then r.low else s.low, if high then r.high else s.high⟩

end Range

end TodoLists
