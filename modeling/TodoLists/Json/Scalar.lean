import TodoLists.Binary64.Shortest
import TodoLists.Json

/-!
# Scalars

Null, truth values, numbers and texts. True and false count as the numbers one and zero, and numbers
are compared by what they stand for, so `1`, `1.0` and `true` are one key.
-/

namespace TodoLists.Json

def isScalar : Json → Bool
  | arr _ => false
  | obj _ => false
  | _ => true

/-- The binary number equal to a truth value or a whole number, as mantissa and exponent; a floating
number as it is. -/
inductive Number where
  | nan
  | infinite (negative : Bool)
  | dyadic (mantissa : Int) (exponent : Int)

def number? : Json → Option Number
  | bool b => some (.dyadic (if b then 1 else 0) 0)
  | int n => some (.dyadic n 0)
  | float .nan => some .nan
  | float (.infinite s) => some (.infinite s)
  | float (.finite s m e) => some (.dyadic (if s then -(m : Int) else m) e)
  | _ => none

/-- Compares `a * 2 ^ e` with `b * 2 ^ f`. -/
def compareDyadic (a e b f : Int) : Ordering :=
  compare (a * Nat.pow 2 (e - min e f).toNat) (b * Nat.pow 2 (f - min e f).toNat)

def Number.compare : Number → Number → Ordering
  | .dyadic a e, .dyadic b f => compareDyadic a e b f
  | .infinite s, .infinite t => Ord.compare (!s) (!t)
  | .infinite s, .dyadic _ _ => if s then .lt else .gt
  | .dyadic _ _, .infinite s => if s then .gt else .lt
  | .nan, .nan => .eq
  | .nan, _ => .lt
  | _, .nan => .gt

/-- Two scalars are one and the same key. -/
def sameKey : Json → Json → Bool
  | str s, str t => s == t
  | null, null => true
  | a, b =>
    match a.number?, b.number? with
    | some x, some y => x.compare y == .eq
    | _, _ => false

@[simp] theorem sameKey_str (s t : LooseText) : sameKey (str s) (str t) = (s == t) := rfl

/-- The scalar as the name of an object's member; a container has no such name. -/
def keyText : Json → LooseText
  | null => "null"
  | bool true => "true"
  | bool false => "false"
  | int n => (toString n : String)
  | float x => String.ofList x.print
  | str s => s
  | arr _ => ""
  | obj _ => ""

end TodoLists.Json
