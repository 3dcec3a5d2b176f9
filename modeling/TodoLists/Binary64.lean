/-!
# Binary floating-point numbers

The numbers of the 64-bit binary format, kept as sign, mantissa and exponent so that everything
about them is arithmetic on whole numbers. A decimal numeral is read as the nearest of them, a tie
going to the even mantissa.
-/

namespace TodoLists

inductive Binary64 where
  | nan
  | infinite (negative : Bool)
  /-- The number `mantissa * 2 ^ exponent`, with its sign. -/
  | finite (negative : Bool) (mantissa : Nat) (exponent : Int)
  deriving DecidableEq, Repr

namespace Binary64

/-- The smallest exponent; only there is a mantissa below `2 ^ 52`. -/
def minExponent : Int := -1074

def maxExponent : Int := 971

/-- The quotient rounded to the nearest whole number, a tie going to the even one. -/
def roundDiv (a b : Nat) : Nat :=
  let d := a / b
  let r := a % b
  if b < 2 * r || (2 * r == b && d % 2 == 1) then d + 1 else d

/-- The quotient of two positive numbers times a power of two. -/
def scaledDiv (a b : Nat) (shift : Int) : Nat :=
  if 0 ≤ shift then roundDiv (a * Nat.pow 2 shift.toNat) b
  else roundDiv a (b * Nat.pow 2 (-shift).toNat)

/-- The largest `k` with `2 ^ k ≤ a / b`, for positive numbers. -/
def quotientLog2 (a b : Nat) : Int :=
  let k : Int := (Nat.log2 a : Int) - Nat.log2 b
  let reached := if 0 ≤ k then b * Nat.pow 2 k.toNat ≤ a else b ≤ a * Nat.pow 2 (-k).toNat
  if reached then k else k - 1

/-- The number nearest to the positive quotient `a / b`. -/
def ofQuotient (negative : Bool) (a b : Nat) : Binary64 :=
  let e := max (quotientLog2 a b - 52) minExponent
  let m := scaledDiv a b (-e)
  let (m, e) := if m = Nat.pow 2 53 then (Nat.pow 2 52, e + 1) else (m, e)
  if maxExponent < e then infinite negative else finite negative m e

/-- The number nearest to `digits * 10 ^ exponent`. -/
def ofDecimal (negative : Bool) (digits : Nat) (exponent : Int) : Binary64 :=
  let size : Int := (toString digits).length
  if digits = 0 then finite negative 0 minExponent
  else if 400 < size + exponent then infinite negative
  else if size + exponent < -400 then finite negative 0 minExponent
  else if 0 ≤ exponent then ofQuotient negative (digits * Nat.pow 10 exponent.toNat) 1
  else ofQuotient negative digits (Nat.pow 10 (-exponent).toNat)

/-- What is left of a finite number when its fraction is cut off. -/
def magnitude (mantissa : Nat) (exponent : Int) : Nat :=
  if 0 ≤ exponent then mantissa * Nat.pow 2 exponent.toNat
  else mantissa / Nat.pow 2 (-exponent).toNat

/-- The whole number toward zero. -/
def truncate? : Binary64 → Option Int
  | nan => none
  | infinite _ => none
  | finite negative m e => some (if negative then -(magnitude m e : Int) else magnitude m e)

def isZero : Binary64 → Bool
  | finite _ m _ => m == 0
  | _ => false

end Binary64

end TodoLists
