import TodoLists.Binary64

/-!
# Shortest decimal numerals

A number is written with the fewest significant digits that read back as the same number, and among
those with the digits nearest to it. The reals that read back as `m * 2 ^ e` lie between
`(m - 1/2) * 2 ^ e` and `(m + 1/2) * 2 ^ e`, or from `(m - 1/4) * 2 ^ e` on where the numbers below
are twice as dense; the ends belong to it when `m` is even. Numbers from `0.0001` up to `10 ^ 16`
are written positionally and the others with an exponent of at least two digits.
-/

namespace TodoLists.Binary64

/-- How many digits stand before the point; zeros right after the point count negatively. -/
def pointPosition (m : Nat) (e : Int) : Int :=
  let whole := magnitude m e
  if 0 < whole then (toString whole).length
  else
    let denominator := Nat.pow 2 (-e).toNat
    match (List.range 400).find? fun k => denominator ≤ m * Nat.pow 10 (k + 1) with
    | some k => -(k : Int)
    | none => 0

/-- The two neighbours of the number on the grid of multiples of `10 ^ p` that lie in its interval,
each with its distance, in units common to both. -/
def candidates (m : Nat) (e : Int) (p : Int) : List (Nat × Nat) :=
  let up2 := Nat.pow 2 (e - 2).toNat
  let down2 := Nat.pow 2 (2 - e).toNat
  let up10 := Nat.pow 10 p.toNat
  let down10 := Nat.pow 10 (-p).toNat
  let scale (quarters : Nat) := quarters * up2 * down10
  let unit := up10 * down2
  let value := scale (4 * m)
  let low := scale (if m = Nat.pow 2 52 ∧ minExponent < e then 4 * m - 1 else 4 * m - 2)
  let high := scale (4 * m + 2)
  let inside (x : Nat) := if m % 2 = 0 then low ≤ x && x ≤ high else low < x && x < high
  let d := value / unit
  ([d, d + 1].filter fun d => inside (d * unit)).map fun d =>
    (d, if d * unit ≤ value then value - d * unit else d * unit - value)

/-- The nearest candidate; of two equally near ones the even one. -/
def nearest : List (Nat × Nat) → Option Nat
  | [] => none
  | [(d, _)] => some d
  | (d, x) :: (d', x') :: _ =>
    some (if x < x' then d else if x' < x then d' else if d % 2 = 0 then d else d')

/-- The significant digits of a positive number and the position of its point. -/
def shortest (m : Nat) (e : Int) : Nat × Int :=
  let k := pointPosition m e
  let found := (List.range 17).findSome? fun (n : Nat) =>
    (nearest (candidates m e (k - (n + 1)))).map fun d => (d, k - (n + 1))
  found.getD (m, 0)

def dropTrailingZeros (ds : List Char) : List Char := (ds.reverse.dropWhile (· == '0')).reverse

/-- Digits with a point after the first `point` of them. -/
def positional (ds : List Char) (point : Int) : List Char :=
  if point ≤ 0 then '0' :: '.' :: (List.replicate (-point).toNat '0' ++ ds)
  else if ds.length ≤ point.toNat then
    ds ++ List.replicate (point.toNat - ds.length) '0' ++ ['.', '0']
  else ds.take point.toNat ++ '.' :: ds.drop point.toNat

/-- One digit, the point and the rest, and the exponent. -/
def scientific (ds : List Char) (point : Int) : List Char :=
  let x := point - 1
  let size := (toString x.natAbs).toList
  let exponent := (if x < 0 then '-' else '+') :: (if size.length < 2 then '0' :: size else size)
  match ds with
  | [] => []
  | [d] => d :: 'e' :: exponent
  | d :: rest => d :: '.' :: rest ++ 'e' :: exponent

def printMagnitude (m : Nat) (e : Int) : List Char :=
  if m = 0 then ['0', '.', '0']
  else
    let (d, p) := shortest m e
    let all := (toString d).toList
    let point := all.length + p
    let ds := dropTrailingZeros all
    if -4 < point ∧ point ≤ 16 then positional ds point else scientific ds point

def print : Binary64 → List Char
  | nan => "NaN".toList
  | infinite false => "Infinity".toList
  | infinite true => "-Infinity".toList
  | finite false m e => printMagnitude m e
  | finite true m e => '-' :: printMagnitude m e

end TodoLists.Binary64
