import TodoLists.Text.Blank
import TodoLists.Text.Digit

/-!
# Reading whole numbers

A numeral is one optional sign and then decimal digits of any script, in which single underscores
may stand between digits. White space around it is skipped. A numeral of more than `maxDigits`
digits is neither read nor written.
-/

namespace TodoLists.Text

/-- The longest numeral that is read or written. -/
def maxDigits : Nat := 4300

/-- The values of the digits of a text in which single underscores may stand between digits. -/
def digitValues? : List Char → Option (List Nat)
  | [] => none
  | [c] => (digitValue? c).map ([·])
  | c :: '_' :: cs => do return (← digitValue? c) :: (← digitValues? cs)
  | c :: cs => do return (← digitValue? c) :: (← digitValues? cs)

/-- The number that a row of digit values stands for. -/
def ofDigitValues (ds : List Nat) : Nat := ds.foldl (fun n d => 10 * n + d) 0

/-- A numeral without sign. -/
def readNat? (s : List Char) : Option Nat := do
  let ds ← digitValues? s
  if ds.length ≤ maxDigits then some (ofDigitValues ds) else none

/-- A numeral with an optional sign and nothing around it. -/
def readSigned? : List Char → Option Int
  | '+' :: cs => (readNat? cs).map Int.ofNat
  | '-' :: cs => (readNat? cs).map fun n => -(n : Int)
  | cs => (readNat? cs).map Int.ofNat

/-- A numeral with white space around it. -/
def readInt? (s : List Char) : Option Int := readSigned? (trim isWhiteSpace s)

/-- The decimal numeral of a whole number. -/
def ofInt (n : Int) : List Char := (toString n).toList

/-- The numeral of the number is not too long. -/
def isWritable (n : Int) : Bool := (ofInt n).countP isDigit ≤ maxDigits

end TodoLists.Text
