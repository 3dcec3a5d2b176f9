import TodoLists.Binary64.Shortest
import TodoLists.Json
import TodoLists.Text.Numeral

/-!
# Writing JSON

Files are written with one element or member to a line, two spaces deeper than the line that opens
its container, and with `[]` and `{}` for containers without any. Texts are written in printable
ASCII: everything above U+007E becomes an escape of its UTF-16 units, and so do the controls below
U+0020 that have no escape of their own. A whole number with too long a numeral cannot be written,
and the text of a value that holds one ends where it would stand.
-/

namespace TodoLists.Json

def hexDigit (n : Nat) : Char := if n < 10 then Char.ofNat (48 + n) else Char.ofNat (87 + n)

/-- The escape of one UTF-16 unit. -/
def escapeUnit (n : Nat) : List Char :=
  ['\\', 'u', hexDigit (n / 4096 % 16), hexDigit (n / 256 % 16), hexDigit (n / 16 % 16),
    hexDigit (n % 16)]

/-- A code point: one unit, or a surrogate pair above U+FFFF. -/
def escapeNumber (n : Nat) : List Char :=
  if n < 0x10000 then escapeUnit n
  else escapeUnit (0xd800 + (n - 0x10000) / 0x400) ++ escapeUnit (0xdc00 + (n - 0x10000) % 0x400)

/-- The letter that follows a backslash in place of a code point. -/
def escapeLetter? : Nat → Option Char
  | 34 => some '"'
  | 92 => some '\\'
  | 10 => some 'n'
  | 13 => some 'r'
  | 9 => some 't'
  | 8 => some 'b'
  | 12 => some 'f'
  | _ => none

def escape (n : Nat) : List Char :=
  match escapeLetter? n with
  | some c => ['\\', c]
  | none => if 32 ≤ n ∧ n < 127 then [Char.ofNat n] else escapeNumber n

/-- A text in quotes. -/
def quote (t : LooseText) : List Char := '"' :: (t.points.flatMap escape ++ ['"'])

/-- A line break and the indentation of a nesting depth. -/
def newline (depth : Nat) : List Char := '\n' :: List.replicate (2 * depth) ' '

mutual

/-- The text of a value that stands at a nesting depth, and what follows it. -/
def writeAt (depth : Nat) (rest : List Char) : Json → List Char
  | null => "null".toList ++ rest
  | bool true => "true".toList ++ rest
  | bool false => "false".toList ++ rest
  | int n => if Text.isWritable n then Text.ofInt n ++ rest else []
  | float x => x.print ++ rest
  | str s => quote s ++ rest
  | arr [] => '[' :: ']' :: rest
  | arr (e :: es) =>
    '[' :: (newline (depth + 1) ++
      writeAt (depth + 1) (writeElements (depth + 1) (newline depth ++ ']' :: rest) es) e)
  | obj [] => '{' :: '}' :: rest
  | obj ((name, v) :: ms) =>
    '{' :: (newline (depth + 1) ++ quote name ++ ':' :: ' ' ::
      writeAt (depth + 1) (writeMembers (depth + 1) (newline depth ++ '}' :: rest) ms) v)

/-- The elements after the first, and what follows them. -/
def writeElements (depth : Nat) (rest : List Char) : List Json → List Char
  | [] => rest
  | e :: es => ',' :: (newline depth ++ writeAt depth (writeElements depth rest es) e)

/-- The members after the first, and what follows them. -/
def writeMembers (depth : Nat) (rest : List Char) : List (LooseText × Json) → List Char
  | [] => rest
  | (name, v) :: ms =>
    ',' :: (newline depth ++ quote name ++ ':' :: ' ' ::
      writeAt depth (writeMembers depth rest ms) v)

end

mutual

/-- Every whole number in the value can be written. -/
def isWritable : Json → Bool
  | int n => Text.isWritable n
  | arr es => allWritable es
  | obj ms => membersWritable ms
  | _ => true

def allWritable : List Json → Bool
  | [] => true
  | e :: es => e.isWritable && allWritable es

def membersWritable : List (LooseText × Json) → Bool
  | [] => true
  | (_, v) :: ms => v.isWritable && membersWritable ms

end

/-- The text of a file that holds the value. -/
def write (v : Json) : String := String.ofList (writeAt 0 [] v)

end TodoLists.Json
