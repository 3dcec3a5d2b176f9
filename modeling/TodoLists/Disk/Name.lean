import TodoLists.Path

/-!
# Names on the disk

A disk knows a file by a row of bytes, at most 255 of them, and follows paths of at most 4095 bytes.
A name stands for the bytes of its UTF-8 encoding, and in it a surrogate from U+DC80 to U+DCFF for a
single byte; so a row of such surrogates that spells an encoded character names the same file as the
character. Nothing on a disk has a name with U+0000 or with any other surrogate.
-/

namespace TodoLists

inductive FileError where
  | missing
  | notFolder
  | isFolder
  | alreadyThere
  | nameTooLong
  | holdsNul
  | notEncodable
  deriving DecidableEq, Repr

/-- The path is none that a disk could follow. -/
def FileError.isBadPath : FileError → Bool
  | holdsNul => true
  | notEncodable => true
  | _ => false

namespace DiskName

def isSurrogate (n : Nat) : Bool := 0xd800 ≤ n && n < 0xe000

def isByte (n : Nat) : Bool := 0xdc80 ≤ n && n ≤ 0xdcff

/-- How many bytes a code point stands for. -/
def pointSize (n : Nat) : Nat :=
  if n < 0x80 || isByte n then 1 else if n < 0x800 then 2 else if n < 0x10000 then 3 else 4

def size (t : LooseText) : Nat := t.points.foldl (fun bytes n => bytes + pointSize n) 0

def maxNameSize : Nat := 255

def maxPathSize : Nat := 4095

/-- The last six bits of a byte that continues a character. -/
def continuation? (n : Nat) : Option Nat :=
  if 0xdc80 ≤ n ∧ n < 0xdcc0 then some (n - 0xdc80) else none

/-- The character that two bytes encode. -/
def ofTwo? (a b : Nat) : Option Nat := do
  let n := (a - 0xdcc0) * 64 + (← continuation? b)
  if 0xdcc2 ≤ a ∧ a < 0xdce0 then some n else none

/-- The character that three bytes encode. -/
def ofThree? (a b c : Nat) : Option Nat := do
  let n := ((a - 0xdce0) * 64 + (← continuation? b)) * 64 + (← continuation? c)
  if 0xdce0 ≤ a ∧ a < 0xdcf0 ∧ 0x800 ≤ n ∧ ¬isSurrogate n then some n else none

/-- The character that four bytes encode. -/
def ofFour? (a b c d : Nat) : Option Nat := do
  let n := (((a - 0xdcf0) * 64 + (← continuation? b)) * 64 + (← continuation? c)) * 64 +
    (← continuation? d)
  if 0xdcf0 ≤ a ∧ a < 0xdcf8 ∧ 0x10000 ≤ n ∧ n < 0x110000 then some n else none

/-- The character that the first points spell byte by byte, and how many points it takes. -/
def spelled? : List Nat → Option (Nat × Nat)
  | a :: b :: rest =>
    ((ofTwo? a b).map fun n => (n, 2)) <|>
      match rest with
      | c :: rest =>
        ((ofThree? a b c).map fun n => (n, 3)) <|>
          match rest with
          | d :: _ => (ofFour? a b c d).map fun n => (n, 4)
          | [] => none
      | [] => none
  | _ => none

/-- Characters that are spelled byte by byte, taken together. -/
def joinBytes : List Nat → List Nat
  | [] => []
  | n :: ns =>
    match spelled? (n :: ns) with
    | some (c, k) => c :: joinBytes (ns.drop (k - 1))
    | none => n :: joinBytes ns
termination_by ns => ns.length
decreasing_by all_goals simp only [List.length_drop, List.length_cons]; omega

/-- The one spelling of a name. -/
def normalize (t : LooseText) : LooseText := ⟨joinBytes t.points⟩

end DiskName

def Path.holdsNul (p : Path) : Bool := p.toText.points.contains 0

open DiskName in
/-- The path can be followed on a disk, as far as its length and its spelling go. -/
def Path.check (p : Path) : Except FileError Unit :=
  let t := p.toText
  if t.points.any fun n => isSurrogate n && !isByte n then .error .notEncodable
  else if p.holdsNul then .error .holdsNul
  else if maxPathSize < size t then .error .nameTooLong
  else .ok ()

end TodoLists
