import TodoLists.Json
import TodoLists.Text.Numeral

/-!
# Reading JSON

A reader for the whole of JSON and the three numbers `NaN`, `Infinity` and `-Infinity` besides.
Whole numbers are read exactly, up to the longest numeral; a number with a fraction or an exponent
is read as the nearest binary floating-point number. An escaped surrogate pair is one character, and
an escaped surrogate without its partner stays in the text as it is.

Each step returns what is left of the text with the proof that it is shorter, so the reader ends
because the text does.
-/

namespace TodoLists.Json

inductive ReadError where
  | malformed
  | numeralTooLong
  deriving DecidableEq, Repr

/-- What is left after something has been read. -/
abbrev Shorter (s : List Char) := { r : List Char // r.length < s.length }

def isSpace (c : Char) : Bool := c == ' ' || c == '\t' || c == '\n' || c == '\r'

def skipSpace (s : List Char) : List Char := s.dropWhile isSpace

theorem length_dropWhile_le {α : Type} (p : α → Bool) (s : List α) :
    (s.dropWhile p).length ≤ s.length := by
  induction s with
  | nil => simp
  | cons c s ih =>
    rw [List.dropWhile_cons]
    split
    · exact Nat.le_succ_of_le ih
    · exact Nat.le_refl _

theorem length_skipSpace_le (s : List Char) : (skipSpace s).length ≤ s.length :=
  length_dropWhile_le isSpace s

/-! ### Texts -/

def hexValue? (c : Char) : Option Nat :=
  let n := c.toNat
  if 48 ≤ n ∧ n ≤ 57 then some (n - 48)
  else if 97 ≤ n ∧ n ≤ 102 then some (n - 87)
  else if 65 ≤ n ∧ n ≤ 70 then some (n - 55)
  else none

/-- The unit that four hexadecimal digits stand for. -/
def unit? (a b c d : Char) : Option Nat := do
  let high := (← hexValue? a) * 16 + (← hexValue? b)
  let low := (← hexValue? c) * 16 + (← hexValue? d)
  return high * 256 + low

/-- The character that a letter after a backslash stands for. -/
def shortEscape? : Char → Option Nat
  | '"' => some 34
  | '\\' => some 92
  | '/' => some 47
  | 'b' => some 8
  | 'f' => some 12
  | 'n' => some 10
  | 'r' => some 13
  | 't' => some 9
  | _ => none

/-- The characters of a text up to its closing quote, by number, surrogates not yet joined. -/
def readUnits : List Char → Option (List Nat × List Char)
  | [] => none
  | '"' :: r => some ([], r)
  | '\\' :: 'u' :: a :: b :: c :: d :: r => do
    let u ← unit? a b c d
    let (us, rest) ← readUnits r
    return (u :: us, rest)
  | '\\' :: e :: r => do
    let u ← shortEscape? e
    let (us, rest) ← readUnits r
    return (u :: us, rest)
  | c :: r =>
    if c.toNat < 32 then none
    else do
      let (us, rest) ← readUnits r
      return (c.toNat :: us, rest)

theorem length_readUnits {s : List Char} {us : List Nat} {rest : List Char}
    (h : readUnits s = some (us, rest)) : rest.length < s.length := by
  fun_induction readUnits s generalizing us rest with
  | case1 => simp at h
  | case2 r => simp at h; simp [← h.2]
  | case3 a b c d r ih =>
    simp only [Option.bind_eq_bind, Option.bind_eq_some_iff, Option.pure_def, Option.some.injEq,
      Prod.mk.injEq] at h
    obtain ⟨_, _, ⟨vs, r'⟩, hr, _, rfl⟩ := h
    have := ih hr
    simp only [List.length_cons]
    omega
  | case4 e r _ ih =>
    simp only [Option.bind_eq_bind, Option.bind_eq_some_iff, Option.pure_def, Option.some.injEq,
      Prod.mk.injEq] at h
    obtain ⟨_, _, ⟨vs, r'⟩, hr, _, rfl⟩ := h
    have := ih hr
    simp only [List.length_cons]
    omega
  | case5 => simp at h
  | case6 c r _ _ _ _ ih =>
    simp only [Option.bind_eq_bind, Option.bind_eq_some_iff, Option.pure_def, Option.some.injEq,
      Prod.mk.injEq] at h
    obtain ⟨⟨vs, r'⟩, hr, _, rfl⟩ := h
    have := ih hr
    simp only [List.length_cons]
    omega

def isHighSurrogate (n : Nat) : Bool := 0xd800 ≤ n && n < 0xdc00

def isLowSurrogate (n : Nat) : Bool := 0xdc00 ≤ n && n < 0xe000

/-- Joins surrogate pairs. -/
def joinUnits : List Nat → List Nat
  | h :: l :: r =>
    if isHighSurrogate h && isLowSurrogate l then
      (0x10000 + (h - 0xd800) * 0x400 + (l - 0xdc00)) :: joinUnits r
    else h :: joinUnits (l :: r)
  | us => us

/-- A text whose opening quote has been read. -/
def readText (s : List Char) : Except ReadError (LooseText × Shorter s) :=
  match h : readUnits s with
  | none => .error .malformed
  | some (us, rest) => .ok (⟨joinUnits us⟩, ⟨rest, length_readUnits h⟩)

/-! ### Numbers -/

def isAsciiDigit (c : Char) : Bool := '0' ≤ c && c ≤ '9'

def decimalValue (ds : List Char) : Nat := ds.foldl (fun n c => 10 * n + (c.toNat - 48)) 0

/-- The digits of the whole part: a zero alone, or digits that do not start with one. -/
def wholeDigits : List Char → List Char
  | '0' :: _ => ['0']
  | cs => cs.takeWhile isAsciiDigit

/-- The digits of a fraction, without the point. -/
def fractionDigits : List Char → List Char
  | '.' :: cs => cs.takeWhile isAsciiDigit
  | _ => []

/-- How many characters a sign takes. -/
def signLength : List Char → Nat
  | '+' :: _ => 1
  | '-' :: _ => 1
  | _ => 0

/-- The sign and the digits of an exponent, without the letter; empty when there is none. -/
def exponentText : List Char → List Char
  | c :: cs =>
    if c = 'e' ∨ c = 'E' then
      let ds := (cs.drop (signLength cs)).takeWhile isAsciiDigit
      if ds.isEmpty then [] else cs.take (signLength cs) ++ ds
    else []
  | [] => []

def exponentValue : List Char → Int
  | '-' :: ds => -(decimalValue ds : Int)
  | '+' :: ds => decimalValue ds
  | ds => decimalValue ds

/-- A number without its sign, and how many characters it takes. -/
def readMagnitude (negative : Bool) (s : List Char) : Except ReadError (Json × Nat) :=
  let whole := wholeDigits s
  let fraction := fractionDigits (s.drop whole.length)
  let fractionLength := if fraction.isEmpty then 0 else fraction.length + 1
  let exponent := exponentText (s.drop (whole.length + fractionLength))
  if whole.isEmpty then .error .malformed
  else if fraction.isEmpty && exponent.isEmpty then
    if Text.maxDigits < whole.length then .error .numeralTooLong
    else
      let n : Int := decimalValue whole
      .ok (int (if negative then -n else n), whole.length)
  else
    let digits := decimalValue (whole ++ fraction)
    let value := Binary64.ofDecimal negative digits (exponentValue exponent - fraction.length)
    let exponentLength := if exponent.isEmpty then 0 else exponent.length + 1
    .ok (float value, whole.length + fractionLength + exponentLength)

/-- The rest of a text that starts with a given word. -/
def afterWord? : (word s : List Char) → Option (List Char)
  | [], s => some s
  | w :: ws, c :: s => if w = c then afterWord? ws s else none
  | _ :: _, [] => none

theorem length_afterWord? {word s r : List Char} (h : afterWord? word s = some r) :
    s.length = word.length + r.length := by
  fun_induction afterWord? word s with
  | case1 => simp_all
  | case2 w ws s ih => have := ih h; simp only [List.length_cons]; omega
  | case3 => simp at h
  | case4 => simp at h

/-- A number, and how many characters it takes. -/
def readNumber (s : List Char) : Except ReadError (Json × Nat) :=
  match s with
  | '-' :: 'I' :: _ =>
    if (afterWord? "-Infinity".toList s).isSome then .ok (float (.infinite true), 9)
    else .error .malformed
  | '-' :: cs => (readMagnitude true cs).map fun p => (p.1, p.2 + 1)
  | cs => readMagnitude false cs

/-- Values that are written as a word. -/
def readWord? (s : List Char) : Option (Json × List Char) :=
  let word (w : String) (v : Json) := (afterWord? w.toList s).map fun r => (v, r)
  word "null" null <|> word "true" (bool true) <|> word "false" (bool false) <|>
    word "NaN" (float .nan) <|> word "Infinity" (float (.infinite false))

theorem length_readWord? {s r : List Char} {v : Json} (h : readWord? s = some (v, r)) :
    r.length < s.length := by
  simp only [readWord?, Option.orElse_eq_orElse, Option.orElse_eq_or, Option.or_eq_some_iff,
    Option.map_eq_some_iff, Prod.mk.injEq] at h
  rcases h with ⟨_, h, rfl, rfl⟩ | ⟨_, ⟨_, h, rfl, rfl⟩ | ⟨_, ⟨_, h, rfl, rfl⟩ |
    ⟨_, ⟨_, h, rfl, rfl⟩ | ⟨_, ⟨_, h, rfl, rfl⟩⟩⟩⟩⟩ <;>
  · have := length_afterWord? h
    simp at this
    omega

/-- A value that is neither a text nor a container. -/
def readAtom (s : List Char) : Except ReadError (Json × Shorter s) :=
  match h : readWord? s with
  | some (v, r) => .ok (v, ⟨r, length_readWord? h⟩)
  | none => do
    let (v, n) ← readNumber s
    if h : (s.drop n).length < s.length then return (v, ⟨s.drop n, h⟩)
    else throw .malformed

/-! ### Containers -/

/-- The text after a given character, blanks before it skipped. -/
def expect (c : Char) (s : List Char) : Except ReadError (Shorter s) :=
  match h : skipSpace s with
  | x :: r =>
    if x = c then .ok ⟨r, by have := length_skipSpace_le s; simp [h] at this; omega⟩
    else .error .malformed
  | [] => .error .malformed

mutual

/-- A value, blanks before it skipped. -/
def readValue (s : List Char) : Except ReadError (Json × Shorter s) :=
  match h : skipSpace s with
  | [] => .error .malformed
  | c :: r =>
    have hr : r.length < s.length := by
      have := length_skipSpace_le s; simp [h] at this; omega
    if c = '"' then do
      let (t, ⟨rest, h⟩) ← readText r
      return (str t, ⟨rest, by omega⟩)
    else if c = '[' then do
      match expect ']' r with
      | .ok ⟨rest, h⟩ => return (arr [], ⟨rest, by omega⟩)
      | .error _ =>
        let (es, ⟨rest, h⟩) ← readElements r
        return (arr es, ⟨rest, by omega⟩)
    else if c = '{' then do
      match expect '}' r with
      | .ok ⟨rest, h⟩ => return (obj [], ⟨rest, by omega⟩)
      | .error _ =>
        let (ms, ⟨rest, h⟩) ← readMembers r
        return (ofMembers ms, ⟨rest, by omega⟩)
    else do
      let (v, ⟨rest, h⟩) ← readAtom (c :: r)
      return (v, ⟨rest, by have := h; simp only [List.length_cons] at this; omega⟩)
termination_by (s.length, 0)

/-- The elements of an array up to its closing bracket, at least one. -/
def readElements (s : List Char) : Except ReadError (List Json × Shorter s) := do
  let (v, ⟨s₁, h₁⟩) ← readValue s
  match expect ']' s₁ with
  | .ok ⟨s₂, h₂⟩ => return ([v], ⟨s₂, by omega⟩)
  | .error _ =>
    let ⟨s₂, h₂⟩ ← expect ',' s₁
    let (vs, ⟨s₃, h₃⟩) ← readElements s₂
    return (v :: vs, ⟨s₃, by omega⟩)
termination_by (s.length, 1)

/-- The members of an object up to its closing brace, at least one. -/
def readMembers (s : List Char) : Except ReadError (List (LooseText × Json) × Shorter s) := do
  let ⟨s₁, h₁⟩ ← expect '"' s
  let (name, ⟨s₂, h₂⟩) ← readText s₁
  let ⟨s₃, h₃⟩ ← expect ':' s₂
  let (v, ⟨s₄, h₄⟩) ← readValue s₃
  match expect '}' s₄ with
  | .ok ⟨s₅, h₅⟩ => return ([(name, v)], ⟨s₅, by omega⟩)
  | .error _ =>
    let ⟨s₅, h₅⟩ ← expect ',' s₄
    let (ms, ⟨s₆, h₆⟩) ← readMembers s₅
    return ((name, v) :: ms, ⟨s₆, by omega⟩)
termination_by (s.length, 1)

end

/-- The value that a whole text stands for. -/
def read (s : String) : Except ReadError Json := do
  let (v, rest) ← readValue s.toList
  if skipSpace rest.1 = [] then return v else throw .malformed

end TodoLists.Json
