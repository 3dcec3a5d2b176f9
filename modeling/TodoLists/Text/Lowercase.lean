import TodoLists.Text.Lowercase.Table

/-!
# Lower case

Full Unicode lower case. Most characters are mapped one by one; U+0130 becomes two characters, and a
capital sigma becomes a final sigma when it ends a word, that is, when a letter with case comes
before it and none after it, characters such as accents and apostrophes being passed over.
-/

namespace TodoLists.Text

namespace Lowercase

def inRanges (table : List (Nat × Nat)) (c : Char) : Bool :=
  table.any fun r => r.1 ≤ c.toNat && c.toNat ≤ r.2

def isLetter (c : Char) : Bool := inRanges letters c

def isPassedOver (c : Char) : Bool := inRanges passedOver c

def Run.covers (r : Run) (n : Nat) : Bool :=
  r.first ≤ n && n ≤ r.last && (n - r.first) % r.step == 0

/-- Lower case of a character other than the capital sigma. -/
def char (c : Char) : List Char :=
  let n := c.toNat
  if n < 128 then [if 65 ≤ n && n ≤ 90 then Char.ofNat (n + 32) else c]
  else if n = 0x130 then ['i', Char.ofNat 0x307]
  else match runs.find? (·.covers n) with
    | some r => [Char.ofNat (n + r.offset).toNat]
    | none => [c]

/-- Whether the first character that is not passed over is a letter with case. -/
def meetsLetter (s : List Char) : Bool := ((s.dropWhile isPassedOver).head?).any isLetter

/-- Lower case of a text that follows a letter with case, or does not. -/
def after (afterLetter : Bool) : List Char → List Char
  | [] => []
  | c :: cs =>
    if c = 'Σ' then
      (if afterLetter && !meetsLetter cs then 'ς' else 'σ') :: after true cs
    else char c ++ after (if isPassedOver c then afterLetter else isLetter c) cs

end Lowercase

def lowercase (s : List Char) : List Char := Lowercase.after false s

end TodoLists.Text
