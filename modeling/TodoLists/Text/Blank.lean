/-!
# Blank characters

The characters that separate words, and the three ways the program uses them: cutting blanks off the
ends of a text, splitting a text into its words, and joining words by single spaces. The class is
the Unicode white space together with the four information separators U+001C to U+001F; the
zero-width characters U+200B and U+FEFF are not in it. The separators divide words but are no space
around a number, so white space without them is a class of its own.
-/

namespace TodoLists.Text

def isBlank (c : Char) : Bool :=
  let n := c.toNat
  (9 ≤ n && n ≤ 13) || (28 ≤ n && n ≤ 32) || n == 0x85 || n == 0xa0 || n == 0x1680 ||
    (0x2000 ≤ n && n ≤ 0x200a) || n == 0x2028 || n == 0x2029 || n == 0x202f || n == 0x205f ||
    n == 0x3000

/-- The four information separators. -/
def isSeparator (c : Char) : Bool := 28 ≤ c.toNat && c.toNat ≤ 31

/-- Unicode white space. -/
def isWhiteSpace (c : Char) : Bool := isBlank c && !isSeparator c

/-- The text without the characters of a class at its two ends. -/
def trim (p : Char → Bool) (s : List Char) : List Char :=
  ((s.dropWhile p).reverse.dropWhile p).reverse

/-- The text without the blanks at its two ends. -/
def strip (s : List Char) : List Char := trim isBlank s

/-- A text is blank when it has no character but blanks. -/
def allBlank (s : List Char) : Bool := s.all isBlank

/-- The maximal runs of characters that are not blank. -/
def words (s : List Char) : List (List Char) := (s.splitOnP isBlank).filter fun w => !w.isEmpty

/-- The words with one space between neighbours. -/
def unwords : List (List Char) → List Char
  | [] => []
  | [w] => w
  | w :: ws => w ++ ' ' :: unwords ws

/-- Every run of blanks inside becomes one space, and none is left at the ends. -/
def squeeze (s : List Char) : List Char := unwords (words s)

end TodoLists.Text
