import TodoLists.Text.Blank
import TodoLists.Text.Digit

/-!
# Tokens of the query notation

A query is cut into signs, words, and words that a sign introduces: `%word`, `#word` and `^number`.
A word goes on until a blank, a bracket, one of the characters `& ! # % ^`, or a place where `...`
or `=>` begins. Every character but a blank belongs to exactly one token, so cutting never fails.
-/

namespace TodoLists.Query

inductive Lexeme where
  | arrow
  | dots
  | lparen
  | rparen
  | lbracket
  | rbracket
  | and
  | not
  | status (word : List Char)
  | tag (word : List Char)
  | priority (numeral : List Char)
  | word (word : List Char)
  deriving DecidableEq, Repr

/-- The text of a lexeme. -/
def Lexeme.text : Lexeme → List Char
  | arrow => ['=', '>']
  | dots => ['.', '.', '.']
  | lparen => ['(']
  | rparen => [')']
  | lbracket => ['[']
  | rbracket => [']']
  | and => ['&']
  | not => ['!']
  | status w => '%' :: w
  | tag w => '#' :: w
  | priority n => '^' :: n
  | word w => w

/-- A lexeme and the number of characters before it. -/
structure Token where
  lexeme : Lexeme
  position : Nat
  deriving DecidableEq, Repr

/-- Characters that no word contains. -/
def isSign (c : Char) : Bool :=
  c == '(' || c == ')' || c == '[' || c == ']' || c == '&' || c == '!' || c == '#' || c == '%' ||
    c == '^'

def startsDots : List Char → Bool
  | '.' :: '.' :: '.' :: _ => true
  | _ => false

def startsArrow : List Char → Bool
  | '=' :: '>' :: _ => true
  | _ => false

/-- The first character can stand in a word. -/
def startsWord : List Char → Bool
  | [] => false
  | c :: cs =>
    !Text.isBlank c && !isSign c && !startsDots (c :: cs) && !startsArrow (c :: cs)

/-- The longest word at the start of a text, possibly empty. -/
def takeWord : List Char → List Char
  | [] => []
  | c :: cs => if startsWord (c :: cs) then c :: takeWord cs else []

/-- An optional sign and the digits after it, possibly none. -/
def takeNumeral : List Char → List Char
  | [] => []
  | c :: cs =>
    if c = '+' ∨ c = '-' then c :: cs.takeWhile Text.isDigit else (c :: cs).takeWhile Text.isDigit

/-- The lexeme at the start of a text whose first character is not blank. -/
def firstLexeme (c : Char) (cs : List Char) : Lexeme :=
  if startsArrow (c :: cs) then .arrow
  else if startsDots (c :: cs) then .dots
  else match c with
    | '(' => .lparen
    | ')' => .rparen
    | '[' => .lbracket
    | ']' => .rbracket
    | '&' => .and
    | '!' => .not
    | '%' => .status (takeWord cs)
    | '#' => .tag (takeWord cs)
    | '^' => .priority (takeNumeral cs)
    | _ => .word (c :: takeWord cs)

/-- The tokens of a text that starts at a position. -/
def tokensFrom (position : Nat) : List Char → List Token
  | [] => []
  | c :: cs =>
    if Text.isBlank c then tokensFrom (position + 1) cs
    else
      let lexeme := firstLexeme c cs
      ⟨lexeme, position⟩ ::
        tokensFrom (position + lexeme.text.length) (cs.drop (lexeme.text.length - 1))
termination_by s => s.length
decreasing_by
  · simp
  · simp only [List.length_drop, List.length_cons]
    omega

def tokens (s : List Char) : List Token := tokensFrom 0 s

end TodoLists.Query
