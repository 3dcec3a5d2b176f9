import TodoLists.Query.Parser

/-!
# Listing tokens

The tokens of a text as they are shown: the kind of each, its characters and its position. The end
of the text is listed as well, as a token of a kind of its own with no characters.
-/

namespace TodoLists.Query

def Lexeme.kind : Lexeme → String
  | arrow => "arrow"
  | dots => "dots"
  | lparen => "lparen"
  | rparen => "rparen"
  | lbracket => "lbracket"
  | rbracket => "rbracket"
  | and => "and"
  | not => "not"
  | status _ => "status"
  | tag _ => "tag"
  | priority _ => "priority"
  | word _ => "word"

/-- A token as it is shown. -/
structure Listed where
  kind : String
  value : List Char
  position : Nat
  deriving DecidableEq, Repr

/-- The number of characters before the end of the token. -/
def Listed.stop (e : Listed) : Nat := e.position + e.value.length

def Token.listed (t : Token) : Listed := ⟨t.lexeme.kind, t.lexeme.text, t.position⟩

/-- The end of a text, as a token. -/
def Listed.ending (position : Nat) : Listed := ⟨"end", [], position⟩

/-- Tokens with the end of their text behind them. -/
def listing (stop : Nat) (ts : List Token) : List Listed := ts.map Token.listed ++ [.ending stop]

def listChars (s : List Char) : Except ParseError (List Listed) :=
  (tokenize s).map (listing s.length)

def listTokens (text : String) : Except SyntaxError (List Listed) := onText listChars text

end TodoLists.Query
