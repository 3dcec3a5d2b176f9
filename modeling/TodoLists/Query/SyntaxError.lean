import TodoLists.Query.Token
import TodoLists.Status

/-!
# Syntax errors

What can be wrong with a query, and how it is reported: the message, the position, the text and a
caret under the character where reading stopped.
-/

namespace TodoLists.Query

inductive SyntaxCause where
  | emptyQuery
  | emptyFilter
  | arrowInFilter
  | noTagName
  | noStatusName
  | badStatus (e : Status.WordError)
  | noNumber
  | noClosingParenthesis
  | unexpectedEnd
  | unexpected (lexeme : Lexeme)
  | unexpectedToken
  | noDots
  | noLimit
  | noClosingBracket
  | mixedLimits
  | notStatusRange
  | notStatusOrRange
  | afterRange
  | notStatus
  | afterStatus
  deriving DecidableEq, Repr

def SyntaxCause.message : SyntaxCause → String
  | emptyQuery => "empty query"
  | emptyFilter => "empty filter"
  | arrowInFilter => "'=>' is only allowed in queries"
  | noTagName => "expected a tag name after '#'"
  | noStatusName => "expected a status name after '%'"
  | badStatus e => e.message
  | noNumber => "expected a number after '^'"
  | noClosingParenthesis => "expected ')'"
  | unexpectedEnd => "unexpected end of filter"
  | unexpected l => s!"unexpected '{String.ofList l.text}'"
  | unexpectedToken => "unexpected token"
  | noDots => "expected '...' in range"
  | noLimit => "expected a range limit, 'inf' or '...'"
  | noClosingBracket => "expected ')' or ']' to close range"
  | mixedLimits => "range mixes status and priority limits"
  | notStatusRange => "expected a status range"
  | notStatusOrRange => "expected a status or a status range"
  | afterRange => "unexpected text after range"
  | notStatus => "expected a status such as %waiting"
  | afterStatus => "unexpected text after status"

/-- A cause and the number of characters before the place it was met. -/
structure ParseError where
  cause : SyntaxCause
  position : Nat
  deriving DecidableEq, Repr

/-- A message with its place marked in the text, when there are a text and a place. A place before
the text is marked at its start. -/
def pointAt (message text : String) (position : Option Int) : String :=
  match position with
  | none => message
  | some p =>
    if text = "" then message
    else
      let caret := String.ofList (List.replicate p.toNat ' ') ++ "^"
      s!"{message} at position {p}\n  {text}\n  {caret}"

/-- A syntax error with the text it is in. -/
structure SyntaxError where
  cause : SyntaxCause
  position : Nat
  text : String
  deriving DecidableEq, Repr

def SyntaxError.message (e : SyntaxError) : String :=
  pointAt e.cause.message e.text (some e.position)

def ParseError.inText (e : ParseError) (text : String) : SyntaxError := ⟨e.cause, e.position, text⟩

end TodoLists.Query
