import TodoLists.Query
import TodoLists.Query.SyntaxError
import TodoLists.Range.Mixed
import TodoLists.Text.Numeral

/-!
# Parsing filters

A filter is read by recursive descent over its tokens: juxtaposition (or) binds weaker than `&`,
which binds weaker than `!`. An opening parenthesis begins a range when `...` follows before it is
closed, with every bracket opened in between closed again, and a group otherwise. The words `all`
and `none` are keywords only where they are the whole stage.

Each step returns the tokens that are left with the proof that there are fewer of them, which is why
the descent ends. A position is asked of the next token, or of the end of the stage when there is
none.
-/

namespace TodoLists.Query

/-- What is left after at least one token has been read. -/
abbrev Fewer (ts : List Token) := { r : List Token // r.length < ts.length }

/-- What is left when perhaps nothing has been read. -/
abbrev NoMore (ts : List Token) := { r : List Token // r.length ≤ ts.length }

def positionOf (stop : Nat) : List Token → Nat
  | [] => stop
  | t :: _ => t.position

/-! ### Words -/

def statusOf (word : List Char) : Except SyntaxCause Status :=
  if word = [] then .error .noStatusName
  else match Status.ofWord word with
    | .ok s => .ok s
    | .error e => .error (.badStatus e)

def priorityOf (numeral : List Char) : Except SyntaxCause Int :=
  match Text.readInt? numeral with
  | some n => .ok n
  | none => .error .noNumber

def tagOf (word : List Char) : Except SyntaxCause String :=
  if word = [] then .error .noTagName else .ok (String.ofList word)

/-- A result, its cause of failure placed at a position. -/
def located {α : Type} (position : Nat) : Except SyntaxCause α → Except ParseError α
  | .ok a => .ok a
  | .error c => .error ⟨c, position⟩

def isUnboundedWord (word : List Char) : Bool := Text.lowercase word == "inf".toList

/-! ### Ranges -/

def isOpener : Lexeme → Bool
  | .lparen => true
  | .lbracket => true
  | _ => false

def isCloser : Lexeme → Bool
  | .rparen => true
  | .rbracket => true
  | _ => false

/-- With `depth` brackets open, `...` follows while exactly one is open. -/
def dotsAhead (depth : Nat) : List Token → Bool
  | [] => false
  | t :: ts =>
    if isOpener t.lexeme then dotsAhead (depth + 1) ts
    else if isCloser t.lexeme then if depth = 1 then false else dotsAhead (depth - 1) ts
    else if t.lexeme = .dots ∧ depth = 1 then true
    else dotsAhead depth ts

/-- A range of either kind of limits. -/
inductive AnyRange where
  | statuses (range : Range Status)
  | priorities (range : Range Int)
  deriving DecidableEq, Repr

def AnyRange.toFilter : AnyRange → Filter
  | statuses r => .status r
  | priorities r => .priority r

def limit {α : Type} (inclusive : Bool) : Option α → Limit α
  | none => .unbounded
  | some a => if inclusive then .including a else .excluding a

/-- The range with two given limits; one with no value at all is a range of statuses. -/
def range? (lowInclusive highInclusive : Bool) : Option Value → Option Value → Option AnyRange
  | none, none => some (.statuses ⟨.unbounded, .unbounded⟩)
  | some (.status a), none => some (.statuses ⟨limit lowInclusive (some a), .unbounded⟩)
  | none, some (.status b) => some (.statuses ⟨.unbounded, limit highInclusive (some b)⟩)
  | some (.status a), some (.status b) =>
    some (.statuses ⟨limit lowInclusive (some a), limit highInclusive (some b)⟩)
  | some (.number a), none => some (.priorities ⟨limit lowInclusive (some a), .unbounded⟩)
  | none, some (.number b) => some (.priorities ⟨.unbounded, limit highInclusive (some b)⟩)
  | some (.number a), some (.number b) =>
    some (.priorities ⟨limit lowInclusive (some a), limit highInclusive (some b)⟩)
  | some (.status _), some (.number _) => none
  | some (.number _), some (.status _) => none

/-- The value of a limit, if it has one. An omitted limit takes no token. -/
def parseLimit (stop : Nat) (ts : List Token) :
    Except ParseError (Option Value × NoMore ts) :=
  match ts with
  | [] => .error ⟨.noLimit, stop⟩
  | t :: rest =>
    match t.lexeme with
    | .status w => do
      let s ← located t.position (statusOf w)
      return (some (.status s), ⟨rest, by simp⟩)
    | .priority n => do
      let p ← located t.position (priorityOf n)
      return (some (.number p), ⟨rest, by simp⟩)
    | .word w =>
      if isUnboundedWord w then .ok (none, ⟨rest, by simp⟩) else .error ⟨.noLimit, t.position⟩
    | .dots => .ok (none, ⟨t :: rest, Nat.le_refl _⟩)
    | .rparen => .ok (none, ⟨t :: rest, Nat.le_refl _⟩)
    | .rbracket => .ok (none, ⟨t :: rest, Nat.le_refl _⟩)
    | _ => .error ⟨.noLimit, t.position⟩

/-- The token that has to come next, or else the cause. -/
def expect (stop : Nat) (lexeme : Lexeme) (cause : SyntaxCause) (ts : List Token) :
    Except ParseError (Fewer ts) :=
  match ts with
  | [] => .error ⟨cause, stop⟩
  | t :: rest =>
    if t.lexeme = lexeme then .ok ⟨rest, by simp⟩ else .error ⟨cause, t.position⟩

/-- The closing bracket of a range, and whether it includes the limit. -/
def parseCloser (stop : Nat) (ts : List Token) : Except ParseError (Bool × Fewer ts) :=
  match ts with
  | [] => .error ⟨.noClosingBracket, stop⟩
  | t :: rest =>
    if t.lexeme = .rparen then .ok (false, ⟨rest, by simp⟩)
    else if t.lexeme = .rbracket then .ok (true, ⟨rest, by simp⟩)
    else .error ⟨.noClosingBracket, t.position⟩

/-- A range whose opening bracket has been read. -/
def parseRange (stop : Nat) (opener : Token) (ts : List Token) :
    Except ParseError (AnyRange × Fewer ts) := do
  let (low, ⟨ts₁, h₁⟩) ← parseLimit stop ts
  let ⟨ts₂, h₂⟩ ← expect stop .dots .noDots ts₁
  let (high, ⟨ts₃, h₃⟩) ← parseLimit stop ts₂
  let (highInclusive, ⟨ts₄, h₄⟩) ← parseCloser stop ts₃
  match range? (opener.lexeme = .lbracket) highInclusive low high with
  | some r => return (r, ⟨ts₄, by omega⟩)
  | none => throw ⟨.mixedLimits, opener.position⟩

/-! ### Filters -/

/-- The token can begin a condition. -/
def startsTerm : List Token → Bool
  | [] => false
  | t :: _ =>
    match t.lexeme with
    | .not | .lparen | .lbracket | .word _ | .tag _ | .status _ | .priority _ => true
    | _ => false

mutual

/-- A word, a range, or a group in parentheses. -/
def parsePrimary (stop : Nat) (ts : List Token) : Except ParseError (Filter × Fewer ts) :=
  match ts with
  | [] => .error ⟨.unexpectedEnd, stop⟩
  | t :: rest =>
    match t.lexeme with
    | .word w => .ok (.name (String.ofList w), ⟨rest, by simp⟩)
    | .tag w => do
      let n ← located t.position (tagOf w)
      return (.tag n, ⟨rest, by simp⟩)
    | .status w => do
      let s ← located t.position (statusOf w)
      return (.status (.only s), ⟨rest, by simp⟩)
    | .priority n => do
      let p ← located t.position (priorityOf n)
      return (.priority (.only p), ⟨rest, by simp⟩)
    | .lbracket => do
      let (r, ⟨rest', h⟩) ← parseRange stop t rest
      return (r.toFilter, ⟨rest', by simp only [List.length_cons]; omega⟩)
    | .lparen =>
      if dotsAhead 1 rest then do
        let (r, ⟨rest', h⟩) ← parseRange stop t rest
        return (r.toFilter, ⟨rest', by simp only [List.length_cons]; omega⟩)
      else do
        let (f, ⟨rest₁, h₁⟩) ← parseOr stop rest
        let ⟨rest₂, h₂⟩ ← expect stop .rparen .noClosingParenthesis rest₁
        return (f, ⟨rest₂, by simp only [List.length_cons]; omega⟩)
    | l => .error ⟨.unexpected l, t.position⟩
termination_by (ts.length, 0)

/-- A condition with any number of `!` before it. -/
def parseUnary (stop : Nat) (ts : List Token) : Except ParseError (Filter × Fewer ts) :=
  match ts with
  | ⟨.not, p⟩ :: rest => do
    let (f, ⟨rest', h⟩) ← parseUnary stop rest
    return (.not f, ⟨rest', by simp only [List.length_cons]; omega⟩)
  | ts => parsePrimary stop ts
termination_by (ts.length, 1)

/-- Conditions joined by `&`. -/
def parseAnd (stop : Nat) (ts : List Token) : Except ParseError (Filter × Fewer ts) := do
  let (f, ⟨ts₁, h₁⟩) ← parseUnary stop ts
  let (g, ⟨ts₂, h₂⟩) ← parseAndRest stop f ts₁
  return (g, ⟨ts₂, by omega⟩)
termination_by (ts.length, 2)

/-- The conditions after the first, joined to what has been read. -/
def parseAndRest (stop : Nat) (f : Filter) (ts : List Token) :
    Except ParseError (Filter × NoMore ts) :=
  match ts with
  | ⟨.and, p⟩ :: rest => do
    let (g, ⟨ts₁, h₁⟩) ← parseUnary stop rest
    let (k, ⟨ts₂, h₂⟩) ← parseAndRest stop (f.both g) ts₁
    return (k, ⟨ts₂, by simp only [List.length_cons]; omega⟩)
  | ts => .ok (f, ⟨ts, Nat.le_refl _⟩)
termination_by (ts.length, 0)

/-- Conjunctions side by side. -/
def parseOr (stop : Nat) (ts : List Token) : Except ParseError (Filter × Fewer ts) := do
  let (f, ⟨ts₁, h₁⟩) ← parseAnd stop ts
  let (g, ⟨ts₂, h₂⟩) ← parseOrRest stop f ts₁
  return (g, ⟨ts₂, by omega⟩)
termination_by (ts.length, 4)

/-- The conjunctions after the first, joined to what has been read. -/
def parseOrRest (stop : Nat) (f : Filter) (ts : List Token) :
    Except ParseError (Filter × NoMore ts) :=
  if startsTerm ts then do
    let (g, ⟨ts₁, h₁⟩) ← parseAnd stop ts
    let (k, ⟨ts₂, h₂⟩) ← parseOrRest stop (f.either g) ts₁
    return (k, ⟨ts₂, by omega⟩)
  else .ok (f, ⟨ts, Nat.le_refl _⟩)
termination_by (ts.length, 3)

end

/-- The filter that a keyword alone stands for. -/
def keyword? : List Token → Option Filter
  | [⟨.word w, _⟩] =>
    if w = "all".toList then some .all else if w = "none".toList then some .none else none
  | _ => none

/-- The filter of a whole stage, whose tokens end at `stop`. -/
def parseStage (stop : Nat) (ts : List Token) : Except ParseError Filter :=
  if ts = [] then .error ⟨.emptyFilter, stop⟩
  else match keyword? ts with
    | some f => .ok f
    | none => do
      let (f, ⟨rest, _⟩) ← parseOr stop ts
      if rest = [] then return f else throw ⟨.unexpectedToken, positionOf stop rest⟩

/-! ### Whole texts -/

/-- The tokens of a text, which must not be blank. -/
def tokenize (s : List Char) : Except ParseError (List Token) :=
  if Text.allBlank s then .error ⟨.emptyQuery, 0⟩ else .ok (tokens s)

/-- The tokens of the first stage and of the others, each with the position where it ends, which is
that of the arrow after it or the end of the text. -/
def stages (stop : Nat) : List Token → (List Token × Nat) × List (List Token × Nat)
  | [] => (([], stop), [])
  | t :: ts =>
    let (s, rest) := stages stop ts
    if t.lexeme = .arrow then (([], t.position), s :: rest) else ((t :: s.1, s.2), rest)

def parseFilterChars (s : List Char) : Except ParseError Filter := do
  let ts ← tokenize s
  match ts.find? fun t => t.lexeme = .arrow with
  | some t => throw ⟨.arrowInFilter, t.position⟩
  | none => parseStage s.length ts

def parseQueryChars (s : List Char) : Except ParseError Query := do
  let ts ← tokenize s
  let (first, rest) := stages s.length ts
  let f ← parseStage first.2 first.1
  let fs ← rest.mapM fun st => parseStage st.2 st.1
  return ⟨f, fs⟩

/-- A single `%word`. -/
def parseStatusChars (s : List Char) : Except ParseError Status := do
  match ← tokenize s with
  | [] => throw ⟨.notStatus, s.length⟩
  | t :: rest =>
    match t.lexeme with
    | .status w =>
      if rest = [] then located t.position (statusOf w)
      else throw ⟨.afterStatus, positionOf s.length rest⟩
    | _ => throw ⟨.notStatus, t.position⟩

/-- The status or range of statuses that a token begins. -/
def parseStatusOrRange (stop : Nat) (t : Token) (rest : List Token) :
    Except ParseError (Range Status × List Token) :=
  match t.lexeme with
  | .status w => (located t.position (statusOf w)).map fun s => (.only s, rest)
  | .lparen | .lbracket => do
    match ← parseRange stop t rest with
    | (.statuses r, rest') => return (r, rest'.1)
    | (.priorities _, _) => throw ⟨.notStatusRange, t.position⟩
  | _ => .error ⟨.notStatusOrRange, t.position⟩

/-- A single `%word` or a range of statuses. -/
def parseStatusRangeChars (s : List Char) : Except ParseError (Range Status) := do
  match ← tokenize s with
  | [] => throw ⟨.notStatusOrRange, s.length⟩
  | t :: rest =>
    let (r, rest) ← parseStatusOrRange s.length t rest
    if rest = [] then return r else throw ⟨.afterRange, positionOf s.length rest⟩

/-- Runs a parser on a text and puts the text into its error. -/
def onText {α : Type} (parse : List Char → Except ParseError α) (text : String) :
    Except SyntaxError α :=
  match parse text.toList with
  | .ok a => .ok a
  | .error e => .error (e.inText text)

def parseFilter (text : String) : Except SyntaxError Filter := onText parseFilterChars text

def parseQuery (text : String) : Except SyntaxError Query := onText parseQueryChars text

def parseStatus (text : String) : Except SyntaxError Status := onText parseStatusChars text

def parseStatusRange (text : String) : Except SyntaxError (Range Status) :=
  onText parseStatusRangeChars text

end TodoLists.Query
