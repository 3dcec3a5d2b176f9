import TodoLists.Proofs.Query.Grammar

/-!
# The descent step by step

The parser returns what is left of the tokens together with the proof that there are fewer of them.
Here each of its functions is given without that proof and by the equations it satisfies, one for
each way it can go. Everything said about the parser is said by these equations.
-/

namespace TodoLists.Query

/-- A reading without the proof about what is left. -/
def plain {α : Type} {p : List Token → Prop}
    (x : Except ParseError (α × { r : List Token // p r })) :
    Except ParseError (α × List Token) :=
  x.map fun y => (y.1, y.2.1)

theorem plain_bind {α β : Type} {p q : List Token → Prop}
    {x : Except ParseError (α × { r : List Token // p r })}
    {k : α × { r : List Token // p r } → Except ParseError (β × { r : List Token // q r })}
    {k' : α × List Token → Except ParseError (β × List Token)}
    (h : ∀ a r hr, plain (k (a, ⟨r, hr⟩)) = k' (a, r)) : plain (x >>= k) = (plain x).bind k' := by
  rcases x with e | ⟨a, r, hr⟩
  · rfl
  · exact h a r hr

/-- What the proof about what is left says. -/
theorem of_plain_eq_ok {α : Type} {p : List Token → Prop}
    {x : Except ParseError (α × { r : List Token // p r })} {a : α} {rest : List Token}
    (h : plain x = .ok (a, rest)) : p rest := by
  rcases x with e | ⟨b, r, hr⟩ <;> cases h
  exact hr

variable (stop : Nat)

def readLimit (ts : List Token) : Except ParseError (Option Value × List Token) :=
  plain (parseLimit stop ts)

def readExact (lexeme : Lexeme) (cause : SyntaxCause) (ts : List Token) :
    Except ParseError (Unit × List Token) :=
  (expect stop lexeme cause ts).map fun r => ((), r.1)

def readCloser (ts : List Token) : Except ParseError (Bool × List Token) :=
  plain (parseCloser stop ts)

def readRange (opener : Token) (ts : List Token) : Except ParseError (AnyRange × List Token) :=
  plain (parseRange stop opener ts)

def readPrimary (ts : List Token) : Except ParseError (Filter × List Token) :=
  plain (parsePrimary stop ts)

def readUnary (ts : List Token) : Except ParseError (Filter × List Token) :=
  plain (parseUnary stop ts)

def readAnd (ts : List Token) : Except ParseError (Filter × List Token) :=
  plain (parseAnd stop ts)

def readAndRest (f : Filter) (ts : List Token) : Except ParseError (Filter × List Token) :=
  plain (parseAndRest stop f ts)

def readOr (ts : List Token) : Except ParseError (Filter × List Token) :=
  plain (parseOr stop ts)

def readOrRest (f : Filter) (ts : List Token) : Except ParseError (Filter × List Token) :=
  plain (parseOrRest stop f ts)

theorem plain_bind_expect {β : Type} {q : List Token → Prop} {l : Lexeme} {cause : SyntaxCause}
    {ts : List Token} {k : Fewer ts → Except ParseError (β × { r : List Token // q r })}
    {k' : Unit × List Token → Except ParseError (β × List Token)}
    (h : ∀ r hr, plain (k ⟨r, hr⟩) = k' ((), r)) :
    plain (expect stop l cause ts >>= k) = (readExact stop l cause ts).bind k' := by
  rw [readExact]
  rcases expect stop l cause ts with e | ⟨r, hr⟩
  · rfl
  · exact h r hr

variable {stop} {t : Token} {rest : List Token}

/-! ### Ranges -/

theorem readLimit_nil : readLimit stop [] = .error ⟨.noLimit, stop⟩ := rfl

theorem readLimit_status {w : List Char} (h : t.lexeme = .status w) :
    readLimit stop (t :: rest) =
      (located t.position (statusOf w)).map fun s => (some (.status s), rest) := by
  unfold readLimit parseLimit
  simp only [h]
  cases located t.position (statusOf w) <;> rfl

theorem readLimit_priority {n : List Char} (h : t.lexeme = .priority n) :
    readLimit stop (t :: rest) =
      (located t.position (priorityOf n)).map fun k => (some (.number k), rest) := by
  unfold readLimit parseLimit
  simp only [h]
  cases located t.position (priorityOf n) <;> rfl

theorem readLimit_word {w : List Char} (h : t.lexeme = .word w) :
    readLimit stop (t :: rest) =
      if isUnboundedWord w then .ok (none, rest) else .error ⟨.noLimit, t.position⟩ := by
  unfold readLimit parseLimit
  simp only [h]
  split <;> rfl

/-- The token comes after a limit, so here the limit is omitted. -/
def Lexeme.endsLimit : Lexeme → Bool
  | .dots | .rparen | .rbracket => true
  | _ => false

theorem readLimit_omitted (h : t.lexeme.endsLimit = true) :
    readLimit stop (t :: rest) = .ok (none, t :: rest) := by
  obtain ⟨l, p⟩ := t
  cases l <;> first | rfl | cases h

theorem readLimit_other (hends : t.lexeme.endsLimit = false)
    (hstatus : ∀ w, t.lexeme ≠ .status w) (hpriority : ∀ n, t.lexeme ≠ .priority n)
    (hword : ∀ w, t.lexeme ≠ .word w) :
    readLimit stop (t :: rest) = .error ⟨.noLimit, t.position⟩ := by
  obtain ⟨l, p⟩ := t
  cases l with
  | status w => exact absurd rfl (hstatus w)
  | priority n => exact absurd rfl (hpriority n)
  | word w => exact absurd rfl (hword w)
  | dots | rparen | rbracket => cases hends
  | arrow | lparen | lbracket | and | not | tag => rfl

theorem readExact_nil {l : Lexeme} {cause : SyntaxCause} :
    readExact stop l cause [] = .error ⟨cause, stop⟩ := rfl

theorem readExact_cons {l : Lexeme} {cause : SyntaxCause} :
    readExact stop l cause (t :: rest) =
      if t.lexeme = l then .ok ((), rest) else .error ⟨cause, t.position⟩ := by
  unfold readExact expect
  by_cases h : t.lexeme = l
  · simp only [if_pos h]
    rfl
  · simp only [if_neg h]
    rfl

theorem readCloser_nil : readCloser stop [] = .error ⟨.noClosingBracket, stop⟩ := rfl

theorem readCloser_cons :
    readCloser stop (t :: rest) =
      if t.lexeme = .rparen then .ok (false, rest)
      else if t.lexeme = .rbracket then .ok (true, rest)
      else .error ⟨.noClosingBracket, t.position⟩ := by
  unfold readCloser parseCloser
  by_cases hround : t.lexeme = .rparen
  · simp only [if_pos hround]
    rfl
  · by_cases hsquare : t.lexeme = .rbracket
    · simp only [if_neg hround, if_pos hsquare]
      rfl
    · simp only [if_neg hround, if_neg hsquare]
      rfl

/-- The range between two limits, which must be of one kind. -/
def joinLimits (opener : Token) (low high : Option Value) (inclusive : Bool) :
    Except ParseError AnyRange :=
  match range? (opener.lexeme = .lbracket) inclusive low high with
  | some r => .ok r
  | none => .error ⟨.mixedLimits, opener.position⟩

theorem readRange_eq {ts : List Token} :
    readRange stop t ts =
      (readLimit stop ts).bind fun (low, ts₁) =>
      (readExact stop .dots .noDots ts₁).bind fun (_, ts₂) =>
      (readLimit stop ts₂).bind fun (high, ts₃) =>
      (readCloser stop ts₃).bind fun (inclusive, ts₄) =>
      (joinLimits t low high inclusive).map fun r => (r, ts₄) := by
  unfold readRange parseRange
  refine plain_bind fun low ts₁ h₁ => ?_
  refine plain_bind_expect stop fun ts₂ h₂ => ?_
  refine plain_bind fun high ts₃ h₃ => ?_
  refine plain_bind fun inclusive ts₄ h₄ => ?_
  simp only [joinLimits]
  cases range? (decide (t.lexeme = .lbracket)) inclusive low high <;> rfl

/-! ### Filters -/

theorem readPrimary_nil : readPrimary stop [] = .error ⟨.unexpectedEnd, stop⟩ := by
  rw [readPrimary, parsePrimary]
  rfl

theorem readPrimary_word {w : List Char} (h : t.lexeme = .word w) :
    readPrimary stop (t :: rest) = .ok (.name (String.ofList w), rest) := by
  rw [readPrimary, parsePrimary]
  simp only [h]
  rfl

theorem readPrimary_tag {w : List Char} (h : t.lexeme = .tag w) :
    readPrimary stop (t :: rest) =
      (located t.position (tagOf w)).map fun n => (.tag n, rest) := by
  rw [readPrimary, parsePrimary]
  simp only [h]
  cases located t.position (tagOf w) <;> rfl

theorem readPrimary_status {w : List Char} (h : t.lexeme = .status w) :
    readPrimary stop (t :: rest) =
      (located t.position (statusOf w)).map fun s => (.status (.only s), rest) := by
  rw [readPrimary, parsePrimary]
  simp only [h]
  cases located t.position (statusOf w) <;> rfl

theorem readPrimary_priority {n : List Char} (h : t.lexeme = .priority n) :
    readPrimary stop (t :: rest) =
      (located t.position (priorityOf n)).map fun k => (.priority (.only k), rest) := by
  rw [readPrimary, parsePrimary]
  simp only [h]
  cases located t.position (priorityOf n) <;> rfl

/-- The bracket begins a range. -/
def opensRange (t : Token) (rest : List Token) : Bool :=
  t.lexeme = .lbracket || (t.lexeme = .lparen && dotsAhead 1 rest)

theorem readPrimary_range (h : opensRange t rest = true) :
    readPrimary stop (t :: rest) =
      (readRange stop t rest).map fun y => (y.1.toFilter, y.2) := by
  rw [readPrimary, readRange, parsePrimary]
  simp only [opensRange, Bool.or_eq_true, Bool.and_eq_true, decide_eq_true_eq] at h
  rcases h with hopen | ⟨hopen, hdots⟩
  · simp only [hopen]
    cases parseRange stop t rest <;> rfl
  · simp only [hopen, if_pos hdots]
    cases parseRange stop t rest <;> rfl

theorem readPrimary_group (hopen : t.lexeme = .lparen) (hdots : dotsAhead 1 rest = false) :
    readPrimary stop (t :: rest) =
      (readOr stop rest).bind fun y =>
      (readExact stop .rparen .noClosingParenthesis y.2).map fun z => (y.1, z.2) := by
  rw [readPrimary, parsePrimary]
  simp only [hopen, hdots, Bool.false_eq_true, if_false]
  refine plain_bind fun f rest₁ h₁ => ?_
  dsimp only [readExact]
  cases expect stop .rparen .noClosingParenthesis rest₁ <;> rfl

theorem readPrimary_other (hword : ∀ w, t.lexeme ≠ .word w) (htag : ∀ w, t.lexeme ≠ .tag w)
    (hstatus : ∀ w, t.lexeme ≠ .status w) (hpriority : ∀ n, t.lexeme ≠ .priority n)
    (hsquare : t.lexeme ≠ .lbracket) (hround : t.lexeme ≠ .lparen) :
    readPrimary stop (t :: rest) = .error ⟨.unexpected t.lexeme, t.position⟩ := by
  rw [readPrimary, parsePrimary]
  cases h : t.lexeme with
  | word w => exact absurd h (hword w)
  | tag w => exact absurd h (htag w)
  | status w => exact absurd h (hstatus w)
  | priority n => exact absurd h (hpriority n)
  | lbracket => exact absurd h hsquare
  | lparen => exact absurd h hround
  | arrow | dots | rparen | rbracket | and | not => rfl

theorem readUnary_not {p : Nat} :
    readUnary stop (⟨.not, p⟩ :: rest) =
      (readUnary stop rest).map fun y => (.not y.1, y.2) := by
  rw [readUnary, readUnary, parseUnary]
  cases parseUnary stop rest <;> rfl

theorem readUnary_of_ne {ts : List Token} (h : ∀ p rest, ts ≠ ⟨.not, p⟩ :: rest) :
    readUnary stop ts = readPrimary stop ts := by
  rw [readUnary, readPrimary, parseUnary]
  exact h

theorem readAnd_eq {ts : List Token} :
    readAnd stop ts = (readUnary stop ts).bind fun y => readAndRest stop y.1 y.2 := by
  rw [readAnd, parseAnd]
  refine plain_bind fun f ts₁ h₁ => ?_
  dsimp only [readAndRest]
  cases parseAndRest stop f ts₁ <;> rfl

theorem readAndRest_and {f : Filter} {p : Nat} :
    readAndRest stop f (⟨.and, p⟩ :: rest) =
      (readUnary stop rest).bind fun y => readAndRest stop (f.both y.1) y.2 := by
  rw [readAndRest, parseAndRest]
  refine plain_bind fun g ts₁ h₁ => ?_
  dsimp only [readAndRest]
  cases parseAndRest stop (f.both g) ts₁ <;> rfl

theorem readAndRest_of_ne {f : Filter} {ts : List Token} (h : ∀ p rest, ts ≠ ⟨.and, p⟩ :: rest) :
    readAndRest stop f ts = .ok (f, ts) := by
  rw [readAndRest, parseAndRest]
  · rfl
  · exact h

theorem readOr_eq {ts : List Token} :
    readOr stop ts = (readAnd stop ts).bind fun y => readOrRest stop y.1 y.2 := by
  rw [readOr, parseOr]
  refine plain_bind fun f ts₁ h₁ => ?_
  dsimp only [readOrRest]
  cases parseOrRest stop f ts₁ <;> rfl

theorem readOrRest_term {f : Filter} {ts : List Token} (h : startsTerm ts = true) :
    readOrRest stop f ts =
      (readAnd stop ts).bind fun y => readOrRest stop (f.either y.1) y.2 := by
  rw [readOrRest, parseOrRest, if_pos h]
  refine plain_bind fun g ts₁ h₁ => ?_
  dsimp only [readOrRest]
  cases parseOrRest stop (f.either g) ts₁ <;> rfl

theorem readOrRest_stop {f : Filter} {ts : List Token} (h : startsTerm ts = false) :
    readOrRest stop f ts = .ok (f, ts) := by
  rw [readOrRest, parseOrRest, if_neg (ne_true_of_eq_false h)]
  rfl

end TodoLists.Query
