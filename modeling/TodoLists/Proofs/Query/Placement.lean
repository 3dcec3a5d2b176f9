import TodoLists.Proofs.Query.Stages

/-!
# Where the tokens stand

The parser never asks where a token stands; it only says so when something is wrong. So tokens that
are put at other places are read in the same way, and what is wrong is found at the place where its
token was put.
-/

namespace TodoLists.Query

variable (place : Nat → Nat)

def Token.placed (t : Token) : Token := { t with position := place t.position }

def ParseError.placed (e : ParseError) : ParseError := { e with position := place e.position }

@[simp] theorem Token.lexeme_placed (t : Token) : (t.placed place).lexeme = t.lexeme := rfl

/-- A reading of tokens that are put at other places. -/
def placed {α : Type} (x : Except ParseError (α × List Token)) :
    Except ParseError (α × List Token) :=
  (x.mapError (ParseError.placed place)).map fun y => (y.1, y.2.map (Token.placed place))

theorem placed_map {α β : Type} (x : Except ParseError (α × List Token)) (g : α → β) :
    (placed place x).map (fun y => (g y.1, y.2)) = placed place (x.map fun y => (g y.1, y.2)) := by
  cases x <;> rfl

variable {place}

theorem placed_bind {α β : Type} {x : Except ParseError (α × List Token)}
    {k k' : α × List Token → Except ParseError (β × List Token)}
    (h : ∀ a rest, x = .ok (a, rest) →
      k' (a, rest.map (Token.placed place)) = placed place (k (a, rest))) :
    (placed place x).bind k' = placed place (x.bind k) := by
  rcases x with e | ⟨a, rest⟩
  · rfl
  · exact h a rest rfl

theorem placed_located {α β : Type} (p : Nat) (x : Except SyntaxCause α) (g : α → β)
    (rest : List Token) :
    (located (place p) x).map (fun a => (g a, rest.map (Token.placed place))) =
      placed place ((located p x).map fun a => (g a, rest)) := by
  cases x <;> rfl

variable {stop : Nat}

/-! ### Ranges -/

theorem readLimit_placed (ts : List Token) :
    readLimit (place stop) (ts.map (Token.placed place)) = placed place (readLimit stop ts) := by
  cases ts with
  | nil => rfl
  | cons t rest =>
    rw [List.map_cons]
    cases hl : t.lexeme with
    | status w =>
      rw [readLimit_status hl, readLimit_status (t := t.placed place) hl]
      exact placed_located t.position (statusOf w) _ rest
    | priority n =>
      rw [readLimit_priority hl, readLimit_priority (t := t.placed place) hl]
      exact placed_located t.position (priorityOf n) _ rest
    | word w =>
      rw [readLimit_word hl, readLimit_word (t := t.placed place) hl]
      split <;> rfl
    | dots | rparen | rbracket | arrow | lparen | lbracket | and | not | tag =>
      obtain ⟨l, p⟩ := t
      cases hl
      rfl

theorem readExact_placed (l : Lexeme) (cause : SyntaxCause) (ts : List Token) :
    readExact (place stop) l cause (ts.map (Token.placed place)) =
      placed place (readExact stop l cause ts) := by
  cases ts with
  | nil => rfl
  | cons t rest =>
    rw [List.map_cons, readExact_cons, readExact_cons, Token.lexeme_placed]
    split <;> rfl

theorem readCloser_placed (ts : List Token) :
    readCloser (place stop) (ts.map (Token.placed place)) = placed place (readCloser stop ts) := by
  cases ts with
  | nil => rfl
  | cons t rest =>
    rw [List.map_cons, readCloser_cons, readCloser_cons, Token.lexeme_placed]
    split
    · rfl
    · split <;> rfl

theorem joinLimits_placed (opener : Token) (low high : Option Value) (inclusive : Bool)
    (rest : List Token) :
    (joinLimits (opener.placed place) low high inclusive).map
        (fun r => (r, rest.map (Token.placed place))) =
      placed place ((joinLimits opener low high inclusive).map fun r => (r, rest)) := by
  rw [joinLimits, joinLimits, Token.lexeme_placed]
  cases range? (opener.lexeme = .lbracket) inclusive low high <;> rfl

theorem readRange_placed (opener : Token) (ts : List Token) :
    readRange (place stop) (opener.placed place) (ts.map (Token.placed place)) =
      placed place (readRange stop opener ts) := by
  rw [readRange_eq, readRange_eq, readLimit_placed]
  refine placed_bind fun low ts₁ _ => ?_
  simp only
  rw [readExact_placed]
  refine placed_bind fun _ ts₂ _ => ?_
  simp only
  rw [readLimit_placed]
  refine placed_bind fun high ts₃ _ => ?_
  simp only
  rw [readCloser_placed]
  exact placed_bind fun inclusive ts₄ _ => joinLimits_placed opener low high inclusive ts₄

theorem dotsAhead_placed (depth : Nat) (ts : List Token) :
    dotsAhead depth (ts.map (Token.placed place)) = dotsAhead depth ts := by
  induction ts generalizing depth with
  | nil => rfl
  | cons t rest ih => rw [List.map_cons, dotsAhead, dotsAhead, Token.lexeme_placed, ih, ih, ih]

theorem opensRange_placed (t : Token) (rest : List Token) :
    opensRange (t.placed place) (rest.map (Token.placed place)) = opensRange t rest := by
  rw [opensRange, opensRange, dotsAhead_placed, Token.lexeme_placed]

/-! ### Filters -/

theorem startsTerm_placed (ts : List Token) :
    startsTerm (ts.map (Token.placed place)) = startsTerm ts := by
  cases ts <;> rfl

theorem ne_cons_placed {l : Lexeme} {ts : List Token} (h : ∀ p rest, ts ≠ ⟨l, p⟩ :: rest) :
    ∀ p rest, ts.map (Token.placed place) ≠ ⟨l, p⟩ :: rest := by
  intro p rest heq
  obtain ⟨⟨l', p'⟩, more, rfl, ht, -⟩ := List.map_eq_cons_iff.1 heq
  obtain rfl : l' = l := congrArg Token.lexeme ht
  exact h p' more rfl

theorem readPrimary_range_placed {t : Token} {rest : List Token} (h : opensRange t rest = true) :
    readPrimary (place stop) ((t :: rest).map (Token.placed place)) =
      placed place (readPrimary stop (t :: rest)) := by
  rw [List.map_cons, readPrimary_range h, readPrimary_range (by rw [opensRange_placed, h]),
    readRange_placed]
  exact placed_map place (readRange stop t rest) AnyRange.toFilter

theorem readPrimary_group_placed {t : Token} {rest : List Token} (hopen : t.lexeme = .lparen)
    (hdots : dotsAhead 1 rest = false)
    (ih : readOr (place stop) (rest.map (Token.placed place)) = placed place (readOr stop rest)) :
    readPrimary (place stop) ((t :: rest).map (Token.placed place)) =
      placed place (readPrimary stop (t :: rest)) := by
  rw [List.map_cons, readPrimary_group hopen hdots,
    readPrimary_group (t := t.placed place) hopen (by rw [dotsAhead_placed, hdots]), ih]
  refine placed_bind fun f rest₁ _ => ?_
  simp only
  rw [readExact_placed]
  exact placed_map place (readExact stop .rparen .noClosingParenthesis rest₁) fun _ => f

/-- The descent reads tokens at other places as it reads them where they stand. -/
theorem descent_placed (place : Nat → Nat) (stop : Nat) :
    (∀ ts, readPrimary (place stop) (ts.map (Token.placed place)) =
      placed place (readPrimary stop ts)) ∧
    (∀ ts, readOr (place stop) (ts.map (Token.placed place)) = placed place (readOr stop ts)) ∧
    (∀ f ts, readOrRest (place stop) f (ts.map (Token.placed place)) =
      placed place (readOrRest stop f ts)) ∧
    (∀ ts, readAnd (place stop) (ts.map (Token.placed place)) = placed place (readAnd stop ts)) ∧
    (∀ f ts, readAndRest (place stop) f (ts.map (Token.placed place)) =
      placed place (readAndRest stop f ts)) ∧
    (∀ ts, readUnary (place stop) (ts.map (Token.placed place)) =
      placed place (readUnary stop ts)) := by
  refine parsePrimary.mutual_induct _ _ _ _ _ _ ?_ ?_ ?_ ?_ ?_ ?_ ?_ ?_ ?_ ?_ ?_ ?_ ?_ ?_ ?_ ?_ ?_
  -- a primary
  · rw [List.map_nil, readPrimary_nil, readPrimary_nil]
    rfl
  · intro t rest w hl
    rw [List.map_cons, readPrimary_word hl, readPrimary_word (t := t.placed place) hl]
    rfl
  · intro t rest w hl
    rw [List.map_cons, readPrimary_tag hl, readPrimary_tag (t := t.placed place) hl]
    exact placed_located t.position (tagOf w) _ rest
  · intro t rest w hl
    rw [List.map_cons, readPrimary_status hl, readPrimary_status (t := t.placed place) hl]
    exact placed_located t.position (statusOf w) _ rest
  · intro t rest n hl
    rw [List.map_cons, readPrimary_priority hl, readPrimary_priority (t := t.placed place) hl]
    exact placed_located t.position (priorityOf n) _ rest
  · intro t rest hl
    exact readPrimary_range_placed (by simp [opensRange, hl])
  · intro t rest hl hdots
    exact readPrimary_range_placed (by simp [opensRange, hl, hdots])
  · intro t rest hl hdots ih
    exact readPrimary_group_placed hl (by simpa using hdots) ih
  · intro t rest hword htag hstatus hpriority hsquare hround
    rw [List.map_cons, readPrimary_other hword htag hstatus hpriority hsquare hround,
      readPrimary_other (t := t.placed place) hword htag hstatus hpriority hsquare hround]
    rfl
  -- a disjunction
  · intro ts ih ihRest
    rw [readOr_eq, readOr_eq, ih]
    exact placed_bind fun f rest h => ihRest f rest (of_plain_eq_ok h)
  · intro f ts hterm ih ihRest
    rw [readOrRest_term hterm, readOrRest_term (by rw [startsTerm_placed, hterm]), ih]
    exact placed_bind fun g rest h => ihRest g rest (of_plain_eq_ok h)
  · intro f ts hterm
    have hstop : startsTerm ts = false := by simpa using hterm
    rw [readOrRest_stop hstop, readOrRest_stop (by rw [startsTerm_placed, hstop])]
    rfl
  -- a conjunction
  · intro ts ih ihRest
    rw [readAnd_eq, readAnd_eq, ih]
    exact placed_bind fun f rest h => ihRest f rest (of_plain_eq_ok h)
  · intro f p rest ih ihRest
    rw [List.map_cons, readAndRest_and, Token.placed, readAndRest_and, ih]
    exact placed_bind fun g rest h => ihRest g rest (of_plain_eq_ok h)
  · intro f ts hts
    rw [readAndRest_of_ne hts, readAndRest_of_ne (ne_cons_placed hts)]
    rfl
  -- a negation
  · intro p rest ih
    rw [List.map_cons, readUnary_not, Token.placed, readUnary_not, ih]
    exact placed_map place (readUnary stop rest) Filter.not
  · intro ts hts ih
    rw [readUnary_of_ne hts, readUnary_of_ne (ne_cons_placed hts), ih]

/-! ### Stages -/

theorem keyword?_placed (ts : List Token) :
    keyword? (ts.map (Token.placed place)) = keyword? ts := by
  match ts with
  | [] => rfl
  | [⟨l, p⟩] => cases l <;> rfl
  | ⟨l, p⟩ :: _ :: _ => cases l <;> rfl

/-- A stage that is put elsewhere is the same filter, or is wrong at the place where its error was
put. -/
theorem parseStage_placed (stop : Nat) (ts : List Token) :
    parseStage (place stop) (ts.map (Token.placed place)) =
      (parseStage stop ts).mapError (ParseError.placed place) := by
  by_cases hne : ts = []
  · subst hne
    rfl
  cases hkeyword : keyword? ts with
  | some f =>
    rw [parseStage_keyword hkeyword, parseStage_keyword (by rw [keyword?_placed, hkeyword])]
    rfl
  | none =>
    rw [parseStage_filter hne hkeyword,
      parseStage_filter (by simpa using hne) (by rw [keyword?_placed, hkeyword]),
      (descent_placed place stop).2.1 ts]
    rcases readOr stop ts with e | ⟨f, rest⟩
    · rfl
    · cases rest <;> rfl

end TodoLists.Query
