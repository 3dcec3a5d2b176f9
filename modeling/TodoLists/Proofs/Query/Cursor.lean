import TodoLists.Proofs.Query.Descent

/-!
# The descent at a cursor

The tokens stay where they are and a cursor moves over them, one place for each token that is
consumed. Behind the last token the cursor stands on the end of the stage, where it stays. A
reading fails or gives a value, and either way the cursor is where reading has stopped. Calls are
nested up to a given number, and what is nested deeper gives no result at all.

The same descent is written here for a cursor, each loop as a call that goes on, so how often it
loops counts as well. `Follows` says that an action at a cursor has a result, that it consumes a
token for each place it moves on, and that the parser gives the same result from the tokens that are
left. There is a rule for it for every step.
-/

namespace TodoLists.Query

/-- The place of the cursor, and how often a token was consumed. -/
structure Cursor where
  place : Nat
  consumed : Nat

/-- An action that moves a cursor and fails or gives a value, or has no result. -/
abbrev AtCursor (α : Type) := ExceptT ParseError (StateT Cursor Option) α

namespace AtCursor

variable {α β : Type} (stop : Nat) (tokens : List Token)

/-- The outcome of an action and where it leaves the cursor. -/
def runFrom (m : AtCursor α) (cursor : Cursor) : Option (Except ParseError α × Cursor) :=
  m.run.run cursor

def place : AtCursor Nat := do return (← get).place

/-- The token at the cursor, or none at the end. -/
def peek : AtCursor (Option Token) := do return tokens[← place]?

/-- Consumes the token at the cursor. At the end the cursor would stay, but this counts as well. -/
def advance : AtCursor Unit := modify fun cursor =>
  ⟨if cursor.place < tokens.length then cursor.place + 1 else cursor.place, cursor.consumed + 1⟩

/-- What is nested too deep. -/
def tooDeep : AtCursor α := ExceptT.mk fun _ => none

/-! ### Ranges -/

/-- The value of a limit, if it has one. -/
def limit : AtCursor (Option Value) := do
  match ← peek tokens with
  | none => throw ⟨.noLimit, stop⟩
  | some t =>
    match t.lexeme with
    | .status w => do
      advance tokens
      return some (.status (← ofExcept (located t.position (statusOf w))))
    | .priority n => do
      advance tokens
      return some (.number (← ofExcept (located t.position (priorityOf n))))
    | .word w =>
      if isUnboundedWord w then do
        advance tokens
        return none
      else throw ⟨.noLimit, t.position⟩
    | .dots | .rparen | .rbracket => return none
    | _ => throw ⟨.noLimit, t.position⟩

/-- The token that has to come next, or else the cause. -/
def require (lexeme : Lexeme) (cause : SyntaxCause) : AtCursor Unit := do
  match ← peek tokens with
  | none => throw ⟨cause, stop⟩
  | some t => if t.lexeme = lexeme then advance tokens else throw ⟨cause, t.position⟩

/-- The closing bracket of a range, and whether it includes the limit. -/
def closer : AtCursor Bool := do
  match ← peek tokens with
  | none => throw ⟨.noClosingBracket, stop⟩
  | some t =>
    if t.lexeme = .rparen then do
      advance tokens
      return false
    else if t.lexeme = .rbracket then do
      advance tokens
      return true
    else throw ⟨.noClosingBracket, t.position⟩

/-- A range at its opening bracket. -/
def range (opener : Token) : AtCursor AnyRange := do
  advance tokens
  let low ← limit stop tokens
  require stop tokens .dots .noDots
  let high ← limit stop tokens
  let inclusive ← closer stop tokens
  ofExcept (joinLimits opener low high inclusive)

end AtCursor

/-! ### Filters -/

/-- What the descent is called for. A conjunction and a disjunction go on from what they have
read. -/
inductive Call where
  | primary
  | unary
  | conjunction
  | conjuncts (f : Filter)
  | disjunction
  | disjuncts (f : Filter)

/-- The call begins a filter of its own. -/
def Call.isFresh : Call → Bool
  | conjuncts _ | disjuncts _ => false
  | _ => true

/-- What the parser reads when it is called. -/
def Call.read (stop : Nat) : Call → List Token → Except ParseError (Filter × List Token)
  | primary => readPrimary stop
  | unary => readUnary stop
  | conjunction => readAnd stop
  | conjuncts f => readAndRest stop f
  | disjunction => readOr stop
  | disjuncts f => readOrRest stop f

namespace AtCursor

variable (stop : Nat) (tokens : List Token)

/-- A call of the descent in which at most so many calls are nested. -/
def descend : Nat → Call → AtCursor Filter
  | 0, _ => tooDeep
  | n + 1, .primary => do
    match ← peek tokens with
    | none => throw ⟨.unexpectedEnd, stop⟩
    | some t =>
      match t.lexeme with
      | .word w => do
        advance tokens
        return .name (String.ofList w)
      | .tag w => do
        advance tokens
        return .tag (← ofExcept (located t.position (tagOf w)))
      | .status w => do
        advance tokens
        return .status (.only (← ofExcept (located t.position (statusOf w))))
      | .priority k => do
        advance tokens
        return .priority (.only (← ofExcept (located t.position (priorityOf k))))
      | .lbracket => return (← range stop tokens t).toFilter
      | .lparen => do
        if opensRange t (tokens.drop ((← place) + 1)) then
          return (← range stop tokens t).toFilter
        else
          advance tokens
          let f ← descend n .disjunction
          require stop tokens .rparen .noClosingParenthesis
          return f
      | l => throw ⟨.unexpected l, t.position⟩
  | n + 1, .unary => do
    match ← peek tokens with
    | some ⟨.not, _⟩ => do
      advance tokens
      return .not (← descend n .unary)
    | _ => descend n .primary
  | n + 1, .conjunction => do descend n (.conjuncts (← descend n .unary))
  | n + 1, .conjuncts f => do
    match ← peek tokens with
    | some ⟨.and, _⟩ => do
      advance tokens
      descend n (.conjuncts (f.both (← descend n .unary)))
    | _ => return f
  | n + 1, .disjunction => do descend n (.disjuncts (← descend n .conjunction))
  | n + 1, .disjuncts f => do
    if startsTerm (tokens.drop (← place)) then
      descend n (.disjuncts (f.either (← descend n .conjunction)))
    else return f

/-! ### Following the parser -/

variable {tokens} {α β : Type} {k : Nat}

variable (tokens) in
/-- The action comes to a result without moving the cursor past the end, consumes a token for each
place it moves on, and the parser gives the same result from the tokens that are left. -/
def Follows (m : AtCursor α) (k : Nat) (x : Except ParseError (α × List Token)) : Prop :=
  ∃ outcome used, (∀ before, m.runFrom ⟨k, before⟩ = some (outcome, ⟨k + used, before + used⟩)) ∧
    k + used ≤ tokens.length ∧ x = outcome.map fun a => (a, tokens.drop (k + used))

theorem follows_pure (hk : k ≤ tokens.length) (a : α) :
    Follows tokens (pure a) k (.ok (a, tokens.drop k)) :=
  ⟨.ok a, 0, fun _ => rfl, hk, rfl⟩

theorem follows_throw (hk : k ≤ tokens.length) (e : ParseError) :
    Follows tokens (throw e : AtCursor α) k (.error e) :=
  ⟨.error e, 0, fun _ => rfl, hk, rfl⟩

theorem follows_ofExcept (hk : k ≤ tokens.length) (x : Except ParseError α) :
    Follows tokens (ofExcept x) k (x.map fun a => (a, tokens.drop k)) := by
  cases x with
  | error e => exact follows_throw hk e
  | ok a => exact follows_pure hk a

theorem follows_ofExcept_map (hk : k ≤ tokens.length) (x : Except ParseError α) (g : α → β) :
    Follows tokens (do return g (← ofExcept x)) k (x.map fun a => (g a, tokens.drop k)) := by
  cases x with
  | error e => exact follows_throw hk e
  | ok a => exact follows_pure hk (g a)

theorem follows_place {f : Nat → AtCursor α} {x : Except ParseError (α × List Token)} :
    Follows tokens (place >>= f) k x ↔ Follows tokens (f k) k x := Iff.rfl

theorem follows_peek {f : Option Token → AtCursor α} {x : Except ParseError (α × List Token)} :
    Follows tokens (peek tokens >>= f) k x ↔ Follows tokens (f tokens[k]?) k x := Iff.rfl

theorem runFrom_bind (m : AtCursor α) (f : α → AtCursor β) (cursor : Cursor) :
    (m >>= f).runFrom cursor = (m.runFrom cursor).bind fun
      | (.error e, cursor') => some (.error e, cursor')
      | (.ok a, cursor') => (f a).runFrom cursor' := by
  rw [runFrom, ExceptT.run_bind, StateT.run_bind]
  rcases hm : m.run.run cursor with _ | ⟨e | a, cursor'⟩ <;> simp [runFrom, hm]

theorem Follows.bind {m : AtCursor α} {f : α → AtCursor β}
    {x : Except ParseError (α × List Token)}
    {y : α × List Token → Except ParseError (β × List Token)} (hm : Follows tokens m k x)
    (hf : ∀ a j, k ≤ j → j ≤ tokens.length → x = .ok (a, tokens.drop j) →
      Follows tokens (f a) j (y (a, tokens.drop j))) : Follows tokens (m >>= f) k (x.bind y) := by
  obtain ⟨outcome, used, hrun, hend, rfl⟩ := hm
  cases outcome with
  | error e =>
    exact ⟨.error e, used, fun before => by rw [runFrom_bind, hrun]; rfl, hend, rfl⟩
  | ok a =>
    obtain ⟨outcome, more, hrun', hend', hy⟩ := hf a (k + used) (Nat.le_add_right k used) hend rfl
    rw [Nat.add_assoc] at hend' hy
    refine ⟨outcome, used + more, fun before => ?_, hend', hy⟩
    rw [runFrom_bind, hrun, ← Nat.add_assoc, ← Nat.add_assoc]
    exact hrun' (before + used)

/-- Consuming the token at the cursor. -/
theorem follows_advance {f : Unit → AtCursor α} {x : Except ParseError (α × List Token)}
    (hk : k < tokens.length) (h : Follows tokens (f ()) (k + 1) x) :
    Follows tokens (advance tokens >>= f) k x := by
  obtain ⟨outcome, used, hrun, hend, hx⟩ := h
  rw [Nat.add_assoc] at hend hx
  refine ⟨outcome, 1 + used, fun before => ?_, hend, hx⟩
  have hmove : (advance tokens).runFrom ⟨k, before⟩ = some (.ok (), ⟨k + 1, before + 1⟩) := by
    show some (Except.ok (), (⟨if k < tokens.length then k + 1 else k, before + 1⟩ : Cursor)) = _
    rw [if_pos hk]
  rw [runFrom_bind, hmove, ← Nat.add_assoc, ← Nat.add_assoc]
  exact hrun (before + 1)

theorem Follows.map {m : AtCursor α} {x : Except ParseError (α × List Token)} (g : α → β)
    (hm : Follows tokens m k x) :
    Follows tokens (do return g (← m)) k (x.map fun y => (g y.1, y.2)) := by
  have hbind : (x.map fun y => (g y.1, y.2)) = x.bind fun y => .ok (g y.1, y.2) := by
    cases x <;> rfl
  rw [hbind]
  exact hm.bind fun a j _ hj _ => follows_pure hj (g a)

theorem drop_of_peek {t : Token} (h : tokens[k]? = some t) :
    k < tokens.length ∧ tokens.drop k = t :: tokens.drop (k + 1) := by
  obtain ⟨hlt, rfl⟩ := List.getElem?_eq_some_iff.1 h
  exact ⟨hlt, List.drop_eq_getElem_cons hlt⟩

theorem peek_of_drop {t : Token} {rest : List Token} (h : tokens.drop k = t :: rest) :
    tokens[k]? = some t := by
  rw [← List.head?_drop, h, List.head?_cons]

/-- The cursor stands on a token or at the end. -/
theorem cursor_cases (tokens : List Token) (k : Nat) :
    (tokens[k]? = none ∧ tokens.drop k = []) ∨
      ∃ t, tokens[k]? = some t ∧ k < tokens.length ∧ tokens.drop k = t :: tokens.drop (k + 1) := by
  cases h : tokens[k]? with
  | none => exact Or.inl ⟨rfl, List.drop_eq_nil_iff.2 (List.getElem?_eq_none_iff.1 h)⟩
  | some t => exact Or.inr ⟨t, rfl, drop_of_peek h⟩

/-! ### Ranges follow the parser -/

theorem follows_limit (hk : k ≤ tokens.length) :
    Follows tokens (limit stop tokens) k (readLimit stop (tokens.drop k)) := by
  rw [limit, follows_peek]
  rcases cursor_cases tokens k with ⟨hnone, hnil⟩ | ⟨t, hsome, hlt, hcons⟩
  · rw [hnone, hnil, readLimit_nil]
    exact follows_throw hk _
  · rw [hsome, hcons]
    cases hl : t.lexeme with
    | status w =>
      rw [readLimit_status hl]
      simp only [hl]
      exact follows_advance hlt (follows_ofExcept_map hlt _ fun s => some (Value.status s))
    | priority n =>
      rw [readLimit_priority hl]
      simp only [hl]
      exact follows_advance hlt (follows_ofExcept_map hlt _ fun p => some (Value.number p))
    | word w =>
      rw [readLimit_word hl]
      simp only [hl]
      split
      · exact follows_advance hlt (follows_pure hlt none)
      · exact follows_throw hk _
    | dots | rparen | rbracket =>
      rw [readLimit_omitted (by rw [hl]; rfl), ← hcons]
      simp only [hl]
      exact follows_pure hk none
    | arrow | lparen | lbracket | and | not | tag =>
      rw [readLimit_other] <;>
        simp only [hl, Lexeme.endsLimit, ne_eq, reduceCtorEq, not_false_eq_true, implies_true]
      exact follows_throw hk _

theorem follows_require (hk : k ≤ tokens.length) (lexeme : Lexeme) (cause : SyntaxCause) :
    Follows tokens (require stop tokens lexeme cause) k
      (readExact stop lexeme cause (tokens.drop k)) := by
  rw [require, follows_peek]
  rcases cursor_cases tokens k with ⟨hnone, hnil⟩ | ⟨t, hsome, hlt, hcons⟩
  · rw [hnone, hnil, readExact_nil]
    exact follows_throw hk _
  · rw [hsome, hcons, readExact_cons]
    simp only
    split
    · exact follows_advance (f := pure) hlt (follows_pure hlt ())
    · exact follows_throw hk _

theorem follows_closer (hk : k ≤ tokens.length) :
    Follows tokens (closer stop tokens) k (readCloser stop (tokens.drop k)) := by
  rw [closer, follows_peek]
  rcases cursor_cases tokens k with ⟨hnone, hnil⟩ | ⟨t, hsome, hlt, hcons⟩
  · rw [hnone, hnil, readCloser_nil]
    exact follows_throw hk _
  · rw [hsome, hcons, readCloser_cons]
    simp only
    split
    · exact follows_advance hlt (follows_pure hlt false)
    · split
      · exact follows_advance hlt (follows_pure hlt true)
      · exact follows_throw hk _

theorem follows_range (hk : k < tokens.length) (opener : Token) :
    Follows tokens (range stop tokens opener) k
      (readRange stop opener (tokens.drop (k + 1))) := by
  rw [readRange_eq]
  refine follows_advance hk ?_
  refine (follows_limit stop hk).bind fun low j₁ _ hj₁ _ => ?_
  refine (follows_require stop hj₁ _ _).bind fun _ j₂ _ hj₂ _ => ?_
  refine (follows_limit stop hj₂).bind fun high j₃ _ hj₃ _ => ?_
  refine (follows_closer stop hj₃).bind fun inclusive j₄ _ hj₄ _ => ?_
  exact follows_ofExcept hj₄ _

end AtCursor

end TodoLists.Query
