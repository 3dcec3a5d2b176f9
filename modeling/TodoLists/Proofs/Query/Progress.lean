import TodoLists.Proofs.Query.Cursor

/-!
# Parsing makes progress

Wherever a cursor stands, each function of the descent fails or moves it on by at least one token,
and never past the end. So its loops and its calls of itself come to an end: four nested calls for
each token that is left are enough for all of them, and no more tokens are consumed than are left,
whether the reading fails or not.
-/

namespace TodoLists.Query

variable {stop : Nat} {tokens : List Token} {k n : Nat}

/-! ### What a call leaves -/

/-- A call that begins a filter consumes a token. -/
theorem Call.length_lt {c : Call} (hfresh : c.isFresh = true) {ts rest : List Token} {f : Filter}
    (h : c.read stop ts = .ok (f, rest)) : rest.length < ts.length := by
  cases c with
  | primary | unary | conjunction | disjunction => exact of_plain_eq_ok h
  | conjuncts | disjuncts => cases hfresh

theorem Call.lt_of_read {c : Call} (hfresh : c.isFresh = true) {j : Nat} {f : Filter}
    (h : c.read stop (tokens.drop k) = .ok (f, tokens.drop j)) : k < j := by
  have hlt := Call.length_lt hfresh h
  rw [List.length_drop, List.length_drop] at hlt
  omega

/-! ### How deep calls are nested -/

/-- How many nested calls are enough when so many tokens are left. A call either leaves a token
less to the calls inside it or is followed by a call of a kind further down. -/
def Call.depth : Call → Nat → Nat
  | primary, left => 4 * left + 1
  | unary, left => 4 * left + 2
  | conjunction, left => 4 * left + 3
  | conjuncts _, left => 4 * left + 1
  | disjunction, left => 4 * left + 4
  | disjuncts _, left => 4 * left + 4

theorem Call.depth_le (c : Call) (left : Nat) : c.depth left ≤ 4 * left + 4 := by
  cases c <;> simp only [depth] <;> omega

namespace AtCursor

variable (stop tokens n) in
/-- So many nested calls are enough for every call that needs no more. -/
def Reaches : Prop :=
  ∀ (c : Call) (k : Nat), k ≤ tokens.length → c.depth (tokens.length - k) ≤ n →
    Follows tokens (descend stop tokens n c) k (c.read stop (tokens.drop k))

theorem follows_primary (ih : Reaches stop tokens n) (hk : k ≤ tokens.length)
    (hn : Call.primary.depth (tokens.length - k) ≤ n + 1) :
    Follows tokens (descend stop tokens (n + 1) .primary) k
      (readPrimary stop (tokens.drop k)) := by
  rw [descend, follows_peek]
  rcases cursor_cases tokens k with ⟨hnone, hnil⟩ | ⟨t, hsome, hlt, hcons⟩
  · rw [hnone, hnil, readPrimary_nil]
    exact follows_throw hk _
  · rw [hsome, hcons]
    have hrange (hopens : opensRange t (tokens.drop (k + 1)) = true) :
        Follows tokens (do return (← range stop tokens t).toFilter) k
          (readPrimary stop (t :: tokens.drop (k + 1))) := by
      rw [readPrimary_range hopens]
      exact (follows_range stop hlt t).map AnyRange.toFilter
    cases hl : t.lexeme with
    | word w =>
      rw [readPrimary_word hl]
      simp only [hl]
      exact follows_advance hlt (follows_pure hlt _)
    | tag w =>
      rw [readPrimary_tag hl]
      simp only [hl]
      exact follows_advance hlt (follows_ofExcept_map hlt _ Filter.tag)
    | status w =>
      rw [readPrimary_status hl]
      simp only [hl]
      exact follows_advance hlt (follows_ofExcept_map hlt _ fun s => Filter.status (.only s))
    | priority m =>
      rw [readPrimary_priority hl]
      simp only [hl]
      exact follows_advance hlt (follows_ofExcept_map hlt _ fun p => Filter.priority (.only p))
    | lbracket =>
      simp only [hl]
      exact hrange (by simp [opensRange, hl])
    | lparen =>
      simp only [hl]
      rw [follows_place]
      split
      · next hopens => exact hrange hopens
      · next hopens =>
        have hdots : dotsAhead 1 (tokens.drop (k + 1)) = false := by
          simpa [opensRange, hl] using hopens
        rw [readPrimary_group hl hdots]
        have hinside := ih .disjunction (k + 1) hlt (by simp only [Call.depth] at hn ⊢; omega)
        refine follows_advance hlt (hinside.bind fun f j _ hj _ => ?_)
        exact (follows_require stop hj _ _).map fun _ => f
    | arrow | dots | rparen | rbracket | and | not =>
      rw [readPrimary_other] <;>
        simp only [hl, ne_eq, reduceCtorEq, not_false_eq_true, implies_true]
      exact follows_throw hk _

theorem follows_unary (ih : Reaches stop tokens n) (hk : k ≤ tokens.length)
    (hn : Call.unary.depth (tokens.length - k) ≤ n + 1) :
    Follows tokens (descend stop tokens (n + 1) .unary) k (readUnary stop (tokens.drop k)) := by
  simp only [Call.depth] at hn
  rw [descend, follows_peek]
  split
  · next p hp =>
    obtain ⟨hlt, hcons⟩ := drop_of_peek hp
    have hinside := ih .unary (k + 1) hlt (by simp only [Call.depth]; omega)
    rw [hcons, readUnary_not]
    exact follows_advance hlt (hinside.map Filter.not)
  · next hne =>
    have hinside := ih .primary k hk (by simp only [Call.depth]; omega)
    rw [readUnary_of_ne fun p rest h => hne p (peek_of_drop h)]
    exact hinside

theorem follows_conjunction (ih : Reaches stop tokens n) (hk : k ≤ tokens.length)
    (hn : Call.conjunction.depth (tokens.length - k) ≤ n + 1) :
    Follows tokens (descend stop tokens (n + 1) .conjunction) k
      (readAnd stop (tokens.drop k)) := by
  simp only [Call.depth] at hn
  rw [descend, readAnd_eq]
  have hfirst := ih .unary k hk (by simp only [Call.depth]; omega)
  refine hfirst.bind fun f j _ hj hread => ?_
  have hkj := Call.lt_of_read rfl hread
  exact ih (.conjuncts f) j hj (by simp only [Call.depth]; omega)

theorem follows_conjuncts (ih : Reaches stop tokens n) (hk : k ≤ tokens.length) (f : Filter)
    (hn : (Call.conjuncts f).depth (tokens.length - k) ≤ n + 1) :
    Follows tokens (descend stop tokens (n + 1) (.conjuncts f)) k
      (readAndRest stop f (tokens.drop k)) := by
  simp only [Call.depth] at hn
  rw [descend, follows_peek]
  split
  · next p hp =>
    obtain ⟨hlt, hcons⟩ := drop_of_peek hp
    have hnext := ih .unary (k + 1) hlt (by simp only [Call.depth]; omega)
    rw [hcons, readAndRest_and]
    refine follows_advance hlt (hnext.bind fun g j _ hj hread => ?_)
    have hkj := Call.lt_of_read rfl hread
    exact ih (.conjuncts (f.both g)) j hj (by simp only [Call.depth]; omega)
  · next hne =>
    rw [readAndRest_of_ne fun p rest h => hne p (peek_of_drop h)]
    exact follows_pure hk f

theorem follows_disjunction (ih : Reaches stop tokens n) (hk : k ≤ tokens.length)
    (hn : Call.disjunction.depth (tokens.length - k) ≤ n + 1) :
    Follows tokens (descend stop tokens (n + 1) .disjunction) k
      (readOr stop (tokens.drop k)) := by
  simp only [Call.depth] at hn
  rw [descend, readOr_eq]
  have hfirst := ih .conjunction k hk (by simp only [Call.depth]; omega)
  refine hfirst.bind fun f j _ hj hread => ?_
  have hkj := Call.lt_of_read rfl hread
  exact ih (.disjuncts f) j hj (by simp only [Call.depth]; omega)

theorem follows_disjuncts (ih : Reaches stop tokens n) (hk : k ≤ tokens.length) (f : Filter)
    (hn : (Call.disjuncts f).depth (tokens.length - k) ≤ n + 1) :
    Follows tokens (descend stop tokens (n + 1) (.disjuncts f)) k
      (readOrRest stop f (tokens.drop k)) := by
  simp only [Call.depth] at hn
  rw [descend, follows_place]
  split
  · next hterm =>
    have hnext := ih .conjunction k hk (by simp only [Call.depth]; omega)
    rw [readOrRest_term hterm]
    refine hnext.bind fun g j _ hj hread => ?_
    have hkj := Call.lt_of_read rfl hread
    exact ih (.disjuncts (f.either g)) j hj (by simp only [Call.depth]; omega)
  · next hterm =>
    rw [readOrRest_stop (eq_false_of_ne_true hterm)]
    exact follows_pure hk f

/-- One call more inside, for each kind of call. -/
theorem reaches (stop : Nat) (tokens : List Token) (n : Nat) : Reaches stop tokens n := by
  induction n with
  | zero =>
    intro c k _ hn
    cases c <;> simp only [Call.depth] at hn <;> omega
  | succ n ih =>
    intro c k hk hn
    cases c with
    | primary => exact follows_primary ih hk hn
    | unary => exact follows_unary ih hk hn
    | conjunction => exact follows_conjunction ih hk hn
    | conjuncts f => exact follows_conjuncts ih hk f hn
    | disjunction => exact follows_disjunction ih hk hn
    | disjuncts f => exact follows_disjuncts ih hk f hn

/-! ### Progress -/

/-- The action comes to a result, which the parser gives as well from the tokens that are left. It
consumes a token for each place it moves on, at least one unless it is a failure, and no more than
there are before the end. -/
def MovesOn {α : Type} (tokens : List Token) (m : AtCursor α) (k : Nat)
    (x : Except ParseError (α × List Token)) : Prop :=
  ∃ outcome used, m.runFrom ⟨k, 0⟩ = some (outcome, ⟨k + used, used⟩) ∧
    k + used ≤ tokens.length ∧ (x = outcome.map fun a => (a, tokens.drop (k + used))) ∧
    ∀ a, outcome = .ok a → 0 < used

theorem Follows.movesOn {α : Type} {m : AtCursor α} {x : Except ParseError (α × List Token)}
    (h : Follows tokens m k x)
    (hlt : ∀ a rest, x = .ok (a, rest) → rest.length < (tokens.drop k).length) :
    MovesOn tokens m k x := by
  obtain ⟨outcome, used, hrun, hend, rfl⟩ := h
  refine ⟨outcome, used, ?_, hend, rfl, ?_⟩
  · have hstart := hrun 0
    rwa [Nat.zero_add] at hstart
  · rintro a rfl
    have hleft := hlt a (tokens.drop (k + used)) rfl
    rw [List.length_drop, List.length_drop] at hleft
    omega

/-- From any cursor, each function of the descent fails or moves the cursor on, and its loops go on
without moving it back. Four nested calls for each token that is left and four more are enough, and
all of them together consume at most the tokens that are left. -/
theorem parsing_makes_progress (stop : Nat) (tokens : List Token) {k n : Nat}
    (hk : k ≤ tokens.length) (hn : 4 * (tokens.length - k) + 4 ≤ n) :
    (∀ c : Call, c.isFresh = true →
      MovesOn tokens (descend stop tokens n c) k (c.read stop (tokens.drop k))) ∧
    (∀ c : Call, c.isFresh = false →
      Follows tokens (descend stop tokens n c) k (c.read stop (tokens.drop k))) ∧
    ∀ t, tokens[k]? = some t → isOpener t.lexeme = true →
      MovesOn tokens (range stop tokens t) k (readRange stop t (tokens.drop (k + 1))) := by
  have hfollows (c : Call) :
      Follows tokens (descend stop tokens n c) k (c.read stop (tokens.drop k)) :=
    reaches stop tokens n c k hk (Nat.le_trans (c.depth_le _) hn)
  refine ⟨fun c hfresh => ?_, fun c _ => hfollows c, fun t ht _ => ?_⟩
  · exact (hfollows c).movesOn fun f rest h => Call.length_lt hfresh h
  · obtain ⟨hlt, hcons⟩ := drop_of_peek ht
    refine (follows_range stop hlt t).movesOn fun r rest h => ?_
    have hrest := of_plain_eq_ok h
    rw [hcons, List.length_cons]
    omega

/-- The tokens of a range without limits. -/
def bareRange : List Token := [⟨.lbracket, 0⟩, ⟨.dots, 1⟩, ⟨.rbracket, 4⟩]

theorem parsing_makes_progress_bare :
    MovesOn bareRange (descend 5 bareRange 16 .disjunction) 0 (readOr 5 bareRange) ∧
      MovesOn bareRange (range 5 bareRange ⟨.lbracket, 0⟩) 0
        (readRange 5 ⟨.lbracket, 0⟩ [⟨.dots, 1⟩, ⟨.rbracket, 4⟩]) := by
  have hprogress := parsing_makes_progress 5 bareRange (k := 0) (n := 16) (by decide) (by decide)
  exact ⟨hprogress.1 .disjunction rfl, hprogress.2.2 _ rfl rfl⟩

end AtCursor

end TodoLists.Query
