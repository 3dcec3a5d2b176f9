import TodoLists.Proofs.Query.Completeness
import TodoLists.Proofs.Query.Cursor

/-!
# The lookahead from a parenthesis

Whether a parenthesis begins a range is found out by counting open brackets up to a `...`. Here it
is said without counting which `...` it takes: one before which every bracket opened behind the
parenthesis has been closed, but not the parenthesis itself. A closer of either kind closes an
opener of either kind, and what follows the `...` may be anything.

Which bracket a closer closes is said by what stands between the two, where every bracket is closed
again. The scan knows only how many brackets are open. `ClosesAll` joins both: it is said of tokens
that close so many brackets from before and everything they open.

At a cursor the lookahead is a loop over offsets. It looks at the tokens that are left and once at
the end, and leaves the cursor where it is.
-/

namespace TodoLists.Query

variable {t : Token} {inside rest ts : List Token} {n : Nat}

/-! ### Brackets that are closed -/

/-- Every bracket among the tokens is closed among them, and every closer closes one of them. -/
inductive Balanced : List Token → Prop where
  | nil : Balanced []
  | other {t : Token} {rest : List Token} (hopener : isOpener t.lexeme = false)
      (hcloser : isCloser t.lexeme = false) (hrest : Balanced rest) : Balanced (t :: rest)
  | bracket {opener closer : Token} {inside rest : List Token}
      (hopener : isOpener opener.lexeme = true) (hcloser : isCloser closer.lexeme = true)
      (hinside : Balanced inside) (hrest : Balanced rest) :
      Balanced (opener :: (inside ++ closer :: rest))

/-- The bracket that stands before these tokens is closed by one of them. -/
def ClosesBracket (ts : List Token) : Prop :=
  ∃ inside closer rest, ts = inside ++ closer :: rest ∧ isCloser closer.lexeme = true ∧
    Balanced inside

/-- Some `...` comes after tokens with the property. -/
def DotsAfter (p : List Token → Prop) (ts : List Token) : Prop :=
  ∃ inside dots rest, ts = inside ++ dots :: rest ∧ dots.lexeme = .dots ∧ p inside

/-- Behind a bracket some `...` follows before which every bracket that was opened has been closed,
but not the bracket itself. -/
def DotsFollow (ts : List Token) : Prop :=
  DotsAfter (fun inside =>
    (∀ before opener behind, inside = before ++ opener :: behind →
      isOpener opener.lexeme = true → ClosesBracket behind) ∧ ¬ ClosesBracket inside) ts

theorem isCloser_eq_false_of_isOpener {l : Lexeme} (h : isOpener l = true) :
    isCloser l = false := by
  cases l with
  | lparen | lbracket => rfl
  | _ => cases h

theorem balanced_cons_other (hopener : isOpener t.lexeme = false)
    (hcloser : isCloser t.lexeme = false) : Balanced (t :: rest) ↔ Balanced rest := by
  constructor
  · intro h
    cases h with
    | other _ _ hrest => exact hrest
    | bracket hopener' => simp [hopener] at hopener'
  · exact Balanced.other hopener hcloser

theorem not_balanced_cons_closer (h : isCloser t.lexeme = true) : ¬ Balanced (t :: rest) := by
  intro hbalanced
  cases hbalanced with
  | other _ hcloser => simp [h] at hcloser
  | bracket hopener => simp [isCloser_eq_false_of_isOpener hopener] at h

/-- A bracket is balanced together with what closes it, and then with what is balanced behind. -/
theorem balanced_cons_opener (h : isOpener t.lexeme = true) :
    Balanced (t :: rest) ↔ ∃ inside closer behind, rest = inside ++ closer :: behind ∧
      isCloser closer.lexeme = true ∧ Balanced inside ∧ Balanced behind := by
  constructor
  · intro hbalanced
    cases hbalanced with
    | other hopener => simp [h] at hopener
    | bracket _ hcloser hinside hrest => exact ⟨_, _, _, rfl, hcloser, hinside, hrest⟩
  · rintro ⟨inside, closer, behind, rfl, hcloser, hinside, hbehind⟩
    exact .bracket h hcloser hinside hbehind

/-! ### Closing brackets from before -/

/-- The tokens close so many brackets that are open before them, and every bracket they open. -/
def ClosesAll : Nat → List Token → Prop
  | 0, ts => Balanced ts
  | n + 1, ts => ∃ inside closer rest, ts = inside ++ closer :: rest ∧
      isCloser closer.lexeme = true ∧ Balanced inside ∧ ClosesAll n rest

theorem closesAll_nil : ClosesAll n [] ↔ n = 0 := by
  cases n with
  | zero => exact ⟨fun _ => rfl, fun _ => Balanced.nil⟩
  | succ n => simp [ClosesAll]

/-- The first bracket from before is closed by the first token or behind what it begins. -/
theorem closesAll_succ_cons : ClosesAll (n + 1) (t :: rest) ↔
    (isCloser t.lexeme = true ∧ ClosesAll n rest) ∨
      ∃ inside closer behind, rest = inside ++ closer :: behind ∧ isCloser closer.lexeme = true ∧
        Balanced (t :: inside) ∧ ClosesAll n behind := by
  constructor
  · rintro ⟨inside, closer, behind, heq, hcloser, hinside, hbehind⟩
    cases inside with
    | nil =>
      obtain ⟨rfl, rfl⟩ := List.cons.inj heq
      exact Or.inl ⟨hcloser, hbehind⟩
    | cons u inside =>
      obtain ⟨rfl, rfl⟩ := List.cons.inj heq
      exact Or.inr ⟨inside, closer, behind, rfl, hcloser, hinside, hbehind⟩
  · rintro (⟨hcloser, hrest⟩ | ⟨inside, closer, behind, rfl, hcloser, hinside, hbehind⟩)
    · exact ⟨[], t, rest, rfl, hcloser, .nil, hrest⟩
    · exact ⟨t :: inside, closer, behind, rfl, hcloser, hinside, hbehind⟩

theorem closesAll_cons_other (hopener : isOpener t.lexeme = false)
    (hcloser : isCloser t.lexeme = false) : ClosesAll n (t :: rest) ↔ ClosesAll n rest := by
  cases n with
  | zero => exact balanced_cons_other hopener hcloser
  | succ n =>
    rw [closesAll_succ_cons, or_iff_right (by simp [hcloser])]
    simp only [balanced_cons_other hopener hcloser]
    rfl

theorem closesAll_cons_closer (h : isCloser t.lexeme = true) :
    ClosesAll (n + 1) (t :: rest) ↔ ClosesAll n rest := by
  rw [closesAll_succ_cons, or_iff_left (by simp [not_balanced_cons_closer h]), and_iff_right h]

theorem closesAll_cons_opener (h : isOpener t.lexeme = true) :
    ClosesAll n (t :: rest) ↔ ClosesAll (n + 1) rest := by
  cases n with
  | zero => exact balanced_cons_opener h
  | succ n =>
    rw [closesAll_succ_cons, or_iff_right (by simp [isCloser_eq_false_of_isOpener h])]
    constructor
    · rintro ⟨inside, closer, behind, rfl, hcloser, hinside, hbehind⟩
      obtain ⟨within, closer', after, rfl, hcloser', hwithin, hafter⟩ :=
        (balanced_cons_opener h).1 hinside
      exact ⟨within, closer', after ++ closer :: behind, by simp, hcloser', hwithin, after, closer,
        behind, rfl, hcloser, hafter, hbehind⟩
    · rintro ⟨within, closer', _, rfl, hcloser', hwithin, after, closer, behind, rfl, hcloser,
        hafter, hbehind⟩
      exact ⟨within ++ closer' :: after, closer, behind, by simp, hcloser,
        .bracket h hcloser' hwithin hafter, hbehind⟩

/-- Balanced tokens leave the number of open brackets as it was. -/
theorem Balanced.closesAll_append (h : Balanced inside) :
    ClosesAll n (inside ++ rest) ↔ ClosesAll n rest := by
  induction h generalizing n rest with
  | nil => rfl
  | other hopener hcloser _ ih => rw [List.cons_append, closesAll_cons_other hopener hcloser, ih]
  | bracket hopener hcloser _ _ ihinside ihrest =>
    rw [List.cons_append, List.append_assoc, List.cons_append, closesAll_cons_opener hopener,
      ihinside, closesAll_cons_closer hcloser, ihrest]

/-! ### What it is to be balanced -/

theorem Balanced.not_closesBracket (h : Balanced ts) : ¬ ClosesBracket ts := by
  rintro ⟨inside, closer, rest, rfl, hcloser, hinside⟩
  have hbehind : Balanced (closer :: rest) := (hinside.closesAll_append (n := 0)).1 h
  exact not_balanced_cons_closer hcloser hbehind

theorem ClosesAll.exists_tail (h : ClosesAll n (t :: rest)) : ∃ m, ClosesAll m rest := by
  cases hopener : isOpener t.lexeme with
  | true => exact ⟨n + 1, (closesAll_cons_opener hopener).1 h⟩
  | false =>
    cases hcloser : isCloser t.lexeme with
    | true =>
      cases n with
      | zero => exact absurd h (not_balanced_cons_closer hcloser)
      | succ n => exact ⟨n, (closesAll_cons_closer hcloser).1 h⟩
    | false => exact ⟨n, (closesAll_cons_other hopener hcloser).1 h⟩

theorem ClosesAll.closesBracket {before behind : List Token} {opener : Token}
    (h : ClosesAll n (before ++ opener :: behind)) (hopener : isOpener opener.lexeme = true) :
    ClosesBracket behind := by
  induction before generalizing n with
  | nil =>
    obtain ⟨inside, closer, rest, heq, hcloser, hinside, -⟩ := (closesAll_cons_opener hopener).1 h
    exact ⟨inside, closer, rest, heq, hcloser, hinside⟩
  | cons u before ih =>
    obtain ⟨m, hm⟩ := h.exists_tail
    exact ih hm

/-- Tokens that close all they open, and no bracket before them, are balanced. -/
theorem balanced_of_closesBracket (ts : List Token)
    (hopeners : ∀ before opener behind, ts = before ++ opener :: behind →
      isOpener opener.lexeme = true → ClosesBracket behind)
    (hkeeps : ¬ ClosesBracket ts) : Balanced ts := by
  match ts with
  | [] => exact .nil
  | t :: rest =>
    cases hopener : isOpener t.lexeme with
    | true =>
      obtain ⟨inside, closer, behind, rfl, hcloser, hinside⟩ := hopeners [] t rest rfl hopener
      refine .bracket hopener hcloser hinside (balanced_of_closesBracket behind ?_ ?_)
      · intro before opener after heq
        exact hopeners (t :: (inside ++ closer :: before)) opener after (by simp [heq])
      · rintro ⟨within, closer', after, rfl, hcloser', hwithin⟩
        exact hkeeps ⟨t :: (inside ++ closer :: within), closer', after, by simp, hcloser',
          .bracket hopener hcloser hinside hwithin⟩
    | false =>
      have hcloser : isCloser t.lexeme = false := by
        rw [← Bool.not_eq_true]
        intro hcloser
        exact hkeeps ⟨[], t, rest, rfl, hcloser, .nil⟩
      refine .other hopener hcloser (balanced_of_closesBracket rest ?_ ?_)
      · intro before opener behind heq
        exact hopeners (t :: before) opener behind (by rw [heq, List.cons_append])
      · rintro ⟨inside, closer, behind, rfl, hclose, hinside⟩
        exact hkeeps ⟨t :: inside, closer, behind, rfl, hclose, .other hopener hcloser hinside⟩
termination_by ts.length

theorem balanced_iff : Balanced ts ↔
    (∀ before opener behind, ts = before ++ opener :: behind →
      isOpener opener.lexeme = true → ClosesBracket behind) ∧ ¬ ClosesBracket ts := by
  constructor
  · intro h
    refine ⟨?_, h.not_closesBracket⟩
    rintro before opener behind rfl hopener
    exact ClosesAll.closesBracket (n := 0) h hopener
  · rintro ⟨hopeners, hkeeps⟩
    exact balanced_of_closesBracket ts hopeners hkeeps

/-! ### Counting open brackets -/

theorem not_dotsAfter_nil {p : List Token → Prop} : ¬ DotsAfter p [] := by
  rintro ⟨inside, dots, rest, heq, -⟩
  simp at heq

theorem dotsAfter_cons {p : List Token → Prop} : DotsAfter p (t :: ts) ↔
    (t.lexeme = .dots ∧ p []) ∨ DotsAfter (fun inside => p (t :: inside)) ts := by
  constructor
  · rintro ⟨inside, dots, rest, heq, hdots, hp⟩
    cases inside with
    | nil =>
      obtain ⟨rfl, -⟩ := List.cons.inj heq
      exact Or.inl ⟨hdots, hp⟩
    | cons u inside =>
      obtain ⟨rfl, rfl⟩ := List.cons.inj heq
      exact Or.inr ⟨inside, dots, rest, rfl, hdots, hp⟩
  · rintro (⟨hdots, hp⟩ | ⟨inside, dots, rest, rfl, hdots, hp⟩)
    · exact ⟨[], t, ts, rfl, hdots, hp⟩
    · exact ⟨t :: inside, dots, rest, rfl, hdots, hp⟩

theorem dotsAfter_cons_of_ne {p : List Token → Prop} (h : t.lexeme ≠ .dots) :
    DotsAfter p (t :: ts) ↔ DotsAfter (fun inside => p (t :: inside)) ts := by
  rw [dotsAfter_cons, or_iff_right fun hdots => h hdots.1]

/-- With one bracket open and so many more, the scan finds a `...` before which these are closed and
the one is not. -/
theorem dotsAhead_iff : dotsAhead (n + 1) ts = true ↔ DotsAfter (ClosesAll n) ts := by
  induction ts generalizing n with
  | nil => exact iff_of_false (by simp [dotsAhead]) not_dotsAfter_nil
  | cons t ts ih =>
    cases hopener : isOpener t.lexeme with
    | true =>
      have hne : t.lexeme ≠ .dots := fun h => by simp [h, isOpener] at hopener
      rw [dotsAhead_opener hopener, ih, dotsAfter_cons_of_ne hne]
      simp only [closesAll_cons_opener hopener]
    | false =>
      cases hcloser : isCloser t.lexeme with
      | true =>
        have hne : t.lexeme ≠ .dots := fun h => by simp [h, isCloser] at hcloser
        rw [dotsAfter_cons_of_ne hne]
        cases n with
        | zero =>
          -- the one bracket is closed here, and no balanced tokens begin with a closer
          refine iff_of_false (by simp [dotsAhead, hopener, hcloser]) ?_
          rintro ⟨inside, _, _, _, _, hinside⟩
          exact not_balanced_cons_closer hcloser hinside
        | succ n =>
          rw [dotsAhead_closer hcloser (by omega), Nat.add_sub_cancel, ih]
          simp only [closesAll_cons_closer hcloser]
      | false =>
        by_cases hfound : t.lexeme = .dots ∧ n = 0
        · obtain ⟨hdots, rfl⟩ := hfound
          refine iff_of_true ?_ (dotsAfter_cons.2 (Or.inl ⟨hdots, .nil⟩))
          rw [dotsAhead, hdots]
          rfl
        · have hmore : t.lexeme = .dots → n + 1 ≠ 1 := fun hdots h => hfound ⟨hdots, by omega⟩
          rw [dotsAhead_other hopener hcloser hmore, ih, dotsAfter_cons, closesAll_nil,
            or_iff_right hfound]
          simp only [closesAll_cons_other hopener hcloser]

theorem dotsAhead_one_iff : dotsAhead 1 ts = true ↔ DotsFollow ts := by
  have hzero : ClosesAll 0 = Balanced := rfl
  rw [dotsAhead_iff, DotsFollow, hzero]
  simp only [DotsAfter, balanced_iff]

/-! ### Looking ahead at a cursor -/

namespace AtCursor

variable {tokens : List Token} {k offset depth : Nat}

variable (tokens) in
/-- The token so many places on from the cursor. There is none at the end, and it stays at the end
if asked for what is further. -/
def peekAt (offset : Nat) : AtCursor (Option Token) := do
  return tokens[min ((← place) + offset) tokens.length]?

variable (tokens) in
/-- Looks for a `...` where one bracket is open, from an offset before which so many are open. No
more tokens are looked at than given, and there is no answer when these do not suffice. -/
def lookAhead : (looks : Nat) → (depth : Int) → (offset : Nat) → AtCursor Bool
  | 0, _, _ => tooDeep
  | n + 1, depth, offset => do
    match ← peekAt tokens offset with
    | none => return false
    | some t =>
      if isOpener t.lexeme then lookAhead n (depth + 1) (offset + 1)
      else if isCloser t.lexeme then
        if depth - 1 = 0 then return false else lookAhead n (depth - 1) (offset + 1)
      else if t.lexeme = .dots ∧ depth = 1 then return true
      else lookAhead n depth (offset + 1)

theorem getElem?_min_length (i : Nat) : tokens[min i tokens.length]? = tokens[i]? := by
  rcases Nat.le_total i tokens.length with h | h
  · rw [Nat.min_eq_left h]
  · rw [Nat.min_eq_right h, List.getElem?_eq_none h, List.getElem?_eq_none (Nat.le_refl _)]

theorem runFrom_peekAt {α : Type} {f : Option Token → AtCursor α} (before : Nat) :
    (peekAt tokens offset >>= f).runFrom ⟨k, before⟩ =
      (f tokens[k + offset]?).runFrom ⟨k, before⟩ := by
  rw [← getElem?_min_length]
  rfl

/-- One bracket at least is open, so the scan from an offset finds what the count on the tokens from
there finds, and the cursor stays. -/
theorem runFrom_lookAhead (hdepth : 0 < depth) (hn : tokens.length - (k + offset) < n)
    (before : Nat) : (lookAhead tokens n depth offset).runFrom ⟨k, before⟩ =
      some (.ok (dotsAhead depth (tokens.drop (k + offset))), ⟨k, before⟩) := by
  induction n generalizing depth offset with
  | zero => omega
  | succ n ih =>
    rw [lookAhead, runFrom_peekAt]
    rcases cursor_cases tokens (k + offset) with ⟨hnone, hnil⟩ | ⟨t, hsome, hlt, hcons⟩
    · rw [hnone, hnil]
      rfl
    · have hnext {d : Nat} (hd : 0 < d) : (lookAhead tokens n d (offset + 1)).runFrom ⟨k, before⟩ =
          some (.ok (dotsAhead d (tokens.drop (k + offset + 1))), ⟨k, before⟩) :=
        ih hd (by omega)
      rw [hsome, hcons, dotsAhead]
      simp only
      split
      · exact hnext (Nat.succ_pos depth)
      · split
        · by_cases hone : depth = 1
          · rw [if_pos (by omega), if_pos hone]
            rfl
          · have hless : (depth : Int) - 1 = (depth - 1 : Nat) := by omega
            rw [if_neg (by omega), if_neg hone, hless]
            exact hnext (by omega)
        · simp only [Nat.cast_eq_one]
          split
          · rfl
          · exact hnext hdepth

/-- From a parenthesis the lookahead comes to an answer when it may look at every token that is left
and at the end, and the cursor stays where it is. The answer is the one by which the parser takes
the parenthesis for a range or for a group. It is yes exactly if a `...` follows before which every
bracket opened behind the parenthesis has been closed, but not the parenthesis. -/
theorem lookAhead_exact {opener : Token} (hopener : tokens[k]? = some opener)
    (hround : opener.lexeme = .lparen) (hn : tokens.length - k < n) (before : Nat) :
    ∃ found, (lookAhead tokens n 0 0).runFrom ⟨k, before⟩ = some (.ok found, ⟨k, before⟩) ∧
      found = dotsAhead 1 (tokens.drop (k + 1)) ∧
      (found = true ↔ DotsFollow (tokens.drop (k + 1))) := by
  obtain ⟨n, rfl⟩ : ∃ m, n = m + 1 := ⟨n - 1, by omega⟩
  have hlt := (List.getElem?_eq_some_iff.1 hopener).1
  have hstart : (lookAhead tokens (n + 1) 0 0).runFrom ⟨k, before⟩ =
      (lookAhead tokens n 1 1).runFrom ⟨k, before⟩ := by
    rw [lookAhead, runFrom_peekAt, Nat.add_zero, hopener]
    simp only [hround]
    rfl
  refine ⟨dotsAhead 1 (tokens.drop (k + 1)), ?_, rfl, dotsAhead_one_iff⟩
  rw [hstart]
  exact runFrom_lookAhead Nat.one_pos (by omega) before

/-- The tokens of `([a) ... b]`. -/
def crossed : List Token :=
  [⟨.lparen, 0⟩, ⟨.lbracket, 1⟩, ⟨.word ['a'], 2⟩, ⟨.rparen, 3⟩, ⟨.dots, 5⟩, ⟨.word ['b'], 9⟩,
    ⟨.rbracket, 10⟩]

theorem lookAhead_exact_crossed :
    (lookAhead crossed 8 0 0).runFrom ⟨0, 0⟩ = some (.ok true, ⟨0, 0⟩) ∧
      DotsFollow (crossed.drop 1) := by
  have hopener : crossed[0]? = some ⟨.lparen, 0⟩ := rfl
  obtain ⟨found, hrun, hfound, hiff⟩ := lookAhead_exact (n := 8) hopener rfl (by decide) 0
  have htrue : found = true := hfound
  rw [htrue] at hrun
  exact ⟨hrun, hiff.1 htrue⟩

end AtCursor

end TodoLists.Query
