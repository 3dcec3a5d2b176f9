import TodoLists.Proofs.Query.Stages

/-!
# The descent finds every derivation

On tokens that begin with a derivation the descent reads exactly this derivation. A conjunction and
a disjunction are read on and on, so of them it is said that the descent has come to the tokens
behind them with the filter of what has been read. The lookahead that tells a range from a group
passes over every range and every group in between, for these leave the number of open brackets as
it was.
-/

namespace TodoLists.Query

variable {stop : Nat} {t : Token} {used rest : List Token}

/-! ### Ranges -/

/-- The tokens of a range are those of its parts. -/
theorem exists_tokens_of_range {opener closer : Lexeme} {low high : List Lexeme}
    (h : used.map Token.lexeme = opener :: (low ++ .dots :: (high ++ [closer]))) :
    ∃ o lows d highs c, used = o :: (lows ++ d :: (highs ++ [c])) ∧ o.lexeme = opener ∧
      lows.map Token.lexeme = low ∧ d.lexeme = .dots ∧ highs.map Token.lexeme = high ∧
      c.lexeme = closer := by
  obtain ⟨o, inside, rfl, hopener, h⟩ := List.map_eq_cons_iff.1 h
  obtain ⟨lows, behind, rfl, hlows, h⟩ := List.map_eq_append_iff.1 h
  obtain ⟨d, after, rfl, hd, h⟩ := List.map_eq_cons_iff.1 h
  obtain ⟨highs, last, rfl, hhighs, h⟩ := List.map_eq_append_iff.1 h
  obtain ⟨c, rfl, hcloser⟩ := List.map_eq_singleton_iff.1 h
  exact ⟨o, lows, d, highs, c, rfl, hopener, hlows, hd, hhighs, hcloser⟩

theorem statusOf_eq_ok {w : List Char} {s : Status} (h : Status.ofWord w = .ok s) :
    statusOf w = .ok s := by
  have hne : w ≠ [] := by
    rintro rfl
    cases h
  rw [statusOf, if_neg hne, h]

theorem priorityOf_eq_ok {n : List Char} {k : Int} (h : reads n k) : priorityOf n = .ok k := by
  rw [priorityOf, h]

theorem readLimit_eq_ok {low : List Lexeme} {a : Option Value} (h : DerivesLimit reads low a)
    (hused : used.map Token.lexeme = low) (hends : t.lexeme.endsLimit = true) :
    readLimit stop (used ++ t :: rest) = .ok (a, t :: rest) := by
  cases h with
  | omitted =>
    rw [List.map_eq_nil_iff.1 hused]
    exact readLimit_omitted hends
  | unbounded h =>
    obtain ⟨u, rfl, hu⟩ := List.map_eq_singleton_iff.1 hused
    rw [List.singleton_append, readLimit_word hu,
      if_pos (isUnboundedWord_iff.2 h)]
  | status h =>
    obtain ⟨u, rfl, hu⟩ := List.map_eq_singleton_iff.1 hused
    rw [List.singleton_append, readLimit_status hu, statusOf_eq_ok h]
    rfl
  | priority h =>
    obtain ⟨u, rfl, hu⟩ := List.map_eq_singleton_iff.1 hused
    rw [List.singleton_append, readLimit_priority hu,
      priorityOf_eq_ok h]
    rfl

theorem Closes.endsLimit {l : Lexeme} {j : Bool} (h : Closes l j) : l.endsLimit = true := by
  cases h <;> rfl

theorem readCloser_eq_ok {j : Bool} (h : Closes t.lexeme j) :
    readCloser stop (t :: rest) = .ok (j, rest) := by
  rw [readCloser_cons]
  generalize t.lexeme = l at h
  cases h <;> rfl

theorem readRange_eq_ok {o d c : Token} {lows highs : List Token} {i j : Bool}
    {a b : Option Value} {r : AnyRange} (hopen : Opens o.lexeme i)
    (hlow : DerivesLimit reads (lows.map Token.lexeme) a) (hd : d.lexeme = .dots)
    (hhigh : DerivesLimit reads (highs.map Token.lexeme) b) (hclose : Closes c.lexeme j)
    (hrange : range? i j a b = some r) :
    readRange stop o (lows ++ d :: (highs ++ c :: rest)) = .ok (r, rest) := by
  rw [readRange_eq, readLimit_eq_ok hlow rfl (by rw [hd]; rfl)]
  simp only [Except.bind]
  rw [readExact_cons, if_pos hd]
  simp only
  rw [readLimit_eq_ok hhigh rfl hclose.endsLimit]
  simp only
  rw [readCloser_eq_ok hclose]
  simp only [joinLimits, hopen.isSquare_eq, hrange]
  rfl

/-! ### The lookahead -/

section Lookahead

variable {depth : Nat} {number : List Char → Int → Prop}

theorem dotsAhead_opener (h : isOpener t.lexeme = true) :
    dotsAhead depth (t :: rest) = dotsAhead (depth + 1) rest := by
  rw [dotsAhead, if_pos h]

theorem dotsAhead_closer (h : isCloser t.lexeme = true) (hdepth : depth ≠ 1) :
    dotsAhead depth (t :: rest) = dotsAhead (depth - 1) rest := by
  have hopener : ¬ isOpener t.lexeme = true := by
    generalize t.lexeme = l at h
    cases l <;> first | decide | cases h
  rw [dotsAhead, if_neg hopener, if_pos h, if_neg hdepth]

theorem dotsAhead_other (hopener : isOpener t.lexeme = false) (hcloser : isCloser t.lexeme = false)
    (hdots : t.lexeme = .dots → depth ≠ 1) :
    dotsAhead depth (t :: rest) = dotsAhead depth rest := by
  rw [dotsAhead, if_neg (ne_true_of_eq_false hopener), if_neg (ne_true_of_eq_false hcloser),
    if_neg fun h => hdots h.1 h.2]

theorem dotsAhead_limit {low : List Lexeme} {a : Option Value} (h : DerivesLimit number low a)
    (hused : used.map Token.lexeme = low) :
    dotsAhead depth (used ++ rest) = dotsAhead depth rest := by
  cases h with
  | omitted =>
    rw [List.map_eq_nil_iff.1 hused]
    rfl
  | unbounded | status | priority =>
    obtain ⟨u, rfl, hu⟩ := List.map_eq_singleton_iff.1 hused
    rw [List.singleton_append, dotsAhead_other] <;> simp [hu] <;> rfl

theorem Opens.isOpener {l : Lexeme} {i : Bool} (h : Opens l i) : isOpener l = true := by
  cases h <;> rfl

theorem Closes.isCloser {l : Lexeme} {j : Bool} (h : Closes l j) : isCloser l = true := by
  cases h <;> rfl

/-- The lookahead passes over a whole filter of any category. -/
theorem dotsAhead_append {c : Category} {ls : List Lexeme} {f : Filter} (h : Derives number c ls f)
    (hused : used.map Token.lexeme = ls) (hdepth : depth ≠ 0) :
    dotsAhead depth (used ++ rest) = dotsAhead depth rest := by
  induction h generalizing used depth rest with
  | word | tag | status | priority =>
    obtain ⟨u, rfl, hu⟩ := List.map_eq_singleton_iff.1 hused
    rw [List.singleton_append, dotsAhead_other] <;> simp [hu] <;> rfl
  | range h =>
    obtain ⟨_, _, _, _, i, j, a, b, r, rfl, hopen, hlow, hhigh, hclose, -, -⟩ := h.exists_limits
    obtain ⟨o, lows, d, highs, c, rfl, rfl, hlows, hd, hhighs, rfl⟩ := exists_tokens_of_range hused
    simp only [List.cons_append, List.append_assoc]
    rw [dotsAhead_opener hopen.isOpener, dotsAhead_limit hlow hlows,
      dotsAhead_other (by rw [hd]; rfl) (by rw [hd]; rfl) (fun _ => by omega),
      dotsAhead_limit hhigh hhighs, dotsAhead_closer hclose.isCloser (by omega),
      Nat.add_sub_cancel, List.nil_append]
  | group _ ih =>
    obtain ⟨o, inside, rfl, ho, hinside⟩ := List.map_eq_cons_iff.1 hused
    obtain ⟨us, last, rfl, hus, hlast⟩ := List.map_eq_append_iff.1 hinside
    obtain ⟨c, rfl, hc⟩ := List.map_eq_singleton_iff.1 hlast
    simp only [List.cons_append, List.append_assoc, List.nil_append]
    -- inside the parentheses one bracket more is open, so this induction is for every depth
    rw [dotsAhead_opener (by rw [ho]; rfl), ih hus (Nat.succ_ne_zero depth),
      dotsAhead_closer (by rw [hc]; rfl) (by omega), Nat.succ_sub_one]
  | primary _ ih | unary _ ih | conjunction _ ih => exact ih hused hdepth
  | not _ ih =>
    obtain ⟨n, us, rfl, hn, hus⟩ := List.map_eq_cons_iff.1 hused
    rw [List.cons_append,
      dotsAhead_other (by rw [hn]; rfl) (by rw [hn]; rfl) (by rw [hn]; exact nofun), ih hus hdepth]
  | and _ _ ihf ihg =>
    obtain ⟨us, more, rfl, hus, hmore⟩ := List.map_eq_append_iff.1 hused
    obtain ⟨n, vs, rfl, hn, hvs⟩ := List.map_eq_cons_iff.1 hmore
    rw [List.append_assoc, ihf hus hdepth, List.cons_append,
      dotsAhead_other (by rw [hn]; rfl) (by rw [hn]; rfl) (by rw [hn]; exact nofun), ihg hvs hdepth]
  | or _ _ ihf ihg =>
    obtain ⟨us, vs, rfl, hus, hvs⟩ := List.map_eq_append_iff.1 hused
    rw [List.append_assoc, ihf hus hdepth, ihg hvs hdepth]

end Lookahead

/-! ### Filters -/

/-- Where the descent is when it has read the tokens of a filter. -/
def Completes (stop : Nat) (used : List Token) (f : Filter) : Category → Prop
  | .primary => ∀ rest, readPrimary stop (used ++ rest) = .ok (f, rest)
  | .unary => ∀ rest, readUnary stop (used ++ rest) = .ok (f, rest)
  | .conjunction => ∀ rest, readAnd stop (used ++ rest) = readAndRest stop f rest
  | .disjunction => ∀ rest, (∀ p tail, rest ≠ ⟨.and, p⟩ :: tail) →
      readOr stop (used ++ rest) = readOrRest stop f rest

theorem completes_range {ls : List Lexeme} {f : Filter} (h : DerivesRange reads ls f)
    (hused : used.map Token.lexeme = ls) : Completes stop used f .primary := by
  intro rest
  obtain ⟨_, _, _, _, i, j, a, b, r, rfl, hopen, hlow, hhigh, hclose, hrange, rfl⟩ :=
    h.exists_limits
  obtain ⟨o, lows, d, highs, c, rfl, rfl, rfl, hd, rfl, rfl⟩ := exists_tokens_of_range hused
  have hahead : opensRange o (lows ++ d :: (highs ++ c :: rest)) = true := by
    have hdots : dotsAhead 1 (lows ++ d :: (highs ++ c :: rest)) = true := by
      rw [dotsAhead_limit hlow rfl, dotsAhead, hd]
      rfl
    rw [opensRange, hdots]
    generalize o.lexeme = l at hopen
    cases hopen <;> rfl
  simp only [List.cons_append, List.append_assoc, List.nil_append]
  rw [readPrimary_range hahead, readRange_eq_ok hopen hlow hd hhigh hclose hrange]
  rfl

theorem completes_group {o c : Token} {f : Filter} (hopen : o.lexeme = .lparen)
    (hclose : c.lexeme = .rparen)
    (hahead : ∀ rest, dotsAhead 1 (used ++ c :: rest) = dotsAhead 1 (c :: rest))
    (hf : Completes stop used f .disjunction) :
    Completes stop (o :: (used ++ [c])) f .primary := by
  intro rest
  have hdots : dotsAhead 1 (used ++ c :: rest) = false := by
    rw [hahead, dotsAhead, hclose]
    rfl
  have hnand : ∀ p tail, c :: rest ≠ ⟨.and, p⟩ :: tail := by
    rintro p tail ⟨⟩
    cases hclose
  have hstop : startsTerm (c :: rest) = false := by
    rw [startsTerm_cons, hclose]
    rfl
  simp only [List.cons_append, List.append_assoc, List.nil_append]
  rw [readPrimary_group hopen hdots, hf (c :: rest) hnand, readOrRest_stop hstop]
  simp only [Except.bind]
  rw [readExact_cons, if_pos hclose]
  rfl

/-- The descent completes every derivation. -/
theorem completes_of_derives {c : Category} {ls : List Lexeme} {f : Filter}
    (h : Derives reads c ls f) (hused : used.map Token.lexeme = ls) : Completes stop used f c := by
  induction h generalizing used with
  | word w =>
    obtain ⟨u, rfl, hu⟩ := List.map_eq_singleton_iff.1 hused
    exact fun rest => readPrimary_word hu
  | tag h =>
    obtain ⟨u, rfl, hu⟩ := List.map_eq_singleton_iff.1 hused
    intro rest
    rw [List.singleton_append, readPrimary_tag hu, tagOf, if_neg h]
    rfl
  | status h =>
    obtain ⟨u, rfl, hu⟩ := List.map_eq_singleton_iff.1 hused
    intro rest
    rw [List.singleton_append, readPrimary_status hu, statusOf_eq_ok h]
    rfl
  | priority h =>
    obtain ⟨u, rfl, hu⟩ := List.map_eq_singleton_iff.1 hused
    intro rest
    rw [List.singleton_append, readPrimary_priority hu, priorityOf_eq_ok h]
    rfl
  | range h => exact completes_range h hused
  | group h ih =>
    obtain ⟨o, inside, rfl, hopen, hinside⟩ := List.map_eq_cons_iff.1 hused
    obtain ⟨us, last, rfl, hus, hlast⟩ := List.map_eq_append_iff.1 hinside
    obtain ⟨c, rfl, hclose⟩ := List.map_eq_singleton_iff.1 hlast
    exact completes_group hopen hclose (fun _ => dotsAhead_append h hus (by decide)) (ih hus)
  | @primary ls f h ih =>
    intro rest
    rw [readUnary_of_ne, ih hused rest]
    rintro p tail heq
    obtain ⟨l, more, rfl, -⟩ := h.exists_cons
    obtain ⟨u, us, rfl, hu, -⟩ := List.map_eq_cons_iff.1 hused
    refine h.head_ne_not rfl ?_
    rw [← hu, (List.cons.inj heq).1]
  | not _ ih =>
    obtain ⟨⟨l, p⟩, us, rfl, rfl, hus⟩ := List.map_eq_cons_iff.1 hused
    intro rest
    rw [List.cons_append, readUnary_not, ih hus rest]
    rfl
  | unary _ ih =>
    intro rest
    rw [readAnd_eq, ih hused rest]
    rfl
  | and _ _ ihf ihg =>
    obtain ⟨us, more, rfl, hus, hmore⟩ := List.map_eq_append_iff.1 hused
    obtain ⟨⟨l, p⟩, vs, rfl, rfl, hvs⟩ := List.map_eq_cons_iff.1 hmore
    intro rest
    rw [List.append_assoc, List.cons_append, ihf hus, readAndRest_and, ihg hvs rest]
    rfl
  | conjunction _ ih =>
    intro rest hnand
    rw [readOr_eq, ih hused rest, readAndRest_of_ne hnand]
    rfl
  | @or ls ms f g hf hg ihf ihg =>
    obtain ⟨us, vs, rfl, hus, hvs⟩ := List.map_eq_append_iff.1 hused
    obtain ⟨l, more, rfl, hl⟩ := hg.exists_cons
    obtain ⟨v, vs, rfl, hv, -⟩ := List.map_eq_cons_iff.1 hvs
    intro rest hnand
    -- a term follows and no `&`, so the conjunction before it is over
    have hstart : ∀ p tail, (v :: vs) ++ rest ≠ ⟨.and, p⟩ :: tail := by
      rintro p tail heq
      rw [← hv, (List.cons.inj heq).1] at hl
      cases hl
    have hterm : startsTerm ((v :: vs) ++ rest) = true := by
      rw [List.cons_append, startsTerm_cons, hv, hl]
    rw [List.append_assoc, ihf hus _ hstart, readOrRest_term hterm, ihg hvs rest,
      readAndRest_of_ne hnand]
    rfl

/-! ### Stages and whole texts -/

/-- The descent on all the tokens of a disjunction. -/
theorem readOr_eq_ok (stop : Nat) {ts : List Token} {f : Filter}
    (h : Derives reads .disjunction (ts.map Token.lexeme) f) : readOr stop ts = .ok (f, []) := by
  have hread : readOr stop (ts ++ []) = readOrRest stop f [] :=
    completes_of_derives (c := .disjunction) h rfl [] nofun
  rw [List.append_nil] at hread
  rw [hread, readOrRest_stop rfl]

/-- The grammar is unambiguous, for the parser finds every derivation. -/
theorem Derives.unique {ls : List Lexeme} {f g : Filter} (hf : Derives reads .disjunction ls f)
    (hg : Derives reads .disjunction ls g) : f = g := by
  have htokens : (ls.map fun l => (⟨l, 0⟩ : Token)).map Token.lexeme = ls := by
    rw [List.map_map]
    exact List.map_id ls
  rw [← htokens] at hf hg
  have hsame : (Except.ok (f, []) : Except ParseError (Filter × List Token)) = .ok (g, []) :=
    (readOr_eq_ok 0 hf).symm.trans (readOr_eq_ok 0 hg)
  exact (Prod.mk.inj (Except.ok.inj hsame)).1

theorem parseStage_eq_ok_iff {ts : List Token} {f : Filter} :
    parseStage stop ts = .ok f ↔ DerivesStage reads (ts.map Token.lexeme) f := by
  constructor
  · intro h
    have hmeets := parseStage_meets stop ts
    rw [h] at hmeets
    obtain ⟨used, hused, hf⟩ := hmeets
    rw [List.append_nil] at hused
    rw [hused]
    exact hf
  · intro h
    have hne : ts ≠ [] := by
      rintro rfl
      exact h.ne_nil rfl
    rcases keyword?_cases ts with ⟨hls, hkeyword⟩ | ⟨hls, hkeyword⟩ | ⟨hall, hnone, hkeyword⟩
    · rw [hls] at h
      rw [parseStage_keyword hkeyword]
      cases h with
      | all => rfl
      | filter hall => exact absurd rfl hall
    · rw [hls] at h
      rw [parseStage_keyword hkeyword]
      cases h with
      | none => rfl
      | filter _ hnone => exact absurd rfl hnone
    · rw [parseStage_filter hne hkeyword]
      generalize hls : ts.map Token.lexeme = ls at h hall hnone
      cases h with
      | all => exact absurd rfl hall
      | none => exact absurd rfl hnone
      | filter _ _ h =>
        rw [readOr_eq_ok stop (hls ▸ h)]
        rfl

theorem map_eq_ok_iff {α β : Type} {x : Except ParseError α} {g : α → β} {b : β} :
    x.map g = .ok b ↔ ∃ a, x = .ok a ∧ g a = b := by
  cases x with
  | error e => exact ⟨nofun, nofun⟩
  | ok a =>
    constructor
    · intro h
      exact ⟨a, rfl, Except.ok.inj h⟩
    · rintro ⟨a, ⟨⟩, rfl⟩
      rfl

theorem bind_eq_ok_iff {α β : Type} {x : Except ParseError α} {k : α → Except ParseError β}
    {b : β} : x.bind k = .ok b ↔ ∃ a, x = .ok a ∧ k a = .ok b := by
  cases x with
  | error e => exact ⟨nofun, nofun⟩
  | ok a =>
    constructor
    · intro h
      exact ⟨a, rfl, h⟩
    · rintro ⟨a, ⟨⟩, h⟩
      exact h

theorem Staged.parseParts_eq_ok_iff {ts : List Token} {parts : List (List Token × Nat)}
    (h : Staged stop ts parts) {fs : List Filter} :
    parseParts parts = .ok fs ↔ DerivesStages reads (ts.map Token.lexeme) fs := by
  induction h generalizing fs with
  | last ts hnone =>
    rw [parseParts_singleton, map_eq_ok_iff, derivesStages_iff_of_notMem hnone]
    simp only [parseStage_eq_ok_iff]
    exact exists_congr fun f => ⟨fun h => ⟨h.2.symm, h.1⟩, fun h => ⟨h.2, h.1.symm⟩⟩
  | @step ts more arrow parts hnone harrow hmore ih =>
    rw [parseParts_cons, bind_eq_ok_iff, List.map_append, List.map_cons, harrow,
      derivesStages_append_iff hnone]
    simp only [parseStage_eq_ok_iff, map_eq_ok_iff, ih]
    constructor
    · rintro ⟨f, hf, gs, hgs, rfl⟩
      exact ⟨f, gs, rfl, hf, hgs⟩
    · rintro ⟨f, gs, rfl, hf, hgs⟩
      exact ⟨f, hf, gs, hgs, rfl⟩

theorem stageList_injective {q r : Query} (h : q.stageList = r.stageList) : q = r := by
  cases q
  cases r
  cases h
  rfl

theorem parseQueryChars_eq_ok_iff {s : List Char} {q : Query} :
    parseQueryChars s = .ok q ↔ Text.allBlank s = false ∧ DerivesQuery reads (lexemes s) q := by
  by_cases hblank : Text.allBlank s = true
  · rw [parseQueryChars_blank hblank]
    simp [hblank]
  · rw [Bool.not_eq_true] at hblank
    have hstages : (parseQueryChars s).map Query.stageList = .ok q.stageList ↔
        DerivesQuery reads (lexemes s) q := by
      rw [parseQueryChars_eq hblank]
      exact (staged_stages s.length (tokens s)).parseParts_eq_ok_iff
    rw [← hstages, map_eq_ok_iff]
    constructor
    · intro h
      exact ⟨hblank, q, h, rfl⟩
    · rintro ⟨-, r, hr, hqr⟩
      rw [hr, stageList_injective hqr]

theorem parseFilterChars_eq_ok_iff {s : List Char} {f : Filter} :
    parseFilterChars s = .ok f ↔ DerivesStage reads (lexemes s) f := by
  rw [parseFilterChars_eq_ok_iff_parseStage, parseStage_eq_ok_iff]
  constructor
  · intro h
    exact h.2.2
  · intro h
    exact ⟨allBlank_eq_false_iff.2 h.ne_nil, h.arrow_notMem, h⟩

end TodoLists.Query
