import TodoLists.Proofs.Query.Acceptance

/-!
# Where a syntax error points

An error is placed at the start of a token or at the end of the text, and what stands before this
place can be completed to a text without errors. There is one exception, and the parser makes it
knowingly: limits of different kinds are noticed only when their range is closed, so an error behind
the second limit has both of them before it.
-/

namespace TodoLists.Query

/-- What the place of an error in a text tells. -/
structure PointsRight {α : Type} (parse : String → Except SyntaxError α) (text : String)
    (e : SyntaxError) : Prop where
  text_eq : e.text = text
  le_length : e.position ≤ text.length
  of_blank : Text.allBlank text.toList = true → e.position = 0
  at_token : Text.allBlank text.toList = false →
    (∃ t ∈ tokens text.toList, e.position = t.position) ∨ e.position = text.length
  completable_iff : (∃ suffix a,
      parse (String.ofList (text.toList.take e.position ++ suffix)) = .ok a) ↔
    ¬ MixesLimits (lexemes (text.toList.take e.position))

/-! ### Limits before the place -/

/-- Once a text ends in limits of different kinds, so does a part of every longer text. -/
theorem MixesLimits.exists_append {s : List Char} (h : MixesLimits (lexemes s)) (ys : List Char) :
    ∃ before after, lexemes (s ++ ys) = before ++ after ∧ MixesLimits before := by
  obtain ⟨first, a, b, hclash, hs⟩ := h
  have hlast : lexemes s = (first ++ [a, .dots]) ++ [b] := by
    rw [hs, List.append_assoc]
    rfl
  obtain ⟨b', more, hlong, hstatus, hpriority⟩ := lexemes_append_of_concat hlast ys
  refine ⟨first ++ [a, .dots, b'], more, ?_, first, a, b', ?_, rfl⟩
  · rw [hlong]
    simp
  · cases hclash with
    | statusFirst w n =>
      obtain ⟨n', rfl⟩ := hpriority n rfl
      exact .statusFirst w n'
    | priorityFirst n w =>
      obtain ⟨w', rfl⟩ := hstatus w rfl
      exact .priorityFirst n w'

/-! ### The two parsers -/

section Place

variable {α : Type} {P : List Lexeme → α → Prop} {parse : List Char → Except ParseError α}

/-- The parser accepts the texts whose tokens are as `P` says, and no such text mixes limits. -/
structure Accepts (parse : List Char → Except ParseError α) (P : List Lexeme → α → Prop) :
    Prop where
  ok_iff : ∀ s a, parse s = .ok a ↔ P (lexemes s) a
  not_mixesLimits : ∀ before after a, P (before ++ after) a → ¬ MixesLimits before

/-- A beginning can be completed exactly when it does not end in limits of different kinds. -/
theorem Accepts.completable_iff (h : Accepts parse P) {s : List Char}
    (hs : StopsAfter P (lexemes s)) :
    (∃ suffix a, parse (s ++ suffix) = .ok a) ↔ ¬ MixesLimits (lexemes s) := by
  constructor
  · rintro ⟨suffix, a, ha⟩ hmixes
    obtain ⟨before, after, hlong, hbefore⟩ := hmixes.exists_append suffix
    have hP := (h.ok_iff _ a).1 ha
    rw [hlong] at hP
    exact h.not_mixesLimits before after a hP hbefore
  · intro hmixes
    obtain ⟨more, a, hmore, hP⟩ := hs.resolve_right hmixes
    obtain ⟨r, rfl⟩ := exists_lexemes_eq hmore
    refine ⟨' ' :: r, a, (h.ok_iff _ a).2 ?_⟩
    rwa [lexemes_append_space]

theorem pointsRight_of_stopsAfter (h : Accepts parse P) {text : String} {e : ParseError}
    (hblank : Text.allBlank text.toList = true → e.position = 0)
    (hstops : Text.allBlank text.toList = false → ∃ before after,
      tokens text.toList = before ++ after ∧ e.position = positionOf text.toList.length after ∧
      StopsAfter P (before.map Token.lexeme)) (hnil : StopsAfter P []) :
    PointsRight (onText parse) text (e.inText text) := by
  have hcut : ∃ a b, text.toList = a ++ b ∧ e.position = a.length ∧ StopsAfter P (lexemes a) := by
    cases hb : Text.allBlank text.toList with
    | true => exact ⟨[], text.toList, rfl, hblank hb, by rwa [lexemes_nil]⟩
    | false =>
      obtain ⟨before, after, htokens, hposition, hbefore⟩ := hstops hb
      obtain ⟨a, b, hsplit, hlength, hlexemes, -⟩ :=
        exists_append_of_tokensFrom htokens (Nat.zero_add _).symm
      refine ⟨a, b, hsplit, ?_, ?_⟩
      · rw [hposition, hlength, Nat.zero_add]
      · rwa [hlexemes]
  obtain ⟨a, b, hsplit, hlength, ha⟩ := hcut
  have htake : text.toList.take e.position = a := by
    rw [hsplit, hlength, List.take_left]
  constructor
  · rfl
  · rw [← String.length_toList, hsplit, List.length_append]
    show e.position ≤ _
    omega
  · exact hblank
  · intro hb
    obtain ⟨before, after, htokens, hposition, -⟩ := hstops hb
    rcases positionOf_eq_or text.toList.length after with ⟨-, hend⟩ | ⟨t, ht, hstart⟩
    · right
      rw [← String.length_toList, ← hend, ← hposition]
      rfl
    · left
      refine ⟨t, ?_, hposition.trans hstart⟩
      rw [htokens]
      exact List.mem_append_right before ht
  · show (∃ suffix a', onText parse (String.ofList (text.toList.take e.position ++ suffix)) =
      .ok a') ↔ ¬ MixesLimits (lexemes (text.toList.take e.position))
    rw [htake, ← h.completable_iff ha]
    simp only [onText_eq_ok_iff, String.toList_ofList]

end Place

theorem exists_query {number : List Char → Int → Prop} {ls : List Lexeme} {fs : List Filter}
    (h : DerivesStages number ls fs) : ∃ q : Query, q.stageList = fs := by
  cases fs with
  | nil =>
    rw [DerivesStages] at h
    generalize hparts : ls.splitOn .arrow = parts at h
    cases h
    exact absurd hparts (List.splitOn_ne_nil _ ls)
  | cons f fs => exact ⟨⟨f, fs⟩, rfl⟩

theorem accepts_query : Accepts parseQueryChars (DerivesQuery reads) where
  ok_iff s q := by
    rw [parseQueryChars_eq_ok_iff, and_iff_right_iff_imp]
    exact fun h => allBlank_eq_false_iff.2 h.ne_nil
  not_mixesLimits _ _ _ h := DerivesStages.not_mixesLimits h

theorem accepts_filter : Accepts parseFilterChars (DerivesStage reads) where
  ok_iff _ _ := parseFilterChars_eq_ok_iff
  not_mixesLimits _ _ _ h := h.derivesStages.not_mixesLimits

theorem stopsAfter_query {ls : List Lexeme} (h : StopsAfter (DerivesStages reads) ls) :
    StopsAfter (DerivesQuery reads) ls := by
  refine h.imp_left ?_
  rintro ⟨more, fs, hmore, hfs⟩
  obtain ⟨q, rfl⟩ := exists_query hfs
  exact ⟨more, q, hmore, hfs⟩

theorem stopsAfter_filter_nil : StopsAfter (DerivesStage reads) [] := by
  obtain ⟨more, f, hmore, hf⟩ := viable_nil .disjunction
  obtain ⟨g, hg⟩ := exists_derivesStage hf
  exact Or.inl ⟨more, g, hmore, hg⟩

theorem stopsAfter_query_nil : StopsAfter (DerivesQuery reads) [] := by
  refine stopsAfter_query (stopsAfter_filter_nil.imp_left ?_)
  rintro ⟨more, f, hmore, hf⟩
  exact ⟨more, [f], hmore, hf.derivesStages⟩

theorem parseQueryChars_stopsAfter {s : List Char} {e : ParseError}
    (hblank : Text.allBlank s = false) (h : parseQueryChars s = .error e) :
    ∃ before after, tokens s = before ++ after ∧ e.position = positionOf s.length after ∧
      StopsAfter (DerivesQuery reads) (before.map Token.lexeme) := by
  have hmeets := parseQueryChars_meets hblank
  rw [h] at hmeets
  obtain ⟨before, after, htokens, hposition, hbefore⟩ := hmeets
  exact ⟨before, after, htokens, hposition, stopsAfter_query hbefore⟩

theorem parseFilterChars_stopsAfter {s : List Char} {e : ParseError} (harrow : .arrow ∉ lexemes s)
    (hblank : Text.allBlank s = false) (h : parseFilterChars s = .error e) :
    ∃ before after, tokens s = before ++ after ∧ e.position = positionOf s.length after ∧
      StopsAfter (DerivesStage reads) (before.map Token.lexeme) := by
  have hmeets := parseStage_meets s.length (tokens s)
  rw [← parseFilterChars_eq hblank harrow, h] at hmeets
  exact hmeets

theorem exists_of_onText_eq_error {α : Type} {parse : List Char → Except ParseError α}
    {text : String} {e : SyntaxError} (h : onText parse text = .error e) :
    ∃ e', parse text.toList = .error e' ∧ e = e'.inText text := by
  unfold onText at h
  cases hparse : parse text.toList with
  | ok a =>
    rw [hparse] at h
    cases h
  | error e' =>
    rw [hparse] at h
    exact ⟨e', rfl, (Except.error.inj h).symm⟩

/-- A syntax error points at a place before which nothing is wrong but limits of different kinds. -/
theorem syntaxError_pointsRight :
    (∀ (text : String) (e : SyntaxError), parseQuery text = .error e →
      PointsRight parseQuery text e) ∧
    ∀ (text : String) (e : SyntaxError), .arrow ∉ lexemes text.toList →
      parseFilter text = .error e → PointsRight parseFilter text e := by
  constructor
  · intro text e h
    obtain ⟨e, he, rfl⟩ := exists_of_onText_eq_error h
    refine pointsRight_of_stopsAfter accepts_query ?_ ?_ stopsAfter_query_nil
    · intro hblank
      rw [parseQueryChars_blank hblank] at he
      cases he
      rfl
    · exact fun hblank => parseQueryChars_stopsAfter hblank he
  · intro text e harrow h
    obtain ⟨e, he, rfl⟩ := exists_of_onText_eq_error h
    refine pointsRight_of_stopsAfter accepts_filter ?_ ?_ stopsAfter_filter_nil
    · intro hblank
      rw [parseFilterChars_blank hblank] at he
      cases he
      rfl
    · exact fun hblank => parseFilterChars_stopsAfter harrow hblank he

/-- The second stage ends where its arrow stands, and the group ends with the text. -/
theorem syntaxError_pointsRight_at :
    (∃ e, parseQuery "a => (b & => c" = .error e ∧ e.position = 10 ∧
      PointsRight parseQuery "a => (b & => c" e) ∧
    ∃ e, parseFilter "!(... ^5) (b" = .error e ∧ e.position = 12 ∧
      PointsRight parseFilter "!(... ^5) (b" e := by
  have hquery : parseQuery "a => (b & => c" =
      .error ⟨.unexpectedEnd, 10, "a => (b & => c"⟩ := by cbv
  have hfilter : parseFilter "!(... ^5) (b" =
      .error ⟨.noClosingParenthesis, 12, "!(... ^5) (b"⟩ := by cbv
  have harrow : Lexeme.arrow ∉ lexemes "!(... ^5) (b".toList := by decide +kernel
  exact ⟨⟨_, hquery, rfl, syntaxError_pointsRight.1 _ _ hquery⟩,
    ⟨_, hfilter, rfl, syntaxError_pointsRight.2 _ _ harrow hfilter⟩⟩

/-- In the text `[%q ... ^5` the missing bracket is noticed before the limits of different kinds. -/
theorem parseQuery_unclosed :
    parseQuery "[%q ... ^5" = .error ⟨.noClosingBracket, 10, "[%q ... ^5"⟩ := by
  have htokens : tokens "[%q ... ^5".toList =
      [⟨.lbracket, 0⟩, ⟨.status ['q'], 1⟩, ⟨.dots, 4⟩, ⟨.priority ['5'], 8⟩] := by decide +kernel
  have hrange : readRange 10 ⟨.lbracket, 0⟩
      [⟨.status ['q'], 1⟩, ⟨.dots, 4⟩, ⟨.priority ['5'], 8⟩] = .error ⟨.noClosingBracket, 10⟩ := by
    rw [readRange_eq, readLimit_status rfl, statusOf_eq_ok (s := .queuing) (by decide)]
    simp only [located, Except.map, Except.bind]
    rw [readExact_cons, if_pos rfl]
    simp only
    rw [readLimit_priority rfl, priorityOf_eq_ok (by decide : Text.readInt? ['5'] = some 5)]
    rfl
  have hstage : parseStage 10
      [⟨.lbracket, 0⟩, ⟨.status ['q'], 1⟩, ⟨.dots, 4⟩, ⟨.priority ['5'], 8⟩] =
        .error ⟨.noClosingBracket, 10⟩ := by
    rw [parseStage_filter (List.cons_ne_nil _ _) rfl, readOr_eq, readAnd_eq,
      readUnary_of_ne (by simp), readPrimary_range rfl, hrange]
    rfl
  have hquery : parseQueryChars "[%q ... ^5".toList = .error ⟨.noClosingBracket, 10⟩ := by
    have hparts := parseQueryChars_eq (s := "[%q ... ^5".toList) (by decide)
    rw [htokens] at hparts
    change (parseQueryChars _).map _ = parseParts [(_, 10)] at hparts
    rw [parseParts_singleton, hstage] at hparts
    cases hq : parseQueryChars "[%q ... ^5".toList with
    | ok q =>
      rw [hq] at hparts
      cases hparts
    | error e =>
      rw [hq] at hparts
      cases hparts
      rfl
  rw [parseQuery, onText, hquery]
  rfl

/-- No bracket mends limits of different kinds. -/
theorem mixed_limits_have_no_completion :
    ¬ ∀ (text : String) (e : SyntaxError), parseQuery text = .error e →
      ∃ suffix q, parseQuery (String.ofList (text.toList.take e.position ++ suffix)) = .ok q := by
  intro hall
  have hlexemes : lexemes ("[%q ... ^5".toList.take 10) =
      [.lbracket, .status ['q'], .dots, .priority ['5']] := by decide +kernel
  have hmixes : MixesLimits (lexemes ("[%q ... ^5".toList.take 10)) :=
    ⟨[.lbracket], .status ['q'], .priority ['5'], .statusFirst _ _, hlexemes⟩
  obtain ⟨suffix, q, hq⟩ := hall _ _ parseQuery_unclosed
  rw [parseQuery, onText_eq_ok_iff, String.toList_ofList, accepts_query.ok_iff] at hq
  obtain ⟨before, after, hlong, hbefore⟩ := hmixes.exists_append suffix
  rw [hlong] at hq
  exact accepts_query.not_mixesLimits before after q hq hbefore

end TodoLists.Query
