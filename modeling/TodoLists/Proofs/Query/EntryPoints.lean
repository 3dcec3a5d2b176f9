import TodoLists.Proofs.Query.Acceptance

/-!
# The parsers agree

A status, a range of statuses and a filter are read by three parsers of their own. Each of them
accepts the texts of one category of the grammar, so they are compared there: a text that stands for
a status stands for the range of this status alone, and a text that stands for a range of statuses
is the filter of this range. The other way round a filter of a range of statuses is written as such
a text or put into parentheses that could be left out.
-/

namespace TodoLists.Query

variable {stop : Nat} {t : Token} {ts : List Token} {ls : List Lexeme} {s : List Char}

/-- A status alone or a range of statuses. -/
inductive DerivesStatusRange : List Lexeme → Range Status → Prop where
  | only {w : List Char} {a : Status} (h : Status.ofWord w = .ok a) :
      DerivesStatusRange [.status w] (.only a)
  | range {ls : List Lexeme} {r : Range Status} (h : DerivesRange reads ls (.status r)) :
      DerivesStatusRange ls r

theorem located_eq_ok_iff {α : Type} {p : Nat} {x : Except SyntaxCause α} {a : α} :
    located p x = .ok a ↔ x = .ok a := by
  cases x <;> simp [located]

theorem located_statusOf_eq_ok_iff {p : Nat} {w : List Char} {a : Status} :
    located p (statusOf w) = .ok a ↔ Status.ofWord w = .ok a :=
  located_eq_ok_iff.trans ⟨ofWord_of_statusOf, statusOf_eq_ok⟩

theorem toFilter_injective {q r : AnyRange} (h : q.toFilter = r.toFilter) : q = r := by
  cases q <;> cases r <;> cases h <;> rfl

/-! ### A status -/

/-- A text is blank or has a first token. -/
theorem tokenize_cases (s : List Char) :
    (lexemes s = [] ∧ tokenize s = .error ⟨.emptyQuery, 0⟩) ∨
      ∃ t rest, lexemes s = t.lexeme :: rest.map Token.lexeme ∧ tokenize s = .ok (t :: rest) := by
  by_cases hblank : Text.allBlank s = true
  · exact Or.inl ⟨lexemes_eq_nil_iff.2 hblank, if_pos hblank⟩
  · have hne := allBlank_eq_false_iff.1 (eq_false_of_ne_true hblank)
    rw [lexemes, ne_eq, List.map_eq_nil_iff] at hne
    obtain ⟨t, rest, hs⟩ := List.exists_cons_of_ne_nil hne
    exact Or.inr ⟨t, rest, by rw [lexemes, hs, List.map_cons], by rw [tokenize, if_neg hblank, hs]⟩

theorem parseStatusChars_eq_ok_iff {a : Status} :
    parseStatusChars s = .ok a ↔
      ∃ w, lexemes s = [.status w] ∧ Status.ofWord w = .ok a := by
  rcases tokenize_cases s with ⟨hnil, hs⟩ | ⟨t, rest, hcons, hs⟩
  · rw [parseStatusChars, hs, hnil]
    exact ⟨nofun, nofun⟩
  · rw [parseStatusChars, hs, hcons]
    simp only [bind, Except.bind]
    cases hl : t.lexeme with
    | status w =>
      by_cases hrest : rest = []
      · simp [hrest, located_statusOf_eq_ok_iff]
      · simp [hrest]
    | _ => exact ⟨nofun, nofun⟩

/-! ### A range of statuses -/

theorem readRange_eq_ok_iff {i : Bool} (hopen : Opens t.lexeme i) {r : AnyRange} :
    readRange stop t ts = .ok (r, []) ↔ IsRange ((t :: ts).map Token.lexeme) r := by
  constructor
  · intro h
    have hmeets : Meets IsRange (StopsAfter IsRange) stop [t] ts (readRange stop t ts) :=
      readRange_meets hopen
    rw [h] at hmeets
    obtain ⟨used, hused, hr⟩ := hmeets
    rw [List.append_nil] at hused
    rwa [hused]
  · intro h
    obtain ⟨_, _, _, _, i', j, a, b, r', hls, hopen', hlow, hhigh, hclose, hrange, hr⟩ :=
      h.exists_limits
    obtain ⟨o, lows, d, highs, c, hts, rfl, rfl, hd, rfl, rfl⟩ := exists_tokens_of_range hls
    obtain ⟨rfl, rfl⟩ := List.cons.inj hts
    rw [toFilter_injective hr]
    exact readRange_eq_ok hopen' hlow hd hhigh hclose hrange

theorem DerivesStatusRange.exists_cons {r : Range Status} (h : DerivesStatusRange ls r) :
    ∃ l tail, ls = l :: tail ∧ ((∃ w, l = .status w) ∨ ∃ i, Opens l i) := by
  cases h with
  | @only w a => exact ⟨_, _, rfl, Or.inl ⟨w, rfl⟩⟩
  | range h =>
    obtain ⟨opener, i, tail, hopen, rfl⟩ := h.exists_cons
    exact ⟨opener, tail, rfl, Or.inr ⟨i, hopen⟩⟩

theorem derivesStatusRange_status_iff {w : List Char} {r : Range Status} :
    DerivesStatusRange (.status w :: ls) r ↔
      ls = [] ∧ ∃ a, Status.ofWord w = .ok a ∧ r = .only a := by
  constructor
  · intro h
    generalize hls : Lexeme.status w :: ls = ms at h
    cases h with
    | @only v a h =>
      obtain ⟨hw, rfl⟩ := List.cons.inj hls
      exact ⟨rfl, a, Lexeme.status.inj hw ▸ h, rfl⟩
    | range h =>
      obtain ⟨opener, i, tail, hopen, rfl⟩ := h.exists_cons
      rw [← (List.cons.inj hls).1] at hopen
      cases hopen
  · rintro ⟨rfl, a, h, rfl⟩
    exact .only h

theorem only_inj {a b : Status} : Range.only a = Range.only b ↔ a = b := by
  simp [Range.only]

/-- One lexeme alone is no range, so it is a status. -/
theorem derivesStatusRange_singleton_iff {l : Lexeme} {r : Range Status} :
    DerivesStatusRange [l] r ↔ ∃ w a, l = .status w ∧ Status.ofWord w = .ok a ∧ r = .only a := by
  constructor
  · intro h
    cases h with
    | only h => exact ⟨_, _, rfl, h, rfl⟩
    | range h =>
      obtain ⟨opener, closer, low, high, _, _, _, _, _, hls, -⟩ := h.exists_limits
      simp at hls
  · rintro ⟨w, a, rfl, h, rfl⟩
    exact .only h

theorem derivesStatusRange_opener_iff {l : Lexeme} {i : Bool} (hopen : Opens l i)
    {r : Range Status} :
    DerivesStatusRange (l :: ls) r ↔ IsRange (l :: ls) (.statuses r) := by
  refine ⟨fun h => ?_, .range⟩
  cases h with
  | only => cases hopen
  | range h => exact h

theorem parseStatusOrRange_opener_eq_ok_iff {i : Bool} (hopen : Opens t.lexeme i)
    {r : Range Status} {rest : List Token} :
    parseStatusOrRange stop t ts = .ok (r, rest) ↔
      readRange stop t ts = .ok (.statuses r, rest) := by
  rw [parseStatusOrRange, readRange]
  generalize t.lexeme = l at hopen
  cases hopen with
  | round | square =>
    rcases parseRange stop t ts with e | ⟨q | q, rest'⟩ <;>
      simp [plain, bind, Except.bind, Except.map, pure, Except.pure]

theorem parseStatusOrRange_eq_ok_iff {r : Range Status} :
    parseStatusOrRange stop t ts = .ok (r, []) ↔
      DerivesStatusRange ((t :: ts).map Token.lexeme) r := by
  rw [List.map_cons]
  by_cases hstatus : ∃ w, t.lexeme = .status w
  · obtain ⟨w, hw⟩ := hstatus
    rw [hw, derivesStatusRange_status_iff, parseStatusOrRange, hw, map_eq_ok_iff]
    simp only [located_statusOf_eq_ok_iff, Prod.mk.injEq, List.map_eq_nil_iff]
    exact ⟨fun ⟨a, ha, har, hts⟩ => ⟨hts, a, ha, har.symm⟩,
      fun ⟨hts, a, ha, har⟩ => ⟨a, ha, har.symm, hts⟩⟩
  by_cases hopen : ∃ i, Opens t.lexeme i
  · obtain ⟨i, hopen⟩ := hopen
    rw [derivesStatusRange_opener_iff hopen, ← List.map_cons, ← readRange_eq_ok_iff hopen,
      parseStatusOrRange_opener_eq_ok_iff hopen]
  · constructor
    · intro h
      rw [parseStatusOrRange] at h
      split at h
      · next w hw => exact absurd ⟨w, hw⟩ hstatus
      · next hl => exact absurd ⟨false, by rw [hl]; exact .round⟩ hopen
      · next hl => exact absurd ⟨true, by rw [hl]; exact .square⟩ hopen
      · cases h
    · intro h
      obtain ⟨l, tail, hl, hbegins⟩ := h.exists_cons
      rw [← (List.cons.inj hl).1] at hbegins
      exact absurd hbegins (not_or.2 ⟨hstatus, hopen⟩)

theorem parseStatusRangeChars_eq_ok_iff {r : Range Status} :
    parseStatusRangeChars s = .ok r ↔ DerivesStatusRange (lexemes s) r := by
  rcases tokenize_cases s with ⟨hnil, hs⟩ | ⟨t, rest, hcons, hs⟩
  · rw [parseStatusRangeChars, hs, hnil]
    refine ⟨nofun, fun h => ?_⟩
    obtain ⟨l, tail, hl, -⟩ := h.exists_cons
    cases hl
  · have hwhole : parseStatusOrRange s.length t rest = .ok (r, []) ↔
        DerivesStatusRange ((t :: rest).map Token.lexeme) r := parseStatusOrRange_eq_ok_iff
    rw [parseStatusRangeChars, hs, hcons, ← List.map_cons, ← hwhole]
    simp only [bind, Except.bind]
    rcases parseStatusOrRange s.length t rest with e | ⟨q, left⟩
    · exact ⟨nofun, nofun⟩
    · by_cases hleft : left = []
      · simp [hleft, pure, Except.pure]
      · simp [hleft]

/-! ### A filter of a range of statuses -/

/-- A filter of a range of statuses is no negation and joins nothing. -/
theorem Derives.primary_of_status {number : List Char → Int → Prop} {c : Category} {f : Filter}
    {r : Range Status} (h : Derives number c ls f) (hf : f = .status r) :
    Derives number .primary ls (.status r) := by
  induction h with
  | word | tag | priority | not | and | or => cases hf
  | status h =>
    rw [← hf]
    exact .status h
  | range h => exact .range (hf ▸ h)
  | group h => exact .group (hf ▸ h)
  | primary _ ih | unary _ ih | conjunction _ ih => exact ih hf

/-- The tokens are a group in parentheses that could be left out: inside it stands a stage of its
own. -/
def IsRedundantGroup (ts : List Token) (f : Filter) : Prop :=
  ∃ opener inside closer, ts = opener :: (inside ++ [closer]) ∧ opener.lexeme = .lparen ∧
    opensRange opener (inside ++ [closer]) = false ∧ closer.lexeme = .rparen ∧
    parseStage closer.position inside = .ok f

theorem derivesStage_status_iff {r : Range Status} :
    DerivesStage reads ls (.status r) ↔ Derives reads .disjunction ls (.status r) := by
  constructor
  · intro h
    cases h with
    | filter _ _ h => exact h
  · intro h
    have hword (w : List Char) : ls ≠ [.word w] := by
      rintro rfl
      cases h.primary_of_status rfl with
      | range hr =>
        obtain ⟨opener, i, tail, hopen, hls⟩ := hr.exists_cons
        rw [← (List.cons.inj hls).1] at hopen
        cases hopen
    exact .filter (hword _) (hword _) h

theorem isRedundantGroup_iff {r : Range Status} :
    IsRedundantGroup ts (.status r) ↔ ∃ ms, ts.map Token.lexeme = .lparen :: (ms ++ [.rparen]) ∧
      Derives reads .disjunction ms (.status r) := by
  constructor
  · rintro ⟨opener, inside, closer, rfl, hopen, -, hclose, hinside⟩
    refine ⟨inside.map Token.lexeme, by simp [hopen, hclose], ?_⟩
    exact derivesStage_status_iff.1 (parseStage_eq_ok_iff.1 hinside)
  · rintro ⟨ms, hms, h⟩
    obtain ⟨opener, behind, rfl, hopen, hbehind⟩ := List.map_eq_cons_iff.1 hms
    obtain ⟨inside, last, rfl, hinside, hlast⟩ := List.map_eq_append_iff.1 hbehind
    obtain ⟨closer, rfl, hclose⟩ := List.map_eq_singleton_iff.1 hlast
    refine ⟨opener, inside, closer, rfl, hopen, ?_, hclose, ?_⟩
    · -- the lookahead passes over what is inside and meets the closing parenthesis
      rw [opensRange, hopen, dotsAhead_append h hinside Nat.one_ne_zero, dotsAhead, hclose]
      rfl
    · rw [parseStage_eq_ok_iff, hinside, derivesStage_status_iff]
      exact h

theorem derives_status_iff {r : Range Status} :
    Derives reads .disjunction (ts.map Token.lexeme) (.status r) ↔
      DerivesStatusRange (ts.map Token.lexeme) r ∨ IsRedundantGroup ts (.status r) := by
  rw [isRedundantGroup_iff]
  generalize ts.map Token.lexeme = ls
  constructor
  · intro h
    cases h.primary_of_status rfl with
    | status hw => exact Or.inl (.only hw)
    | range hr => exact Or.inl (.range hr)
    | group hg => exact Or.inr ⟨_, rfl, hg⟩
  · rintro (h | ⟨ms, rfl, h⟩)
    · cases h with
      | only h => exact .conjunction (.unary (.primary (.status h)))
      | range h => exact .conjunction (.unary (.primary (.range h)))
    · exact .conjunction (.unary (.primary (.group h)))

/-! ### Whole texts -/

/-- A text is a status when it is the range of this status and has one token only. A text is the
filter of a range of statuses when it is this range or a group of a text that is such a filter. -/
theorem parsers_agree (text : String) :
    (∀ a, parseStatus text = .ok a ↔
      parseStatusRange text = .ok (.only a) ∧ ∃ l, lexemes text.toList = [l]) ∧
    (∀ r, parseFilter text = .ok (.status r) ↔
      parseStatusRange text = .ok r ∨ IsRedundantGroup (tokens text.toList) (.status r)) := by
  constructor
  · intro a
    rw [parseStatus, onText_eq_ok_iff, parseStatusChars_eq_ok_iff, parseStatusRange,
      onText_eq_ok_iff, parseStatusRangeChars_eq_ok_iff]
    constructor
    · rintro ⟨w, hls, hw⟩
      rw [hls]
      exact ⟨.only hw, _, rfl⟩
    · rintro ⟨h, l, hls⟩
      rw [hls, derivesStatusRange_singleton_iff] at h
      obtain ⟨w, b, rfl, hw, hb⟩ := h
      exact ⟨w, hls, only_inj.1 hb ▸ hw⟩
  · intro r
    rw [parseFilter, onText_eq_ok_iff, parseFilterChars_eq_ok_iff, derivesStage_status_iff,
      lexemes, derives_status_iff, parseStatusRange, onText_eq_ok_iff,
      parseStatusRangeChars_eq_ok_iff, lexemes]

end TodoLists.Query
