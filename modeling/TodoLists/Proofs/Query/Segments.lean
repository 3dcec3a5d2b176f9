import TodoLists.Proofs.Fault
import TodoLists.Proofs.Query.ErrorPlace
import TodoLists.Proofs.Query.Placement

/-!
# Stages on their own

A query text that is cut at its arrows falls into segments, and each stage is what its segment is as
a text of its own. Cutting changes no token: a word looks ahead for an arrow only to end before it,
and the characters of an arrow begin no `...`. What stands in a segment comes earlier in the segment
than in the text, which makes no difference to the filter and moves what is wrong with it.
-/

namespace TodoLists

namespace Query

/-- A part of a text and the number of characters before it. -/
structure Segment where
  start : Nat
  chars : List Char

namespace Segment

def text (g : Segment) : String := String.ofList g.chars

/-- The place of the arrow behind the segment, or the end of the text. -/
def stop (g : Segment) : Nat := g.start + g.chars.length

/-- What is wrong with a segment and where in the text that is: nothing stands in it, or it is no
filter on its own. -/
inductive Fails (g : Segment) : SyntaxCause → Nat → Prop where
  | blank (h : Text.allBlank g.chars = true) : g.Fails .emptyFilter g.stop
  | alone {e : SyntaxError} (h : Text.allBlank g.chars = false)
      (he : parseFilter g.text = .error e) : g.Fails e.cause (g.start + e.position)

end Segment

/-- The places of the arrows among tokens. -/
def arrows (ts : List Token) : List Nat :=
  (ts.filter fun t => t.lexeme = .arrow).map Token.position

/-- A text from some place on, cut at the places of arrows, which have two characters each. -/
def cutAt (start : Nat) (s : List Char) : List Nat → List Segment
  | [] => [⟨start, s⟩]
  | p :: ps => ⟨start, s.take (p - start)⟩ :: cutAt (p + 2) (s.drop (p + 2 - start)) ps

def segments (text : String) : List Segment := cutAt 0 text.toList (arrows (tokens text.toList))

/-! ### Cutting -/

theorem arrows_eq_nil {ts : List Token} (h : .arrow ∉ ts.map Token.lexeme) : arrows ts = [] := by
  have hnone : ∀ t ∈ ts, ¬ decide (t.lexeme = .arrow) = true := by
    intro t ht harrow
    exact h (List.mem_map.2 ⟨t, ht, of_decide_eq_true harrow⟩)
  rw [arrows, List.filter_eq_nil_iff.2 hnone, List.map_nil]

theorem arrows_append_cons {ts more : List Token} {p : Nat} (h : .arrow ∉ ts.map Token.lexeme) :
    arrows (ts ++ ⟨.arrow, p⟩ :: more) = p :: arrows more := by
  have hbefore := arrows_eq_nil h
  rw [arrows, List.map_eq_nil_iff] at hbefore
  rw [arrows, List.filter_append, hbefore, List.nil_append, List.filter_cons_of_pos (by rfl),
    List.map_cons, arrows]

/-- A text that begins with an arrow. -/
theorem exists_of_tokensFrom_eq_cons_arrow {p : Nat} {s : List Char} {t : Token} {more : List Token}
    (h : tokensFrom p s = t :: more) (harrow : t.lexeme = .arrow) (hposition : t.position = p) :
    ∃ rest, s = '=' :: '>' :: rest ∧ tokensFrom (p + 2) rest = more := by
  induction s using cut_induction with
  | nil =>
    rw [tokensFrom] at h
    cases h
  | blank c cs hb _ =>
    rw [tokensFrom_blank hb] at h
    have hplace := position_of_mem_tokensFrom (h ▸ List.mem_cons_self : t ∈ tokensFrom (p + 1) cs)
    omega
  | lexeme c tail rest l hb hl htext _ =>
    rw [tokensFrom_lexeme hb hl htext, List.cons.injEq] at h
    obtain ⟨rfl, hmore⟩ := h
    obtain rfl : l = .arrow := harrow
    cases htext
    exact ⟨rest, rfl, hmore⟩

/-- A text is one segment, or a segment and an arrow and a text. -/
inductive Cut : Nat → List Char → List Segment → Prop where
  | last {p : Nat} {a : List Char} (h : .arrow ∉ lexemes a) : Cut p a [⟨p, a⟩]
  | step {p : Nat} {a b : List Char} {gs : List Segment} (h : .arrow ∉ lexemes a)
      (htokens : tokensFrom p (a ++ '=' :: '>' :: b) =
        tokensFrom p a ++ ⟨.arrow, p + a.length⟩ :: tokensFrom (p + a.length + 2) b)
      (hmore : Cut (p + a.length + 2) b gs) : Cut p (a ++ '=' :: '>' :: b) (⟨p, a⟩ :: gs)

theorem cut_cutAt (p : Nat) (s : List Char) : Cut p s (cutAt p s (arrows (tokensFrom p s))) := by
  induction hn : s.length using Nat.strongRecOn generalizing p s with
  | ind n ih =>
    subst hn
    by_cases hmem : .arrow ∈ (tokensFrom p s).map Token.lexeme
    · obtain ⟨first, others, hlexemes, hfirst⟩ := List.eq_append_cons_of_mem hmem
      obtain ⟨ts, after, hts, rfl, hafter⟩ := List.map_eq_append_iff.1 hlexemes
      obtain ⟨t, more, rfl, harrow, -⟩ := List.map_eq_cons_iff.1 hafter
      obtain ⟨a, b, rfl, rfl, hb, hplace, -⟩ := exists_append_tokensFrom hts
      obtain ⟨rest, rfl, rfl⟩ := exists_of_tokensFrom_eq_cons_arrow hb harrow hplace
      obtain rfl : t = ⟨.arrow, p + a.length⟩ := by rw [← harrow, ← hplace]; rfl
      have htake : p + a.length - p = a.length := by omega
      have hdrop : p + a.length + 2 - p = a.length + 2 := by omega
      rw [hts, arrows_append_cons hfirst, cutAt, htake, hdrop, List.take_left, List.drop_append,
        Nat.add_sub_cancel_left, List.drop_eq_nil_of_le (Nat.le_add_right _ _), List.nil_append]
      refine .step (by rwa [map_lexeme_tokensFrom] at hfirst) hts (ih rest.length ?_ _ rest rfl)
      rw [List.length_append, List.length_cons, List.length_cons]
      omega
    · rw [arrows_eq_nil hmem]
      exact .last (by rwa [map_lexeme_tokensFrom] at hmem)

theorem cut_segments (text : String) : Cut 0 text.toList (segments text) :=
  cut_cutAt 0 text.toList

namespace Cut

variable {p : Nat} {s : List Char} {gs : List Segment}

theorem ne_nil (h : Cut p s gs) : gs ≠ [] := by
  cases h <;> exact List.cons_ne_nil _ _

/-- The segments with arrows between them are the text. -/
theorem intercalate (h : Cut p s gs) :
    ['=', '>'].intercalate (gs.map Segment.chars) = s := by
  induction h with
  | last => simp
  | @step p a b gs _ _ hmore ih =>
    obtain ⟨g, gs, rfl⟩ := List.exists_cons_of_ne_nil hmore.ne_nil
    rw [List.map_cons] at ih
    rw [List.map_cons, List.map_cons, List.intercalate_cons_cons, ih]
    simp

theorem arrow_notMem (h : Cut p s gs) : ∀ g ∈ gs, .arrow ∉ lexemes g.chars := by
  induction h with
  | last h => exact List.forall_mem_singleton.2 h
  | step h _ _ ih => exact List.forall_mem_cons.2 ⟨h, ih⟩

end Cut

/-! ### Stages and segments -/

/-- The tokens of a segment, as they stand in the text, with the place where they end. -/
def Segment.part (g : Segment) : List Token × Nat := (tokensFrom g.start g.chars, g.stop)

theorem stages_of_notMem (stop : Nat) {ts : List Token} (h : .arrow ∉ ts.map Token.lexeme) :
    stages stop ts = ((ts, stop), []) := by
  induction ts with
  | nil => rfl
  | cons t ts ih =>
    rw [List.map_cons, List.mem_cons, not_or] at h
    rw [stages, ih h.2]
    simp only [if_neg (Ne.symm h.1)]

theorem stages_append_cons (stop : Nat) {ts more : List Token} {p : Nat}
    (h : .arrow ∉ ts.map Token.lexeme) :
    stages stop (ts ++ ⟨.arrow, p⟩ :: more) =
      ((ts, p), (stages stop more).1 :: (stages stop more).2) := by
  induction ts with
  | nil =>
    rw [List.nil_append, stages]
    rfl
  | cons t ts ih =>
    rw [List.map_cons, List.mem_cons, not_or] at h
    rw [List.cons_append, stages, ih h.2]
    simp only [if_neg (Ne.symm h.1)]

/-- The stages of a text are the tokens of its segments. -/
theorem Cut.stages_eq {p : Nat} {s : List Char} {gs : List Segment} (h : Cut p s gs) :
    (stages (p + s.length) (tokensFrom p s)).1 :: (stages (p + s.length) (tokensFrom p s)).2 =
      gs.map Segment.part := by
  induction h with
  | last h =>
    rw [stages_of_notMem _ (by rwa [map_lexeme_tokensFrom])]
    rfl
  | @step p a b gs h htokens _ ih =>
    have hlength : p + (a ++ '=' :: '>' :: b).length = p + a.length + 2 + b.length := by
      rw [List.length_append, List.length_cons, List.length_cons]
      omega
    rw [htokens, stages_append_cons _ (by rwa [map_lexeme_tokensFrom]), hlength, ih]
    rfl

/-- Tokens of a text that begins further on. -/
theorem tokensFrom_eq_map (k p : Nat) (s : List Char) :
    tokensFrom (k + p) s = (tokensFrom p s).map (Token.placed (k + ·)) := by
  induction s using cut_induction generalizing p with
  | nil => rw [tokensFrom, tokensFrom, List.map_nil]
  | blank c cs hb ih => rw [tokensFrom_blank hb, tokensFrom_blank hb, Nat.add_assoc, ih]
  | lexeme c tail rest l hb hl htext ih =>
    rw [tokensFrom_lexeme hb hl htext, tokensFrom_lexeme hb hl htext, Nat.add_assoc, ih,
      List.map_cons]
    rfl

namespace Segment

variable (g : Segment)

/-- What a segment is read as in its place. -/
def read : Except ParseError Filter := parseStage g.part.2 g.part.1

theorem read_eq : g.read =
    (parseStage g.chars.length (tokens g.chars)).mapError (ParseError.placed (g.start + ·)) := by
  rw [← parseStage_placed, tokens, ← tokensFrom_eq_map]
  rfl

variable {g}

theorem read_eq_ok_iff {f : Filter} : g.read = .ok f ↔ parseFilter g.text = .ok f := by
  rw [read_eq, mapError_eq_ok_iff, parseStage_eq_ok_iff, text, parseFilter, onText_eq_ok_iff,
    String.toList_ofList, parseFilterChars_eq_ok_iff]
  rfl

theorem read_of_blank (h : Text.allBlank g.chars = true) :
    g.read = .error ⟨.emptyFilter, g.stop⟩ := by
  have htokens : tokens g.chars = [] := List.map_eq_nil_iff.1 (lexemes_eq_nil_iff.2 h)
  rw [read_eq, htokens]
  rfl

theorem read_eq_error_iff (harrow : .arrow ∉ lexemes g.chars) {e : ParseError} :
    g.read = .error e ↔ g.Fails e.cause e.position := by
  obtain ⟨cause, position⟩ := e
  by_cases hblank : Text.allBlank g.chars = true
  · rw [read_of_blank hblank]
    constructor
    · intro h
      cases h
      exact .blank hblank
    · intro h
      cases h with
      | blank => rfl
      | alone h => exact absurd hblank (ne_true_of_eq_false h)
  · rw [Bool.not_eq_true] at hblank
    have halone := parseFilterChars_eq hblank harrow
    rw [read_eq, ← halone]
    constructor
    · intro h
      obtain ⟨e, he, hplaced⟩ := exists_of_mapError_eq_error h
      cases hplaced
      refine .alone (e := e.inText g.text) hblank ?_
      rw [parseFilter, onText, text, String.toList_ofList, he]
    · intro h
      cases h with
      | blank h => exact absurd h (ne_true_of_eq_false hblank)
      | alone _ hfilter =>
        obtain ⟨e, he, rfl⟩ := exists_of_onText_eq_error hfilter
        rw [text, String.toList_ofList] at he
        rw [he]
        rfl

end Segment

theorem onText_eq_error_iff {α : Type} {parse : List Char → Except ParseError α} {text : String}
    {e : SyntaxError} : onText parse text = .error e ↔
      e.text = text ∧ parse text.toList = .error ⟨e.cause, e.position⟩ := by
  constructor
  · intro h
    obtain ⟨e', he', rfl⟩ := exists_of_onText_eq_error h
    exact ⟨rfl, he'⟩
  · rintro ⟨rfl, h⟩
    rw [onText, h]
    rfl

/-- The stages of a text that is not blank are read one after another, each as its segment. -/
theorem parseQueryChars_eq_mapM {s : List Char} {gs : List Segment} (h : Text.allBlank s = false)
    (hcut : Cut 0 s gs) : (parseQueryChars s).map Query.stageList = gs.mapM Segment.read := by
  have hstages := hcut.stages_eq
  rw [Nat.zero_add] at hstages
  rw [parseQueryChars_eq h, tokens, hstages, parseParts, List.mapM_map]
  rfl

/-- A text is a query exactly when all its segments are filters, which then are its stages. -/
theorem parseQuery_eq_ok_iff_segments {text : String} (h : Text.allBlank text.toList = false)
    (q : Query) : parseQuery text = .ok q ↔
      List.Forall₂ (fun g f => parseFilter g.text = .ok f) (segments text) q.stageList := by
  have hmap : parseQueryChars text.toList = .ok q ↔
      (parseQueryChars text.toList).map Query.stageList = .ok q.stageList := by
    rw [map_eq_ok_iff]
    constructor
    · exact fun hq => ⟨q, hq, rfl⟩
    · rintro ⟨r, hr, hqr⟩
      rw [hr, stageList_injective hqr]
  rw [parseQuery, onText_eq_ok_iff, hmap, parseQueryChars_eq_mapM h (cut_segments text),
    mapM_eq_ok_iff]
  simp only [Segment.read_eq_ok_iff]

/-- A text that is no query is wrong in the first segment that is no filter. -/
theorem parseQuery_eq_error_iff_segments {text : String} (h : Text.allBlank text.toList = false)
    (e : SyntaxError) : parseQuery text = .error e ↔ e.text = text ∧
      ∃ before g after, segments text = before ++ g :: after ∧
        (∀ b ∈ before, ∃ f, parseFilter b.text = .ok f) ∧ g.Fails e.cause e.position := by
  have hcut := cut_segments text
  have hstages : parseQuery text = .error e ↔
      e.text = text ∧ (segments text).mapM Segment.read = .error ⟨e.cause, e.position⟩ := by
    rw [parseQuery, onText_eq_error_iff, ← parseQueryChars_eq_mapM h hcut, map_eq_error_iff]
  rw [hstages, mapM_eq_error_iff]
  refine and_congr_right fun _ => exists_congr fun before => exists_congr fun g =>
    exists_congr fun after => and_congr_right fun hgs => ?_
  have hmem : g ∈ segments text := hgs ▸ List.mem_append_right _ List.mem_cons_self
  simp only [Segment.read_eq_ok_iff, Segment.read_eq_error_iff (hcut.arrow_notMem g hmem)]

/-- A text that is not blank is its segments with arrows between them, and the stages of its query
are these segments as filters; the first segment that is no filter says what is wrong with it. -/
theorem parseQuery_by_segments {text : String} (h : Text.allBlank text.toList = false) :
    ['=', '>'].intercalate ((segments text).map Segment.chars) = text.toList ∧
    (∀ q, parseQuery text = .ok q ↔
      List.Forall₂ (fun g f => parseFilter g.text = .ok f) (segments text) q.stageList) ∧
    ∀ e, parseQuery text = .error e ↔ e.text = text ∧
      ∃ before g after, segments text = before ++ g :: after ∧
        (∀ b ∈ before, ∃ f, parseFilter b.text = .ok f) ∧ g.Fails e.cause e.position :=
  ⟨(cut_segments text).intercalate, parseQuery_eq_ok_iff_segments h,
    parseQuery_eq_error_iff_segments h⟩

/-- The group in the second segment is not closed before the arrow, though a bracket follows it. -/
theorem parseQuery_by_segments_errands :
    Text.allBlank "a => (b & => c)".toList = false ∧
    (segments "a => (b & => c)").map (fun g => (g.start, g.text)) =
      [(0, "a "), (4, " (b & "), (12, " c)")] ∧
    ∃ before g after, segments "a => (b & => c)" = before ++ g :: after ∧
      (∀ b ∈ before, ∃ f, parseFilter b.text = .ok f) ∧ g.Fails .unexpectedEnd 10 := by
  have hblank : Text.allBlank "a => (b & => c)".toList = false := by decide
  have hquery : parseQuery "a => (b & => c)" =
      .error ⟨.unexpectedEnd, 10, "a => (b & => c)"⟩ := by cbv
  exact ⟨hblank, by decide +kernel, (((parseQuery_by_segments hblank).2.2 _).1 hquery).2⟩

end Query

end TodoLists
