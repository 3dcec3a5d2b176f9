import TodoLists.Proofs.Query.Words
import TodoLists.Query.Parser

/-!
# Cutting a text in two

A text that is cut into tokens can itself be cut in two. Where the second part begins with a blank
or a sign, the tokens of the whole are those of the parts. Where the cut is at the start of a token,
the first part keeps its tokens although what they were looked at with is gone. And a text that is
made longer at its end keeps all its tokens but the last.

Everything goes by one induction on texts, which takes off a blank or a lexeme at a time, and by the
relation `Begins`, which says for each kind of lexeme when it stands at the start of a text.
-/

namespace TodoLists.Query

/-- A lexeme that can come out of a text. -/
def Lexeme.IsCut : Lexeme → Prop
  | .word w => IsWord w
  | .tag w => Unbroken w
  | .status w => Unbroken w
  | .priority n => Text.IsSigned n
  | _ => True

/-- The lexemes of a text, their positions forgotten. -/
def lexemes (s : List Char) : List Lexeme := (tokens s).map Token.lexeme

/-! ### The lexeme at the start of a text -/

/-- The lexeme of a character that is a lexeme by itself. -/
def single? : Char → Option Lexeme
  | '(' => some .lparen
  | ')' => some .rparen
  | '[' => some .lbracket
  | ']' => some .rbracket
  | '&' => some .and
  | '!' => some .not
  | _ => none

/-- The lexeme stands at the start of the text `c :: cs`. -/
inductive Begins (c : Char) (cs : List Char) : Lexeme → Prop where
  | arrow (h : startsArrow (c :: cs) = true) : Begins c cs .arrow
  | dots (h : startsDots (c :: cs) = true) : Begins c cs .dots
  | single {l : Lexeme} (h : single? c = some l) : Begins c cs l
  | status (h : c = '%') : Begins c cs (.status (takeWord cs))
  | tag (h : c = '#') : Begins c cs (.tag (takeWord cs))
  | priority (h : c = '^') : Begins c cs (.priority (takeNumeral cs))
  | word (h : startsWord (c :: cs) = true) : Begins c cs (.word (takeWord (c :: cs)))

theorem Begins.status_of_eq {c : Char} {cs w : List Char} (h : c = '%') (hw : takeWord cs = w) :
    Begins c cs (.status w) := by
  rw [← hw]
  exact .status h

theorem Begins.tag_of_eq {c : Char} {cs w : List Char} (h : c = '#') (hw : takeWord cs = w) :
    Begins c cs (.tag w) := by
  rw [← hw]
  exact .tag h

theorem Begins.priority_of_eq {c : Char} {cs n : List Char} (h : c = '^')
    (hn : takeNumeral cs = n) : Begins c cs (.priority n) := by
  rw [← hn]
  exact .priority h

theorem Begins.word_of_eq {c : Char} {cs w : List Char} (h : startsWord (c :: cs) = true)
    (hw : takeWord (c :: cs) = w) : Begins c cs (.word w) := by
  rw [← hw]
  exact .word h

theorem single?_eq_some {c : Char} {l : Lexeme} (h : single? c = some l) :
    Text.isBlank c = false ∧ isSign c = true ∧ l.text = [c] ∧ l.IsCut := by
  unfold single? at h
  split at h <;> cases h <;> exact ⟨by decide, by decide, rfl, trivial⟩

theorem Begins.eq {c : Char} {cs : List Char} {l : Lexeme} (h : Begins c cs l) :
    firstLexeme c cs = l := by
  cases h with
  | arrow h =>
    obtain ⟨t, ht⟩ := startsArrow_iff.1 h
    cases ht
    rfl
  | dots h =>
    obtain ⟨t, ht⟩ := startsDots_iff.1 h
    cases ht
    rfl
  | single h =>
    unfold single? at h
    split at h <;> cases h <;> rfl
  | status h | tag h | priority h =>
    subst h
    rfl
  | word h =>
    obtain ⟨⟨_, hsign⟩, hdots, harrow⟩ := startsWord_cons_iff.1 h
    rw [← startsDots_iff] at hdots
    rw [← startsArrow_iff] at harrow
    unfold firstLexeme
    rw [if_neg harrow, if_neg hdots, takeWord_cons h]
    split <;> first | rfl | exact absurd hsign (by decide)

theorem begins_firstLexeme {c : Char} (cs : List Char) (hb : Text.isBlank c = false) :
    Begins c cs (firstLexeme c cs) := by
  have hbegins : ∃ l, Begins c cs l := by
    by_cases harrow : startsArrow (c :: cs) = true
    · exact ⟨_, .arrow harrow⟩
    by_cases hdots : startsDots (c :: cs) = true
    · exact ⟨_, .dots hdots⟩
    by_cases hsign : isSign c = true
    · simp only [isSign, Bool.or_eq_true, beq_iff_eq] at hsign
      rcases hsign with (((((((rfl | rfl) | rfl) | rfl) | rfl) | rfl) | rfl) | rfl) | rfl
      · exact ⟨.lparen, .single rfl⟩
      · exact ⟨.rparen, .single rfl⟩
      · exact ⟨.lbracket, .single rfl⟩
      · exact ⟨.rbracket, .single rfl⟩
      · exact ⟨.and, .single rfl⟩
      · exact ⟨.not, .single rfl⟩
      · exact ⟨_, .tag rfl⟩
      · exact ⟨_, .status rfl⟩
      · exact ⟨_, .priority rfl⟩
    · refine ⟨_, .word (startsWord_cons_iff.2 ⟨⟨hb, by simpa using hsign⟩, ?_, ?_⟩)⟩
      · rwa [← startsDots_iff]
      · rwa [← startsArrow_iff]
  obtain ⟨l, hl⟩ := hbegins
  rw [hl.eq]
  exact hl

theorem startsWord_of_begins {c : Char} {cs w : List Char} (h : Begins c cs (.word w)) :
    startsWord (c :: cs) = true := by
  cases h with
  | single h => unfold single? at h; split at h <;> cases h
  | word h => exact h

theorem Begins.eq_percent {c : Char} {cs w : List Char} (h : Begins c cs (.status w)) :
    c = '%' := by
  cases h with
  | single h => unfold single? at h; split at h <;> cases h
  | status h => exact h

theorem Begins.eq_caret {c : Char} {cs n : List Char} (h : Begins c cs (.priority n)) :
    c = '^' := by
  cases h with
  | single h => unfold single? at h; split at h <;> cases h
  | priority h => exact h

/-- The text of the lexeme stands in front of what is left. -/
theorem Begins.text_append {c : Char} {cs : List Char} {l : Lexeme} (h : Begins c cs l) :
    ∃ tail rest, l.text = c :: tail ∧ cs = tail ++ rest := by
  cases h with
  | arrow h =>
    obtain ⟨t, ht⟩ := startsArrow_iff.1 h
    cases ht
    exact ⟨['>'], t, rfl, rfl⟩
  | dots h =>
    obtain ⟨t, ht⟩ := startsDots_iff.1 h
    cases ht
    exact ⟨['.', '.'], t, rfl, rfl⟩
  | single h => exact ⟨[], cs, (single?_eq_some h).2.2.1, rfl⟩
  | status h | tag h =>
    subst h
    obtain ⟨t, ht⟩ := takeWord_prefixOf cs
    exact ⟨takeWord cs, t, rfl, ht.symm⟩
  | priority h =>
    subst h
    obtain ⟨t, ht⟩ := takeNumeral_prefixOf cs
    exact ⟨takeNumeral cs, t, rfl, ht.symm⟩
  | word h =>
    obtain ⟨t, ht⟩ := takeWord_prefixOf cs
    exact ⟨takeWord cs, t, takeWord_cons h, ht.symm⟩

theorem Begins.isCut {c : Char} {cs : List Char} {l : Lexeme} (h : Begins c cs l) : l.IsCut := by
  cases h with
  | arrow | dots => trivial
  | single h => exact (single?_eq_some h).2.2.2
  | status | tag => exact unbroken_takeWord cs
  | priority => exact isSigned_takeNumeral cs
  | word h =>
    refine ⟨unbroken_takeWord (c :: cs), ?_⟩
    rw [takeWord_cons h]
    exact List.cons_ne_nil _ _

/-- A lexeme is the same when something detached is put behind the text. -/
theorem Begins.append {c : Char} {cs ys : List Char} {l : Lexeme} (h : Begins c cs l)
    (hy : isDetached ys = true) : Begins c (cs ++ ys) l := by
  cases h with
  | arrow h => exact .arrow (by rw [← List.cons_append, startsArrow_append (c :: cs) hy, h])
  | dots h => exact .dots (by rw [← List.cons_append, startsDots_append (c :: cs) hy, h])
  | single h => exact .single h
  | status h => exact .status_of_eq h (takeWord_append cs hy)
  | tag h => exact .tag_of_eq h (takeWord_append cs hy)
  | priority h => exact .priority_of_eq h (takeNumeral_append hy)
  | word h =>
    refine .word_of_eq ?_ (takeWord_append (c :: cs) hy)
    rw [← List.cons_append, startsWord_append (List.cons_ne_nil c cs) hy, h]

/-- A lexeme that ended before the end of the text is the same when the text is made longer. -/
theorem Begins.append_of_lt {c : Char} {cs ys : List Char} {l : Lexeme} (h : Begins c cs l)
    (hlt : l.text.length < (c :: cs).length) : Begins c (cs ++ ys) l := by
  cases h with
  | arrow h =>
    exact .arrow (startsArrow_iff.2 ((startsArrow_iff.1 h).trans ⟨ys, rfl⟩))
  | dots h =>
    exact .dots (startsDots_iff.2 ((startsDots_iff.1 h).trans ⟨ys, rfl⟩))
  | single h => exact .single h
  | status h =>
    exact .status_of_eq h (takeWord_append_of_lt ys (by simpa [Lexeme.text] using hlt))
  | tag h =>
    exact .tag_of_eq h (takeWord_append_of_lt ys (by simpa [Lexeme.text] using hlt))
  | priority h =>
    exact .priority_of_eq h (takeNumeral_append_of_lt ys (by simpa [Lexeme.text] using hlt))
  | word h =>
    refine .word_of_eq (startsWord_append_of_lt h ?_) (takeWord_append_of_lt ys hlt)
    rw [Lexeme.text, takeWord_cons h] at hlt
    simpa using hlt

theorem takeWord_of_cut {w a b : List Char} (h : takeWord (w ++ (a ++ b)) = w)
    (hcut : startsWord a = true → startsWord (a ++ b) = true) : takeWord (w ++ a) = w := by
  induction w with
  | nil =>
    rw [List.nil_append] at h ⊢
    cases a with
    | nil => rfl
    | cons x xs =>
      refine takeWord_eq_nil (Bool.eq_false_iff.2 fun hx => ?_)
      have hlong : startsWord (x :: (xs ++ b)) = true := hcut hx
      rw [List.cons_append, takeWord_cons hlong] at h
      exact List.cons_ne_nil _ _ h
  | cons c w ih =>
    by_cases hw : startsWord (c :: (w ++ (a ++ b))) = true
    · rw [List.cons_append, takeWord_cons hw, List.cons_inj_right] at h
      have hshort : startsWord (c :: (w ++ a)) = true :=
        startsWord_of_append b (List.cons_ne_nil _ _) (by simpa using hw)
      rw [List.cons_append, takeWord_cons hshort, ih h]
    · rw [List.cons_append, takeWord_eq_nil (by simpa using hw)] at h
      exact absurd h.symm (List.cons_ne_nil _ _)

theorem takeNumeral_prefix_append (xs ys : List Char) :
    takeNumeral xs <+: takeNumeral (xs ++ ys) := by
  have htake : ∀ t : List Char,
      t.takeWhile Text.isDigit <+: (t ++ ys).takeWhile Text.isDigit := by
    intro t
    rw [List.takeWhile_append]
    split
    · exact (List.takeWhile_prefix _).trans (List.prefix_append _ _)
    · exact List.prefix_rfl
  cases xs with
  | nil => exact List.nil_prefix
  | cons c cs =>
    rw [List.cons_append, takeNumeral, takeNumeral]
    split
    · exact List.cons_prefix_cons.2 ⟨rfl, htake cs⟩
    · exact htake (c :: cs)

theorem takeNumeral_of_cut {n a b : List Char} (h : takeNumeral (n ++ (a ++ b)) = n) :
    takeNumeral (n ++ a) = n := by
  rw [← List.append_assoc] at h
  by_cases hlt : (takeNumeral (n ++ a)).length < (n ++ a).length
  · rw [← takeNumeral_append_of_lt b hlt, h]
  · have hle := (takeNumeral_prefix_append (n ++ a) b).length_le
    rw [h] at hle
    rw [List.length_append] at hlt
    have ha : a = [] := List.length_eq_zero_iff.1 (by omega)
    subst ha
    rw [List.append_nil] at hlt ⊢
    have hfull := (takeNumeral_prefixOf n).length_le
    exact (takeNumeral_prefixOf n).eq_of_length (by omega)

/-- A lexeme is the same when the text is cut off behind it, provided the cut makes no word go
on. -/
theorem Begins.of_cut {c : Char} {tail a b : List Char} {l : Lexeme}
    (h : Begins c (tail ++ (a ++ b)) l) (htext : l.text = c :: tail)
    (hcut : startsWord a = true → startsWord (a ++ b) = true) : Begins c (tail ++ a) l := by
  cases h with
  | arrow h =>
    obtain ⟨rfl, rfl⟩ : '=' = c ∧ ['>'] = tail := by simpa [Lexeme.text] using htext
    exact .arrow rfl
  | dots h =>
    obtain ⟨rfl, rfl⟩ : '.' = c ∧ ['.', '.'] = tail := by simpa [Lexeme.text] using htext
    exact .dots rfl
  | single h => exact .single h
  | status h =>
    have hw : takeWord (tail ++ (a ++ b)) = tail := (List.cons.inj htext).2
    exact .status_of_eq h ((takeWord_of_cut hw hcut).trans hw.symm)
  | tag h =>
    have hw : takeWord (tail ++ (a ++ b)) = tail := (List.cons.inj htext).2
    exact .tag_of_eq h ((takeWord_of_cut hw hcut).trans hw.symm)
  | priority h =>
    have hn : takeNumeral (tail ++ (a ++ b)) = tail := (List.cons.inj htext).2
    exact .priority_of_eq h ((takeNumeral_of_cut hn).trans hn.symm)
  | word h =>
    have hw : takeWord ((c :: tail) ++ (a ++ b)) = c :: tail := htext
    have hstart : startsWord ((c :: tail) ++ a) = true := by
      refine startsWord_of_append b (List.cons_ne_nil c _) ?_
      rwa [List.append_assoc, List.cons_append]
    exact .word_of_eq hstart ((takeWord_of_cut hw hcut).trans hw.symm)

/-! ### Tokens by blanks and lexemes -/

/-- A text is empty, or a blank and a text, or the text of a lexeme and a text. -/
theorem cut_induction {motive : List Char → Prop} (nil : motive [])
    (blank : ∀ c cs, Text.isBlank c = true → motive cs → motive (c :: cs))
    (lexeme : ∀ c tail rest l, Text.isBlank c = false → Begins c (tail ++ rest) l →
      l.text = c :: tail → motive rest → motive (c :: (tail ++ rest))) (s : List Char) :
    motive s := by
  induction hn : s.length using Nat.strong_induction_on generalizing s with
  | _ n ih =>
    subst hn
    cases s with
    | nil => exact nil
    | cons c cs =>
      by_cases hb : Text.isBlank c = true
      · exact blank c cs hb (ih cs.length (by simp) cs rfl)
      · have hb' : Text.isBlank c = false := by simpa using hb
        have hl := begins_firstLexeme cs hb'
        obtain ⟨tail, rest, htext, rfl⟩ := hl.text_append
        have hlt : rest.length < (c :: (tail ++ rest)).length := by
          rw [List.length_cons, List.length_append]
          omega
        exact lexeme c tail rest _ hb' hl htext (ih rest.length hlt rest rfl)

theorem tokensFrom_blank {p : Nat} {c : Char} {cs : List Char} (hb : Text.isBlank c = true) :
    tokensFrom p (c :: cs) = tokensFrom (p + 1) cs := by
  rw [tokensFrom, if_pos hb]

theorem tokensFrom_lexeme {p : Nat} {c : Char} {tail rest : List Char} {l : Lexeme}
    (hb : Text.isBlank c = false) (hl : Begins c (tail ++ rest) l) (htext : l.text = c :: tail) :
    tokensFrom p (c :: (tail ++ rest)) = ⟨l, p⟩ :: tokensFrom (p + l.text.length) rest := by
  rw [tokensFrom, if_neg (ne_true_of_eq_false hb), hl.eq]
  simp only [htext, List.length_cons, Nat.add_sub_cancel, List.drop_left]

theorem map_lexeme_tokensFrom (p : Nat) (s : List Char) :
    (tokensFrom p s).map Token.lexeme = lexemes s := by
  have hshift : ∀ q, (tokensFrom p s).map Token.lexeme = (tokensFrom q s).map Token.lexeme := by
    induction s using cut_induction generalizing p with
    | nil => intro q; rw [tokensFrom, tokensFrom]
    | blank c cs hb ih =>
      intro q
      rw [tokensFrom_blank hb, tokensFrom_blank hb]
      exact ih (p + 1) (q + 1)
    | lexeme c tail rest l hb hl htext ih =>
      intro q
      rw [tokensFrom_lexeme hb hl htext, tokensFrom_lexeme hb hl htext, List.map_cons,
        List.map_cons, ih _ (q + l.text.length)]
  exact hshift 0

@[simp] theorem lexemes_nil : lexemes [] = [] := by
  rw [lexemes, tokens, tokensFrom]
  rfl

theorem lexemes_blank {c : Char} {cs : List Char} (hb : Text.isBlank c = true) :
    lexemes (c :: cs) = lexemes cs := by
  rw [lexemes, tokens, tokensFrom_blank hb, map_lexeme_tokensFrom]

theorem lexemes_lexeme {c : Char} {tail rest : List Char} {l : Lexeme}
    (hb : Text.isBlank c = false) (hl : Begins c (tail ++ rest) l) (htext : l.text = c :: tail) :
    lexemes (c :: (tail ++ rest)) = l :: lexemes rest := by
  rw [lexemes, tokens, tokensFrom_lexeme hb hl htext, List.map_cons, map_lexeme_tokensFrom]

theorem isCut_of_mem_lexemes {s : List Char} {l : Lexeme} (h : l ∈ lexemes s) : l.IsCut := by
  induction s using cut_induction with
  | nil => simp at h
  | blank c cs hb ih =>
    rw [lexemes_blank hb] at h
    exact ih h
  | lexeme c tail rest k hb hk htext ih =>
    rw [lexemes_lexeme hb hk htext, List.mem_cons] at h
    rcases h with rfl | h
    · exact hk.isCut
    · exact ih h

/-- The tokens of a text with something detached behind it. -/
theorem lexemes_append {xs ys : List Char} (hy : isDetached ys = true) :
    lexemes (xs ++ ys) = lexemes xs ++ lexemes ys := by
  induction xs using cut_induction with
  | nil => rw [lexemes_nil, List.nil_append, List.nil_append]
  | blank c cs hb ih => rw [List.cons_append, lexemes_blank hb, lexemes_blank hb, ih]
  | lexeme c tail rest l hb hl htext ih =>
    have hlong : Begins c (tail ++ (rest ++ ys)) l := by
      rw [← List.append_assoc]
      exact hl.append hy
    rw [List.cons_append, List.append_assoc, lexemes_lexeme hb hlong htext,
      lexemes_lexeme hb hl htext, ih, List.cons_append]

theorem lexemes_sign {c : Char} {l : Lexeme} (h : single? c = some l) (s : List Char) :
    lexemes (c :: s) = l :: lexemes s := by
  obtain ⟨hblank, -, htext, -⟩ := single?_eq_some h
  have hbegins : Begins c ([] ++ s) l := .single h
  exact lexemes_lexeme hblank hbegins htext

theorem lexemes_append_sign {c : Char} {l : Lexeme} (h : single? c = some l) (s : List Char) :
    lexemes (s ++ [c]) = lexemes s ++ [l] := by
  have hdetached : isDetached [c] = true := by
    rw [isDetached, (single?_eq_some h).2.1, Bool.or_true]
  rw [lexemes_append hdetached, lexemes_sign h, lexemes_nil]

theorem lexemes_append_space (xs ys : List Char) :
    lexemes (xs ++ ' ' :: ys) = lexemes xs ++ lexemes ys := by
  rw [lexemes_append rfl, lexemes_blank rfl]

/-- The text of a lexeme that can come out of a text has that lexeme alone. -/
theorem lexemes_text {l : Lexeme} (h : l.IsCut) : lexemes l.text = [l] := by
  have hone : ∀ c tail, Text.isBlank c = false → Begins c tail l → l.text = c :: tail →
      lexemes l.text = [l] := by
    intro c tail hb hl htext
    rw [← List.append_nil tail] at hl
    rw [htext, ← List.append_nil tail, lexemes_lexeme hb hl htext, lexemes_nil]
  cases l with
  | arrow => exact hone _ _ (by decide) (.arrow rfl) rfl
  | dots => exact hone _ _ (by decide) (.dots rfl) rfl
  | lparen | rparen | lbracket | rbracket | and | not =>
    exact hone _ _ (by decide) (.single rfl) rfl
  | status w => exact hone _ _ (by decide) (.status_of_eq rfl (takeWord_of_unbroken h)) rfl
  | tag w => exact hone _ _ (by decide) (.tag_of_eq rfl (takeWord_of_unbroken h)) rfl
  | priority n => exact hone _ _ (by decide) (.priority_of_eq rfl (takeNumeral_of_isSigned h)) rfl
  | word w =>
    obtain ⟨c, cs, rfl⟩ := List.exists_cons_of_ne_nil h.ne_nil
    have hunbroken : Unbroken (c :: cs) := h.toUnbroken
    have hl : Begins c cs (.word (c :: cs)) :=
      .word_of_eq (startsWord_of_unbroken hunbroken) (takeWord_of_unbroken hunbroken)
    exact hone _ _ (h.plain c List.mem_cons_self).1 hl rfl

/-- Lexemes that can come out of a text come out of one text together. -/
theorem exists_lexemes_eq {ls : List Lexeme} (h : ∀ l ∈ ls, l.IsCut) : ∃ s, lexemes s = ls := by
  induction ls with
  | nil => exact ⟨[], lexemes_nil⟩
  | cons l ls ih =>
    obtain ⟨s, rfl⟩ := ih fun m hm => h m (List.mem_cons_of_mem l hm)
    refine ⟨l.text ++ ' ' :: s, ?_⟩
    rw [lexemes_append_space, lexemes_text (h l List.mem_cons_self), List.singleton_append]

theorem lexemes_eq_nil_iff {s : List Char} : lexemes s = [] ↔ Text.allBlank s = true := by
  induction s using cut_induction with
  | nil => exact ⟨fun _ => rfl, fun _ => lexemes_nil⟩
  | blank c cs hb ih =>
    rw [lexemes_blank hb, ih, Text.allBlank, Text.allBlank, List.all_cons, hb, Bool.true_and]
  | lexeme c tail rest l hb hl htext _ =>
    rw [lexemes_lexeme hb hl htext, Text.allBlank, List.all_cons, hb]
    simp

theorem allBlank_eq_false_iff {s : List Char} : Text.allBlank s = false ↔ lexemes s ≠ [] := by
  rw [Bool.eq_false_iff, Ne, Ne, lexemes_eq_nil_iff]

end TodoLists.Query
