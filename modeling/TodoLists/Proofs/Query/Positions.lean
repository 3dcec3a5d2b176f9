import TodoLists.Proofs.Query.Lexemes

/-!
# Positions in a text

The position of a token cuts the text in two parts that go with the tokens before it and with the
tokens from it on. Behind the first part any other text can be put: its last token may go on, but
the tokens before that one are settled.
-/

namespace TodoLists.Query

/-- Every token stands inside the text. -/
theorem position_of_mem_tokensFrom {p : Nat} {s : List Char} {t : Token}
    (h : t ∈ tokensFrom p s) : p ≤ t.position ∧ t.position < p + s.length := by
  induction s using cut_induction generalizing p with
  | nil =>
    rw [tokensFrom] at h
    exact absurd h List.not_mem_nil
  | blank c cs hb ih =>
    rw [tokensFrom_blank hb] at h
    have hpos := ih h
    rw [List.length_cons]
    omega
  | lexeme c tail rest l hb hl htext ih =>
    rw [tokensFrom_lexeme hb hl htext, List.mem_cons] at h
    rw [List.length_cons, List.length_append]
    rcases h with rfl | h
    · exact ⟨Nat.le_refl p, Nat.lt_add_of_pos_right (Nat.succ_pos _)⟩
    · have hpos := ih h
      rw [htext, List.length_cons] at hpos
      omega

theorem positionOf_eq_or (stop : Nat) (ts : List Token) :
    (ts = [] ∧ positionOf stop ts = stop) ∨ ∃ t ∈ ts, positionOf stop ts = t.position := by
  cases ts with
  | nil => exact Or.inl ⟨rfl, rfl⟩
  | cons t ts => exact Or.inr ⟨t, List.mem_cons_self, rfl⟩

theorem positionOf_append_cons (stop : Nat) (ts more : List Token) (t : Token) :
    positionOf stop (ts ++ t :: more) = positionOf t.position ts := by
  cases ts <;> rfl

/-- Where the tokens of a text are split, the text is split too, and each part has its tokens. The
cut makes no word of the first part go on. -/
theorem exists_append_tokensFrom {p : Nat} {s : List Char} {before after : List Token}
    (h : tokensFrom p s = before ++ after) :
    ∃ a b, s = a ++ b ∧ tokensFrom p a = before ∧ tokensFrom (p + a.length) b = after ∧
      positionOf (p + s.length) after = p + a.length ∧
      (startsWord a = true → startsWord (a ++ b) = true) := by
  induction s using cut_induction generalizing p before with
  | nil =>
    rw [tokensFrom] at h
    obtain ⟨rfl, rfl⟩ := List.append_eq_nil_iff.1 h.symm
    exact ⟨[], [], rfl, by rw [tokensFrom], by rw [tokensFrom], rfl, id⟩
  | blank c cs hb ih =>
    rw [tokensFrom_blank hb] at h
    obtain ⟨a, b, rfl, hbefore, hafter, hpos, -⟩ := ih h
    have hlength : p + 1 + a.length = p + (c :: a).length := by rw [List.length_cons]; omega
    refine ⟨c :: a, b, rfl, by rw [tokensFrom_blank hb, hbefore], hlength ▸ hafter, ?_, ?_⟩
    · rw [← hlength, ← hpos, List.length_cons]
      congr 1
      omega
    · intro hw
      rw [startsWord_cons_iff, hb] at hw
      exact absurd hw.1.1 (by decide)
  | lexeme c tail rest l hb hl htext ih =>
    rw [tokensFrom_lexeme hb hl htext] at h
    cases before with
    | nil =>
      rw [List.nil_append] at h
      subst h
      exact ⟨[], c :: (tail ++ rest), rfl, by rw [tokensFrom], tokensFrom_lexeme hb hl htext, rfl,
        fun hw => absurd hw (by decide)⟩
    | cons t before =>
      rw [List.cons_append, List.cons.injEq] at h
      obtain ⟨rfl, h⟩ := h
      rw [htext, List.length_cons] at h
      obtain ⟨a, b, rfl, hbefore, hafter, hpos, hcut⟩ := ih h
      have hshort : Begins c (tail ++ a) l := hl.of_cut htext hcut
      have hlength : p + (tail.length + 1) + a.length = p + (c :: (tail ++ a)).length := by
        rw [List.length_cons, List.length_append]
        omega
      refine ⟨c :: (tail ++ a), b, by rw [List.cons_append, List.append_assoc], ?_,
        hlength ▸ hafter, ?_, ?_⟩
      · rw [tokensFrom_lexeme hb hshort htext, htext, List.length_cons, hbefore]
      · rw [← hlength, ← hpos, List.length_cons, List.length_append]
        congr 1
        omega
      · -- the lexeme is a word on both sides of the cut
        intro hw
        have hword : l = .word (takeWord (c :: (tail ++ a))) := by
          rw [← hshort.eq, (Begins.word hw).eq]
        rw [hword] at hl
        rw [List.cons_append, List.append_assoc]
        exact startsWord_of_begins hl

theorem exists_append_of_tokensFrom {p stop : Nat} {s : List Char} {before after : List Token}
    (h : tokensFrom p s = before ++ after) (hstop : stop = p + s.length) :
    ∃ a b, s = a ++ b ∧ positionOf stop after = p + a.length ∧
      lexemes a = before.map Token.lexeme ∧ (startsWord a = true → startsWord (a ++ b) = true) := by
  obtain ⟨a, b, hs, rfl, -, hpos, hcut⟩ := exists_append_tokensFrom h
  exact ⟨a, b, hs, hstop ▸ hpos, (map_lexeme_tokensFrom p a).symm, hcut⟩

/-- The first token of a text that begins with the sign of a status or of a priority. -/
theorem exists_lexemes_of_begins {c : Char} {cs : List Char} {l : Lexeme}
    (hb : Text.isBlank c = false) (hl : Begins c cs l) : ∃ more, lexemes (c :: cs) = l :: more := by
  obtain ⟨tail, rest, htext, rfl⟩ := hl.text_append
  exact ⟨lexemes rest, lexemes_lexeme hb hl htext⟩

/-- When a text goes on behind its last token, the tokens before that one stay, and a status or a
priority at the end is still one. -/
theorem lexemes_append_of_concat {x : List Char} {before : List Lexeme} {l : Lexeme}
    (h : lexemes x = before ++ [l]) (ys : List Char) :
    ∃ l' more, lexemes (x ++ ys) = before ++ l' :: more ∧
      (∀ w, l = .status w → ∃ w', l' = .status w') ∧
      (∀ n, l = .priority n → ∃ n', l' = .priority n') := by
  induction x using cut_induction generalizing before with
  | nil =>
    rw [lexemes_nil] at h
    exact absurd h.symm (List.append_ne_nil_of_right_ne_nil _ (List.cons_ne_nil l []))
  | blank c cs hb ih =>
    rw [lexemes_blank hb] at h
    rw [List.cons_append, lexemes_blank hb]
    exact ih h
  | lexeme c tail rest k hb hk htext ih =>
    rw [lexemes_lexeme hb hk htext] at h
    cases before with
    | nil =>
      obtain ⟨rfl, -⟩ : k = l ∧ lexemes rest = [] := by simpa using h
      obtain ⟨more, hmore⟩ :=
        exists_lexemes_of_begins hb (begins_firstLexeme (tail ++ rest ++ ys) hb)
      refine ⟨_, more, by rw [List.cons_append, hmore, List.nil_append], ?_, ?_⟩
      · rintro w rfl
        obtain rfl := hk.eq_percent
        exact ⟨_, (Begins.status rfl).eq⟩
      · rintro n rfl
        obtain rfl := hk.eq_caret
        exact ⟨_, (Begins.priority rfl).eq⟩
    | cons k' before =>
      rw [List.cons_append, List.cons.injEq] at h
      obtain ⟨rfl, h⟩ := h
      obtain ⟨l', more, hlong, hkind⟩ := ih h
      -- another token follows `k`, so `k` ended before the end of the text
      have hrest : rest ≠ [] := by
        rintro rfl
        rw [lexemes_nil] at h
        exact absurd h.symm (List.append_ne_nil_of_right_ne_nil _ (List.cons_ne_nil l []))
      have hlt : k.text.length < (c :: (tail ++ rest)).length := by
        have hpos := List.length_pos_iff.2 hrest
        rw [htext, List.length_cons, List.length_cons, List.length_append]
        omega
      have hk' : Begins c (tail ++ (rest ++ ys)) k := by
        rw [← List.append_assoc]
        exact hk.append_of_lt hlt
      refine ⟨l', more, ?_, hkind⟩
      rw [List.cons_append, List.append_assoc, lexemes_lexeme hb hk' htext, hlong,
        List.cons_append]

end TodoLists.Query
