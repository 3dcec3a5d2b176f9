import TodoLists.Proofs.Text.Numerals
import TodoLists.Query.Token
import Mathlib.Data.List.Infix
import Mathlib.Data.List.TakeWhile

/-!
# Words and numerals

Which texts a word and a numeral can be, and how much of a text has to be seen to know where the
word or the numeral at its start ends. A word looks ahead for `...` and `=>`, so what follows a word
can cut it short. It cannot when it begins with a blank or a sign, and it does not when the word
ended before.
-/

namespace TodoLists.Query

/-- No character of the text ends a word, and neither `...` nor `=>` stands in it. -/
structure Unbroken (w : List Char) : Prop where
  plain : ∀ c ∈ w, Text.isBlank c = false ∧ isSign c = false
  noDots : ¬ ['.', '.', '.'] <:+: w
  noArrow : ¬ ['=', '>'] <:+: w

structure IsWord (w : List Char) : Prop extends Unbroken w where
  ne_nil : w ≠ []

theorem all_plain_iff {w : List Char} :
    (w.all fun c => !Text.isBlank c && !isSign c) = true ↔
      ∀ c ∈ w, Text.isBlank c = false ∧ isSign c = false := by
  simp [List.all_eq_true]

instance (w : List Char) : Decidable (Unbroken w) :=
  decidable_of_iff ((w.all fun c => !Text.isBlank c && !isSign c) = true ∧
      ¬ ['.', '.', '.'] <:+: w ∧ ¬ ['=', '>'] <:+: w)
    ⟨fun h => ⟨all_plain_iff.1 h.1, h.2.1, h.2.2⟩,
      fun h => ⟨all_plain_iff.2 h.plain, h.noDots, h.noArrow⟩⟩

instance (w : List Char) : Decidable (IsWord w) :=
  decidable_of_iff (Unbroken w ∧ w ≠ []) ⟨fun h => ⟨h.1, h.2⟩, fun h => ⟨h.toUnbroken, h.ne_nil⟩⟩

/-- The text is empty or begins with a blank or a sign. -/
def isDetached : List Char → Bool
  | [] => true
  | c :: _ => Text.isBlank c || isSign c

/-! ### What starts a word -/

theorem startsDots_iff {s : List Char} : startsDots s = true ↔ ['.', '.', '.'] <+: s := by
  constructor
  · intro h
    unfold startsDots at h
    split at h
    · exact ⟨_, rfl⟩
    · exact absurd h (by decide)
  · rintro ⟨t, rfl⟩
    rfl

theorem startsArrow_iff {s : List Char} : startsArrow s = true ↔ ['=', '>'] <+: s := by
  constructor
  · intro h
    unfold startsArrow at h
    split at h
    · exact ⟨_, rfl⟩
    · exact absurd h (by decide)
  · rintro ⟨t, rfl⟩
    rfl

theorem startsWord_cons_iff {c : Char} {cs : List Char} :
    startsWord (c :: cs) = true ↔ (Text.isBlank c = false ∧ isSign c = false) ∧
      ¬ ['.', '.', '.'] <+: c :: cs ∧ ¬ ['=', '>'] <+: c :: cs := by
  rw [← startsDots_iff, ← startsArrow_iff]
  simp [startsWord, and_assoc]

theorem startsWord_of_append {xs : List Char} (ys : List Char) (hne : xs ≠ [])
    (h : startsWord (xs ++ ys) = true) : startsWord xs = true := by
  obtain ⟨c, cs, rfl⟩ := List.exists_cons_of_ne_nil hne
  rw [List.cons_append, startsWord_cons_iff] at h
  rw [startsWord_cons_iff]
  exact ⟨h.1, fun hd => h.2.1 (hd.trans ⟨ys, rfl⟩), fun ha => h.2.2 (ha.trans ⟨ys, rfl⟩)⟩

/-- A text of characters that can stand in a word does not reach into a detached text. -/
theorem prefix_of_prefix_append {p xs ys : List Char}
    (hp : ∀ c ∈ p, Text.isBlank c = false ∧ isSign c = false) (hy : isDetached ys = true)
    (h : p <+: xs ++ ys) : p <+: xs := by
  induction p generalizing xs with
  | nil => exact List.nil_prefix
  | cons a p ih =>
    cases xs with
    | nil =>
      obtain ⟨t, rfl⟩ := h
      have ha := hp a List.mem_cons_self
      simp [isDetached, ha.1, ha.2] at hy
    | cons x xs =>
      rw [List.cons_append, List.cons_prefix_cons] at h
      rw [List.cons_prefix_cons]
      exact ⟨h.1, ih (fun c hc => hp c (List.mem_cons_of_mem a hc)) h.2⟩

theorem startsDots_append (xs : List Char) {ys : List Char} (hy : isDetached ys = true) :
    startsDots (xs ++ ys) = startsDots xs := by
  rw [Bool.eq_iff_iff, startsDots_iff, startsDots_iff]
  exact ⟨prefix_of_prefix_append (all_plain_iff.1 (by decide)) hy, fun h => h.trans ⟨ys, rfl⟩⟩

theorem startsArrow_append (xs : List Char) {ys : List Char} (hy : isDetached ys = true) :
    startsArrow (xs ++ ys) = startsArrow xs := by
  rw [Bool.eq_iff_iff, startsArrow_iff, startsArrow_iff]
  exact ⟨prefix_of_prefix_append (all_plain_iff.1 (by decide)) hy, fun h => h.trans ⟨ys, rfl⟩⟩

theorem startsWord_append {xs ys : List Char} (hne : xs ≠ []) (hy : isDetached ys = true) :
    startsWord (xs ++ ys) = startsWord xs := by
  obtain ⟨c, cs, rfl⟩ := List.exists_cons_of_ne_nil hne
  have hdots := startsDots_append (c :: cs) hy
  have harrow := startsArrow_append (c :: cs) hy
  rw [List.cons_append] at hdots harrow ⊢
  rw [startsWord, startsWord, hdots, harrow]

theorem startsWord_eq_false_of_isDetached {s : List Char} (h : isDetached s = true) :
    startsWord s = false := by
  cases s with
  | nil => rfl
  | cons c cs =>
    rw [isDetached, Bool.or_eq_true] at h
    rcases h with h | h <;> simp [startsWord, h]

/-! ### The word at the start of a text -/

theorem takeWord_cons {c : Char} {cs : List Char} (h : startsWord (c :: cs) = true) :
    takeWord (c :: cs) = c :: takeWord cs := by
  rw [takeWord, if_pos h]

theorem takeWord_eq_nil {s : List Char} (h : startsWord s = false) : takeWord s = [] := by
  cases s with
  | nil => rfl
  | cons c cs => rw [takeWord, if_neg (ne_true_of_eq_false h)]

theorem takeWord_prefixOf (s : List Char) : takeWord s <+: s := by
  induction s with
  | nil => exact List.nil_prefix
  | cons c cs ih =>
    by_cases h : startsWord (c :: cs) = true
    · rw [takeWord_cons h, List.cons_prefix_cons]
      exact ⟨rfl, ih⟩
    · rw [takeWord_eq_nil (by simpa using h)]
      exact List.nil_prefix

theorem Unbroken.nil : Unbroken [] := by decide

theorem unbroken_takeWord (s : List Char) : Unbroken (takeWord s) := by
  induction s with
  | nil => exact Unbroken.nil
  | cons c cs ih =>
    by_cases h : startsWord (c :: cs) = true
    · have hc := startsWord_cons_iff.1 h
      have hp : c :: takeWord cs <+: c :: cs :=
        List.cons_prefix_cons.2 ⟨rfl, takeWord_prefixOf cs⟩
      rw [takeWord_cons h]
      refine ⟨?_, ?_, ?_⟩
      · intro x hx
        rcases List.mem_cons.1 hx with rfl | hx
        · exact hc.1
        · exact ih.plain x hx
      · rw [List.infix_cons_iff, not_or]
        exact ⟨fun hd => hc.2.1 (hd.trans hp), ih.noDots⟩
      · rw [List.infix_cons_iff, not_or]
        exact ⟨fun ha => hc.2.2 (ha.trans hp), ih.noArrow⟩
    · rw [takeWord_eq_nil (by simpa using h)]
      exact Unbroken.nil

theorem Unbroken.tail {c : Char} {cs : List Char} (h : Unbroken (c :: cs)) : Unbroken cs :=
  ⟨fun x hx => h.plain x (List.mem_cons_of_mem c hx),
    fun hd => h.noDots (List.infix_cons hd), fun ha => h.noArrow (List.infix_cons ha)⟩

theorem startsWord_of_unbroken {c : Char} {cs : List Char} (h : Unbroken (c :: cs)) :
    startsWord (c :: cs) = true :=
  startsWord_cons_iff.2 ⟨h.plain c List.mem_cons_self,
    fun hd => h.noDots hd.isInfix, fun ha => h.noArrow ha.isInfix⟩

theorem takeWord_of_unbroken {w : List Char} (h : Unbroken w) : takeWord w = w := by
  induction w with
  | nil => rfl
  | cons c cs ih => rw [takeWord_cons (startsWord_of_unbroken h), ih h.tail]

/-- What is detached does not change the word before it. -/
theorem takeWord_append (xs : List Char) {ys : List Char} (hy : isDetached ys = true) :
    takeWord (xs ++ ys) = takeWord xs := by
  induction xs with
  | nil => exact takeWord_eq_nil (startsWord_eq_false_of_isDetached hy)
  | cons c cs ih =>
    have hs := startsWord_append (List.cons_ne_nil c cs) hy
    rw [List.cons_append] at hs ⊢
    rw [takeWord, takeWord, hs, ih]

/-- A character that starts a word still does when the text is made longer, provided the word ended
before the end of the text. -/
theorem startsWord_append_of_lt {c : Char} {cs ys : List Char} (h : startsWord (c :: cs) = true)
    (hlt : (takeWord cs).length < cs.length) : startsWord (c :: (cs ++ ys)) = true := by
  obtain ⟨hc, hdots, harrow⟩ := startsWord_cons_iff.1 h
  rw [startsWord_cons_iff]
  match cs, hlt with
  | [x], hlt =>
    refine ⟨hc, ?_, ?_⟩
    · rintro ⟨t, ht⟩
      obtain ⟨rfl, rfl, -⟩ : '.' = c ∧ '.' = x ∧ '.' :: t = ys := by simpa using ht
      exact absurd hlt (by decide)
    · rintro ⟨t, ht⟩
      obtain ⟨rfl, rfl, -⟩ : '=' = c ∧ '>' = x ∧ t = ys := by simpa using ht
      exact harrow ⟨[], rfl⟩
  | x :: y :: rest, _ =>
    simp only [List.cons_append, List.cons_prefix_cons] at hdots harrow ⊢
    exact ⟨hc, by simpa using hdots, by simpa using harrow⟩

/-- A word that ended before the end of the text is the same when the text is made longer. -/
theorem takeWord_append_of_lt {xs : List Char} (ys : List Char)
    (hlt : (takeWord xs).length < xs.length) :
    takeWord (xs ++ ys) = takeWord xs := by
  induction xs with
  | nil => exact absurd hlt (by decide)
  | cons c cs ih =>
    rw [List.cons_append]
    by_cases h : startsWord (c :: cs) = true
    · rw [takeWord_cons h, List.length_cons, List.length_cons, Nat.add_lt_add_iff_right] at hlt
      rw [takeWord_cons h, takeWord_cons (startsWord_append_of_lt h hlt), ih hlt]
    · have hlong : startsWord (c :: (cs ++ ys)) = false := by
        rw [Bool.eq_false_iff]
        intro hw
        exact h (startsWord_of_append ys (List.cons_ne_nil c cs) hw)
      rw [takeWord_eq_nil hlong, takeWord_eq_nil (by simpa using h)]

/-! ### The numeral at the start of a text -/

theorem isDigit_eq_false_of_isSign {c : Char} (h : isSign c = true) : Text.isDigit c = false := by
  simp only [isSign, Bool.or_eq_true, beq_iff_eq] at h
  rcases h with (((((((rfl | rfl) | rfl) | rfl) | rfl) | rfl) | rfl) | rfl) | rfl <;> decide

theorem takeWhile_isDigit_of_isDetached {s : List Char} (h : isDetached s = true) :
    s.takeWhile Text.isDigit = [] := by
  cases s with
  | nil => rfl
  | cons c cs =>
    rw [isDetached, Bool.or_eq_true] at h
    have hc : Text.isDigit c = false :=
      h.elim Text.isDigit_eq_false_of_isBlank isDigit_eq_false_of_isSign
    rw [List.takeWhile_cons_of_neg (ne_true_of_eq_false hc)]

theorem isSigned_takeNumeral (s : List Char) : Text.IsSigned (takeNumeral s) := by
  have hdigits : ∀ t : List Char, ∀ c ∈ t.takeWhile Text.isDigit, Text.isDigit c = true :=
    fun t c hc => List.mem_takeWhile_imp hc
  cases s with
  | nil => exact ⟨[], [], rfl, Or.inl rfl, by simp⟩
  | cons c cs =>
    rw [takeNumeral]
    split
    · rename_i hc
      refine ⟨[c], cs.takeWhile Text.isDigit, rfl, ?_, hdigits cs⟩
      rcases hc with rfl | rfl
      · exact Or.inr (Or.inl rfl)
      · exact Or.inr (Or.inr rfl)
    · exact ⟨[], (c :: cs).takeWhile Text.isDigit, rfl, Or.inl rfl, hdigits (c :: cs)⟩

theorem takeNumeral_of_isSigned {n : List Char} (h : Text.IsSigned n) : takeNumeral n = n := by
  obtain ⟨sign, digits, rfl, hsign, hdigits⟩ := h
  have htake : digits.takeWhile Text.isDigit = digits := List.takeWhile_eq_self_iff.2 hdigits
  rcases hsign with rfl | rfl | rfl
  · cases digits with
    | nil => rfl
    | cons d ds =>
      have hd : ¬ (d = '+' ∨ d = '-') := by
        rintro (rfl | rfl)
        · exact absurd (hdigits '+' List.mem_cons_self) (by decide)
        · exact absurd (hdigits '-' List.mem_cons_self) (by decide)
      rw [List.nil_append, takeNumeral, if_neg hd, htake]
  · rw [List.singleton_append, takeNumeral, if_pos (Or.inl rfl), htake]
  · rw [List.singleton_append, takeNumeral, if_pos (Or.inr rfl), htake]

theorem takeNumeral_prefixOf (s : List Char) : takeNumeral s <+: s := by
  cases s with
  | nil => exact List.nil_prefix
  | cons c cs =>
    rw [takeNumeral]
    split
    · exact List.cons_prefix_cons.2 ⟨rfl, List.takeWhile_prefix _⟩
    · exact List.takeWhile_prefix _

/-- What is detached does not change the numeral before it. -/
theorem takeNumeral_append {xs ys : List Char} (hy : isDetached ys = true) :
    takeNumeral (xs ++ ys) = takeNumeral xs := by
  have htake : ∀ t : List Char, (t ++ ys).takeWhile Text.isDigit = t.takeWhile Text.isDigit := by
    intro t
    rw [List.takeWhile_append, takeWhile_isDigit_of_isDetached hy, List.append_nil]
    split
    · rename_i hall
      exact ((List.takeWhile_prefix _).eq_of_length hall).symm
    · rfl
  cases xs with
  | nil =>
    cases ys with
    | nil => rfl
    | cons c cs =>
      have hc : ¬ (c = '+' ∨ c = '-') := by
        rintro (rfl | rfl) <;> simp [isDetached, isSign, Text.isBlank] at hy
      change takeNumeral (c :: cs) = []
      rw [takeNumeral, if_neg hc, takeWhile_isDigit_of_isDetached hy]
  | cons c cs =>
    rw [List.cons_append, takeNumeral, takeNumeral, htake,
      ← List.cons_append, htake]

/-- A numeral that ended before the end of the text is the same when the text is made longer. -/
theorem takeNumeral_append_of_lt {xs : List Char} (ys : List Char)
    (hlt : (takeNumeral xs).length < xs.length) : takeNumeral (xs ++ ys) = takeNumeral xs := by
  have htake : ∀ t : List Char, (t.takeWhile Text.isDigit).length < t.length →
      (t ++ ys).takeWhile Text.isDigit = t.takeWhile Text.isDigit := by
    intro t ht
    rw [List.takeWhile_append, if_neg (by omega)]
  cases xs with
  | nil => exact absurd hlt (by decide)
  | cons c cs =>
    rw [List.cons_append]
    rw [takeNumeral] at hlt ⊢
    rw [takeNumeral]
    split
    · rename_i hc
      rw [if_pos hc] at hlt
      rw [htake cs (by simpa using hlt)]
    · rename_i hc
      rw [if_neg hc] at hlt
      rw [← List.cons_append, htake (c :: cs) hlt]

end TodoLists.Query
