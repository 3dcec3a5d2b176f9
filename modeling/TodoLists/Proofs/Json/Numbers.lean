import TodoLists.Json.Reader
import TodoLists.Json.Writer
import TodoLists.Proofs.Binary64.Magnitude
import TodoLists.Proofs.Text.Numerals
import Mathlib.Data.List.Basic
import Mathlib.Data.List.Induction
import Mathlib.Data.List.TakeWhile

/-!
# Whole numbers in files

A whole number is written in decimal digits and read back from them, whatever follows that is no
part of a number. Every whole number that is read could be written again.
-/

namespace TodoLists.Json

/-- A text that does not go on with a number: it is at its end, or a comma or a line break comes. -/
def EndsNumber (s : List Char) : Prop := ∀ c, s.head? = some c → c = ',' ∨ c = '\n'

theorem endsNumber_nil : EndsNumber [] := nofun

theorem endsNumber_comma (s : List Char) : EndsNumber (',' :: s) :=
  fun _ h => Or.inl (Option.some.inj h).symm

theorem endsNumber_newline (depth : Nat) (s : List Char) : EndsNumber (newline depth ++ s) :=
  fun _ h => Or.inr (Option.some.inj h).symm

/-! ### Digits -/

theorem isAsciiDigit_iff {c : Char} : isAsciiDigit c = true ↔ 48 ≤ c.toNat ∧ c.toNat ≤ 57 := by
  rw [isAsciiDigit, Bool.and_eq_true, decide_eq_true_eq, decide_eq_true_eq]
  exact Iff.rfl

theorem isAsciiDigit_of_mem_toDigits {n : Nat} :
    ∀ c ∈ Nat.toDigits 10 n, isAsciiDigit c = true := by
  intro c hc
  rw [isAsciiDigit_iff]
  exact Char.isDigit_iff_toNat.1 (Nat.isDigit_of_mem_toDigits (by decide) (by decide) hc)

theorem decimalValue_toDigits (n : Nat) : decimalValue (Nat.toDigits 10 n) = n :=
  Nat.ofDigitChars_ten_toDigits

theorem decimalValue_lt {ds : List Char} (h : ∀ c ∈ ds, isAsciiDigit c = true) :
    decimalValue ds < 10 ^ ds.length := by
  induction ds using List.reverseRecOn with
  | nil => decide
  | append_singleton ds c ih =>
    have ih := ih fun x hx => h x (List.mem_append_left _ hx)
    have hc := isAsciiDigit_iff.1 (h c (by simp))
    have hstep : decimalValue (ds ++ [c]) = 10 * decimalValue ds + (c.toNat - 48) := by
      rw [decimalValue, List.foldl_append]
      rfl
    rw [hstep, List.length_append, List.length_singleton, Nat.pow_succ]
    omega

/-- Only the number zero is written with a zero in front. -/
theorem head?_toDigits_ne {n : Nat} (h : 0 < n) : (Nat.toDigits 10 n).head? ≠ some '0' := by
  induction n using Nat.strong_induction_on with
  | _ n ih =>
    by_cases hn : n < 10
    · have hall : ∀ n < 10, 0 < n → n.digitChar ≠ '0' := by decide
      rw [Nat.toDigits_of_lt_base hn]
      exact fun e => hall n hn h (Option.some.inj e)
    · rw [Nat.toDigits_of_base_le (by decide) (by omega),
        List.head?_append_of_ne_nil _ Nat.toDigits_ne_nil]
      exact ih (n / 10) (by omega) (by omega)

theorem wholeDigits_of_head? {s : List Char} (h : s.head? ≠ some '0') :
    wholeDigits s = s.takeWhile isAsciiDigit := by
  unfold wholeDigits
  split
  · exact absurd rfl h
  · rfl

theorem isAsciiDigit_of_mem_wholeDigits {s : List Char} :
    ∀ c ∈ wholeDigits s, isAsciiDigit c = true := by
  unfold wholeDigits
  split
  · intro c hc
    rw [List.mem_singleton.1 hc]
    decide
  · exact fun c hc => List.mem_takeWhile_imp hc

theorem takeWhile_toDigits {rest : List Char} (hrest : EndsNumber rest) (n : Nat) :
    (Nat.toDigits 10 n ++ rest).takeWhile isAsciiDigit = Nat.toDigits 10 n := by
  rw [List.takeWhile_append_of_pos isAsciiDigit_of_mem_toDigits]
  cases rest with
  | nil => simp
  | cons c cs =>
    have hc : isAsciiDigit c = false := by
      rcases hrest c rfl with rfl | rfl <;> decide
    rw [List.takeWhile_cons_of_neg (by simp [hc]), List.append_nil]

theorem wholeDigits_toDigits {rest : List Char} (hrest : EndsNumber rest) (n : Nat) :
    wholeDigits (Nat.toDigits 10 n ++ rest) = Nat.toDigits 10 n := by
  rcases Nat.eq_zero_or_pos n with rfl | hn
  · rfl
  · rw [wholeDigits_of_head?, takeWhile_toDigits hrest]
    rw [List.head?_append_of_ne_nil _ Nat.toDigits_ne_nil]
    exact head?_toDigits_ne hn

/-! ### Numbers -/

theorem fractionDigits_of_endsNumber {rest : List Char} (h : EndsNumber rest) :
    fractionDigits rest = [] := by
  unfold fractionDigits
  split
  · rcases h '.' rfl with e | e <;> cases e
  · rfl

theorem exponentText_of_endsNumber {rest : List Char} (h : EndsNumber rest) :
    exponentText rest = [] := by
  cases rest with
  | nil => rfl
  | cons c cs =>
    have hc : ¬(c = 'e' ∨ c = 'E') := by
      rcases h c rfl with rfl | rfl <;> decide
    rw [exponentText, if_neg hc]

theorem readMagnitude_toDigits {rest : List Char} (hrest : EndsNumber rest) {n : Nat}
    (h : (Nat.toDigits 10 n).length ≤ Text.maxDigits) (negative : Bool) :
    readMagnitude negative (Nat.toDigits 10 n ++ rest) =
      .ok (int (if negative then -n else n), (Nat.toDigits 10 n).length) := by
  have hne : (Nat.toDigits 10 n).isEmpty = false := by
    rw [Bool.eq_false_iff, Ne, List.isEmpty_iff]
    exact Nat.toDigits_ne_nil
  rw [readMagnitude, wholeDigits_toDigits hrest, List.drop_left, fractionDigits_of_endsNumber hrest]
  simp only [List.isEmpty_nil, if_true, Nat.add_zero, List.drop_left,
    exponentText_of_endsNumber hrest, Bool.and_self, hne, Bool.false_eq_true, if_false,
    if_neg (Nat.not_lt.2 h), decimalValue_toDigits]

theorem ne_of_mem_toDigits {n : Nat} {c d : Char} (hc : c ∈ Nat.toDigits 10 n)
    (hd : isAsciiDigit d = false) : c ≠ d := by
  rintro rfl
  rw [isAsciiDigit_of_mem_toDigits c hc] at hd
  cases hd

theorem toDigits_eq_cons (n : Nat) : ∃ c cs, Nat.toDigits 10 n = c :: cs :=
  List.exists_cons_of_ne_nil Nat.toDigits_ne_nil

/-- A numeral starts with a digit, or with a minus sign before a digit. -/
theorem readNumber_ofInt {rest : List Char} (hrest : EndsNumber rest) {n : Int}
    (h : Text.isWritable n = true) :
    readNumber (Text.ofInt n ++ rest) = .ok (int n, (Text.ofInt n).length) := by
  have hlength := (Text.isWritable_iff_length n).1 h
  obtain ⟨c, cs, hcs⟩ := toDigits_eq_cons n.natAbs
  have hc : c ∈ Nat.toDigits 10 n.natAbs := by simp [hcs]
  cases n with
  | ofNat m =>
    have hminus : c ≠ '-' := ne_of_mem_toDigits hc (by decide)
    have hread := readMagnitude_toDigits hrest (n := m) hlength false
    rw [Int.ofNat_eq_natCast, Text.ofInt_natCast]
    rw [Int.ofNat_eq_natCast, Int.natAbs_natCast] at hcs
    rw [hcs] at hread ⊢
    rw [List.cons_append, readNumber]
    · exact hread
    · exact fun _ e => absurd (List.cons.inj e).1 hminus
    · exact fun _ e => absurd (List.cons.inj e).1 hminus
  | negSucc m =>
    have hletter : c ≠ 'I' := ne_of_mem_toDigits hc (by decide)
    have hread := readMagnitude_toDigits hrest (n := m + 1) hlength true
    rw [Int.natAbs_negSucc] at hcs
    rw [Text.ofInt_negSucc, List.cons_append, List.length_cons, hcs]
    rw [hcs] at hread
    rw [List.cons_append, readNumber]
    · rw [← List.cons_append, hread]
      rfl
    · exact fun _ e => absurd (List.cons.inj e).1 hletter

theorem readWord?_eq_none {c : Char} (h : isAsciiDigit c = true ∨ c = '-') (s : List Char) :
    readWord? (c :: s) = none := by
  have hnone : ∀ word : String,
      (∃ w ws, word.toList = w :: ws ∧ isAsciiDigit w = false ∧ w ≠ '-') →
        afterWord? word.toList (c :: s) = none := by
    rintro word ⟨w, ws, hword, hdigit, hminus⟩
    have hw : w ≠ c := by
      rintro rfl
      rcases h with h | h
      · exact absurd (hdigit.symm.trans h) Bool.false_ne_true
      · exact hminus h
    rw [hword, afterWord?, if_neg hw]
  simp only [readWord?, Option.orElse_eq_orElse, Option.orElse_eq_or, Option.or_eq_none_iff,
    Option.map_eq_none_iff]
  exact ⟨hnone _ ⟨'n', _, rfl, by decide, by decide⟩, hnone _ ⟨'t', _, rfl, by decide, by decide⟩,
    hnone _ ⟨'f', _, rfl, by decide, by decide⟩, hnone _ ⟨'N', _, rfl, by decide, by decide⟩,
    hnone _ ⟨'I', _, rfl, by decide, by decide⟩⟩

theorem ofInt_eq_cons (n : Int) : ∃ c cs, Text.ofInt n = c :: cs ∧
    (isAsciiDigit c = true ∨ c = '-') := by
  cases n with
  | ofNat m =>
    obtain ⟨c, cs, hcs⟩ := toDigits_eq_cons m
    refine ⟨c, cs, (Text.ofInt_natCast m).trans hcs, Or.inl ?_⟩
    exact isAsciiDigit_of_mem_toDigits (n := m) c (by simp [hcs])
  | negSucc m => exact ⟨'-', _, Text.ofInt_negSucc m, Or.inr rfl⟩

/-- A whole number that has been written is read back. -/
theorem readAtom_ofInt {rest : List Char} (hrest : EndsNumber rest) {n : Int}
    (h : Text.isWritable n = true) :
    ∃ hr, readAtom (Text.ofInt n ++ rest) = .ok (int n, ⟨rest, hr⟩) := by
  obtain ⟨c, cs, hcs, hc⟩ := ofInt_eq_cons n
  have hr : rest.length < (Text.ofInt n ++ rest).length := by
    rw [hcs, List.length_append, List.length_cons]
    omega
  have hword : readWord? (Text.ofInt n ++ rest) = none := by
    rw [hcs]
    exact readWord?_eq_none hc _
  refine ⟨hr, ?_⟩
  unfold readAtom
  split
  · next v r hsome =>
    rw [hword] at hsome
    cases hsome
  · rw [readNumber_ofInt hrest h]
    simp only [bind, Except.bind, List.drop_left]
    rw [dif_pos hr]
    rfl

/-! ### What is read -/

/-- A value that is neither a text nor a container, with a number that could be written again. A
floating number could be written as a whole one. -/
inductive IsAtom : Json → Prop where
  | null : IsAtom null
  | bool (b : Bool) : IsAtom (bool b)
  | int {n : Int} (h : Text.isWritable n = true) : IsAtom (int n)
  | float {x : Binary64} (h : x.IsModest) : IsAtom (float x)

theorem isAtom_of_readMagnitude {negative : Bool} {s : List Char} {v : Json} {n : Nat}
    (h : readMagnitude negative s = .ok (v, n)) : IsAtom v := by
  unfold readMagnitude at h
  extract_lets whole fraction fractionLength exponent value digits nearest exponentLength at h
  split at h
  · cases h
  split at h
  · split at h
    · cases h
    · next hlength =>
      cases h
      refine .int ((Text.isWritable_iff_natAbs _).2 ?_)
      have hlt : decimalValue whole < 10 ^ whole.length :=
        decimalValue_lt isAsciiDigit_of_mem_wholeDigits
      have hpow : 10 ^ whole.length ≤ 10 ^ Text.maxDigits :=
        Nat.pow_le_pow_right (by decide) (Nat.not_lt.1 hlength)
      cases negative with
      | true =>
        rw [if_pos rfl, Int.natAbs_neg, Int.natAbs_natCast]
        exact Nat.lt_of_lt_of_le hlt hpow
      | false =>
        rw [if_neg Bool.false_ne_true, Int.natAbs_natCast]
        exact Nat.lt_of_lt_of_le hlt hpow
  · cases h
    exact .float (Binary64.isModest_ofDecimal negative _ _)

theorem isAtom_of_readNumber {s : List Char} {v : Json} {n : Nat}
    (h : readNumber s = .ok (v, n)) : IsAtom v := by
  unfold readNumber at h
  split at h
  · split at h
    · cases h
      exact .float (Binary64.isModest_infinite true)
    · cases h
  · next cs _ =>
    cases hm : readMagnitude true cs with
    | error e =>
      rw [hm] at h
      cases h
    | ok p =>
      rw [hm] at h
      cases h
      exact isAtom_of_readMagnitude hm
  · exact isAtom_of_readMagnitude h

theorem isAtom_of_readWord? {s r : List Char} {v : Json} (h : readWord? s = some (v, r)) :
    IsAtom v := by
  simp only [readWord?, Option.orElse_eq_orElse, Option.orElse_eq_or, Option.or_eq_some_iff,
    Option.map_eq_some_iff, Prod.mk.injEq] at h
  rcases h with ⟨_, _, rfl, _⟩ | ⟨_, ⟨_, _, rfl, _⟩ | ⟨_, ⟨_, _, rfl, _⟩ |
    ⟨_, ⟨_, _, rfl, _⟩ | ⟨_, ⟨_, _, rfl, _⟩⟩⟩⟩⟩
  · exact .null
  · exact .bool true
  · exact .bool false
  · exact .float Binary64.isModest_nan
  · exact .float (Binary64.isModest_infinite false)

theorem isAtom_of_readAtom {s : List Char} {v : Json} {r : Shorter s}
    (h : readAtom s = .ok (v, r)) : IsAtom v := by
  unfold readAtom at h
  split at h
  · next hword =>
    cases h
    exact isAtom_of_readWord? hword
  · cases hn : readNumber s with
    | error e =>
      rw [hn] at h
      cases h
    | ok p =>
      rw [hn] at h
      simp only [bind, Except.bind] at h
      split at h
      · cases h
        exact isAtom_of_readNumber hn
      · cases h

end TodoLists.Json
