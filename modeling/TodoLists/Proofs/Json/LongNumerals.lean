import TodoLists.Proofs.Fault
import TodoLists.Proofs.Json.Grammar

/-!
# Numerals that are too long

The reader gives up in one of two ways: where the text is not JSON, or where it comes to a whole
number of too many digits. The second happens exactly when such a numeral stands in the text as a
value and everything before it can be read. What follows it does not matter, not even whether the
text goes on as JSON.
-/

namespace TodoLists.Json

/-- The digits of a whole number, more than can be read, with neither a fraction nor an exponent. -/
structure IsLongWhole (s : List Char) : Prop where
  digits : Text.maxDigits < (wholeDigits s).length
  fraction : fractionDigits (s.drop (wholeDigits s).length) = []
  exponent : exponentText (s.drop (wholeDigits s).length) = []

/-- A whole number of too many digits, perhaps with a minus sign. -/
def IsLongNumeral (s : List Char) : Prop := IsLongWhole s ∨ ∃ cs, s = '-' :: cs ∧ IsLongWhole cs

mutual

/-- A value begins the text, and the reader comes to too long a numeral in it. -/
inductive MeetsLong : List Char → Prop where
  | numeral {c : Char} {s r : List Char} (hs : Starts c s r) (h : IsLongNumeral (c :: r)) :
      MeetsLong s
  | array {s r : List Char} (hs : Starts '[' s r) (h : ElementsMeetLong r) : MeetsLong s
  | object {s r : List Char} (hs : Starts '{' s r) (h : MembersMeetLong r) : MeetsLong s

/-- The numeral stands in the first of the elements, or in one behind elements that can be read. -/
inductive ElementsMeetLong : List Char → Prop where
  | here {s : List Char} (h : MeetsLong s) : ElementsMeetLong s
  | later {s s₁ s₂ : List Char} {v : Json} (hv : ReadsValue s v s₁) (hcomma : Starts ',' s₁ s₂)
      (h : ElementsMeetLong s₂) : ElementsMeetLong s

/-- The numeral stands in the first of the members, or in one behind members that can be read. -/
inductive MembersMeetLong : List Char → Prop where
  | here {s s₁ s₂ s₃ : List Char} {name : LooseText} (hs : Starts '"' s s₁)
      (hname : ReadsText s₁ name s₂) (hcolon : Starts ':' s₂ s₃) (h : MeetsLong s₃) :
      MembersMeetLong s
  | later {s s₁ s₂ s₃ s₄ s₅ : List Char} {name : LooseText} {v : Json} (hs : Starts '"' s s₁)
      (hname : ReadsText s₁ name s₂) (hcolon : Starts ':' s₂ s₃) (hv : ReadsValue s₃ v s₄)
      (hcomma : Starts ',' s₄ s₅) (h : MembersMeetLong s₅) : MembersMeetLong s

end

/-! ### One numeral -/

theorem readMagnitude_eq_tooLong_iff (negative : Bool) {s : List Char} :
    readMagnitude negative s = .error .numeralTooLong ↔ IsLongWhole s := by
  constructor
  · intro h
    unfold readMagnitude at h
    extract_lets whole fraction fractionLength exponent value digits nearest exponentLength at h
    split at h
    · cases h
    split at h
    · next hnone =>
      obtain ⟨hfraction, hexponent⟩ := Bool.and_eq_true_iff.1 hnone
      split at h
      · next hlong =>
        have hlength : fractionLength = 0 := if_pos hfraction
        have hdrop : exponentText (s.drop (whole.length + fractionLength)) = [] :=
          List.isEmpty_iff.1 hexponent
        rw [hlength] at hdrop
        exact ⟨hlong, List.isEmpty_iff.1 hfraction, hdrop⟩
      · cases h
    · cases h
  · intro h
    have hne : (wholeDigits s).isEmpty = false :=
      List.isEmpty_eq_false_iff_exists_mem.2
        (List.length_pos_iff_exists_mem.1 (Nat.lt_of_le_of_lt (Nat.zero_le _) h.digits))
    unfold readMagnitude
    simp only [h.fraction, hne, h.exponent, List.isEmpty_nil, if_true, Nat.add_zero, Bool.and_self,
      Bool.false_eq_true, if_false, h.digits]

/-- A long numeral begins with a digit. -/
theorem IsLongWhole.exists_cons {s : List Char} (h : IsLongWhole s) :
    ∃ c r, s = c :: r ∧ isAsciiDigit c = true := by
  cases s with
  | nil =>
    have hdigits := h.digits
    exact absurd hdigits (by decide)
  | cons c r =>
    refine ⟨c, r, rfl, ?_⟩
    by_cases hzero : c = '0'
    · rw [hzero]
      decide
    · by_contra hc
      have hwhole : wholeDigits (c :: r) = [] := by
        rw [wholeDigits_of_head? (by simpa using hzero), List.takeWhile_cons_of_neg hc]
      have hdigits := h.digits
      rw [hwhole] at hdigits
      exact absurd hdigits (by decide)

theorem IsLongNumeral.exists_cons {s : List Char} (h : IsLongNumeral s) :
    ∃ c r, s = c :: r ∧ (isAsciiDigit c = true ∨ c = '-') := by
  rcases h with h | ⟨cs, rfl, -⟩
  · obtain ⟨c, r, rfl, hc⟩ := h.exists_cons
    exact ⟨c, r, rfl, Or.inl hc⟩
  · exact ⟨'-', cs, rfl, Or.inr rfl⟩

theorem readNumber_eq_tooLong_iff {s : List Char} :
    readNumber s = .error .numeralTooLong ↔ IsLongNumeral s := by
  constructor
  · intro h
    unfold readNumber at h
    split at h
    · split at h <;> cases h
    · next cs _ =>
      exact Or.inr ⟨cs, rfl, (readMagnitude_eq_tooLong_iff true).1 (eq_error_of_map_eq_error h)⟩
    · exact Or.inl ((readMagnitude_eq_tooLong_iff false).1 h)
  · intro h
    rcases h with h | ⟨cs, rfl, h⟩
    · obtain ⟨c, r, rfl, hc⟩ := h.exists_cons
      have hminus : c ≠ '-' := by
        rintro rfl
        exact absurd hc (by decide)
      have hread := (readMagnitude_eq_tooLong_iff false).2 h
      unfold readNumber
      split
      · next heq => exact absurd (List.cons.inj heq).1 hminus
      · next heq => exact absurd (List.cons.inj heq).1 hminus
      · exact hread
    · obtain ⟨c, r, rfl, hc⟩ := h.exists_cons
      have hread := (readMagnitude_eq_tooLong_iff true).2 h
      unfold readNumber
      split
      · next heq =>
        obtain ⟨-, hcr⟩ := List.cons.inj heq
        obtain ⟨rfl, -⟩ := List.cons.inj hcr
        exact absurd hc (by decide)
      · next heq =>
        obtain ⟨-, rfl⟩ := List.cons.inj heq
        rw [hread]
        rfl
      · next hno => exact absurd rfl (hno _)

theorem plain_readAtom_eq_tooLong_iff {s : List Char} :
    plain (readAtom s) = .error .numeralTooLong ↔ IsLongNumeral s := by
  rw [← readNumber_eq_tooLong_iff]
  constructor
  · intro h
    have h := eq_error_of_map_eq_error h
    unfold readAtom at h
    split at h
    · cases h
    · rcases cases_of_bind_eq_error h with hnumber | ⟨⟨v, n⟩, -, h⟩
      · exact hnumber
      · by_cases hlt : (s.drop n).length < s.length
        · simp only [dif_pos hlt] at h
          cases h
        · simp only [dif_neg hlt] at h
          cases h
  · intro h
    obtain ⟨c, r, rfl, hc⟩ := (readNumber_eq_tooLong_iff.1 h).exists_cons
    unfold readAtom
    split
    · next hword =>
      rw [readWord?_eq_none hc] at hword
      cases hword
    · rw [h]
      rfl

/-! ### Other faults -/

theorem expect_eq_error {c : Char} {s : List Char} {e : ReadError} (h : expect c s = .error e) :
    e = .malformed := by
  unfold expect at h
  split at h
  · split at h
    · cases h
    · exact (Except.error.inj h).symm
  · exact (Except.error.inj h).symm

theorem plain_readText_ne_tooLong {s : List Char} :
    plain (readText s) ≠ .error .numeralTooLong := by
  intro h
  have h := eq_error_of_map_eq_error h
  unfold readText at h
  split at h <;> cases h

/-! ### The reader stops at these numerals -/

theorem IsLongNumeral.ne {c d : Char} {r : List Char} (h : IsLongNumeral (c :: r))
    (hd : isAsciiDigit d = false ∧ d ≠ '-') : c ≠ d := by
  rintro rfl
  obtain ⟨c', r', heq, hc⟩ := h.exists_cons
  obtain ⟨rfl, rfl⟩ := List.cons.inj heq
  rcases hc with hc | hc
  · exact absurd (hd.1.symm.trans hc) Bool.false_ne_true
  · exact hd.2 hc

theorem MeetsLong.not_starts_bracket {s : List Char} (h : MeetsLong s) :
    ∀ r, ¬ Starts ']' s r := by
  cases h with
  | numeral hs h => exact hs.not_starts (h.ne (by decide)).symm
  | array hs | object hs => exact hs.not_starts (by decide)

theorem ElementsMeetLong.not_starts_bracket {s : List Char} (h : ElementsMeetLong s) :
    ∀ r, ¬ Starts ']' s r := by
  cases h with
  | here h => exact h.not_starts_bracket
  | later hv => exact hv.not_starts_bracket

theorem MembersMeetLong.starts_quote {s : List Char} (h : MembersMeetLong s) :
    ∃ r, Starts '"' s r := by
  cases h with
  | here hs | later hs => exact ⟨_, hs⟩

mutual

theorem MeetsLong.eq_error {s : List Char} :
    MeetsLong s → plain (readValue s) = .error .numeralTooLong
  | .numeral hs h => by
    rw [plain_readValue hs, if_neg (h.ne (by decide)), if_neg (h.ne (by decide)),
      if_neg (h.ne (by decide))]
    exact plain_readAtom_eq_tooLong_iff.2 h
  | .array hs h => by
    obtain ⟨e, he⟩ := expect_of_not_starts h.not_starts_bracket
    rw [plain_readValue hs, if_neg (by decide), if_pos rfl, he, h.eq_error]
    rfl
  | .object hs h => by
    obtain ⟨_, hquote⟩ := h.starts_quote
    obtain ⟨e, he⟩ := expect_of_not_starts (hquote.not_starts (d := '}') (by decide))
    rw [plain_readValue hs, if_neg (by decide), if_neg (by decide), if_pos rfl, he, h.eq_error]
    rfl

theorem ElementsMeetLong.eq_error {s : List Char} :
    ElementsMeetLong s → plain (readElements s) = .error .numeralTooLong
  | .here h => by
    rw [plain_readElements, h.eq_error]
    rfl
  | .later hv hcomma h => by
    obtain ⟨e, he⟩ := expect_of_not_starts (hcomma.not_starts (d := ']') (by decide))
    simp only [plain_readElements, hv.eq_ok, Except.bind, he, expect_of_starts hcomma, h.eq_error,
      Except.map]

theorem MembersMeetLong.eq_error {s : List Char} :
    MembersMeetLong s → plain (readMembers s) = .error .numeralTooLong
  | .here hs hname hcolon h => by
    rw [ReadsText] at hname
    simp only [plain_readMembers, expect_of_starts hs, Except.bind, hname,
      expect_of_starts hcolon, h.eq_error]
  | .later hs hname hcolon hv hcomma h => by
    obtain ⟨e, he⟩ := expect_of_not_starts (hcomma.not_starts (d := '}') (by decide))
    rw [ReadsText] at hname
    simp only [plain_readMembers, expect_of_starts hs, Except.bind, hname,
      expect_of_starts hcolon, hv.eq_ok, he, expect_of_starts hcomma, h.eq_error, Except.map]

end

/-! ### The reader stops nowhere else -/

/-- What is said about the parts of all shorter texts. -/
structure StopsShorter (n : Nat) : Prop where
  elements : ∀ s, s.length < n →
    plain (readElements s) = .error .numeralTooLong → ElementsMeetLong s
  members : ∀ s, s.length < n →
    plain (readMembers s) = .error .numeralTooLong → MembersMeetLong s

theorem meetsLong_of_shorter {s : List Char} (ih : StopsShorter s.length)
    (h : plain (readValue s) = .error .numeralTooLong) : MeetsLong s := by
  cases hs : skipSpace s with
  | nil =>
    rw [readValue] at h
    split at h
    · cases h
    · next c r he => exact absurd (hs.symm.trans he) (List.cons_ne_nil c r).symm
  | cons c r =>
    have hs : Starts c s r := hs
    rw [plain_readValue hs] at h
    split at h
    · exact absurd (eq_error_of_map_eq_error h) plain_readText_ne_tooLong
    split at h
    · next hc =>
      split at h
      · cases h
      · exact .array (hc ▸ hs) (ih.elements r hs.length_lt (eq_error_of_map_eq_error h))
    split at h
    · next hc =>
      split at h
      · cases h
      · exact .object (hc ▸ hs) (ih.members r hs.length_lt (eq_error_of_map_eq_error h))
    · exact .numeral hs (plain_readAtom_eq_tooLong_iff.1 h)

theorem elementsMeetLong_of_shorter {s : List Char} (ih : StopsShorter s.length)
    (h : plain (readElements s) = .error .numeralTooLong) : ElementsMeetLong s := by
  rw [plain_readElements] at h
  rcases cases_of_bind_eq_error h with hv | ⟨⟨v, s₁⟩, hv, h⟩
  · exact .here (meetsLong_of_shorter ih hv)
  have h₁ := length_lt_of_plain hv
  simp only at h
  split at h
  · cases h
  · rcases cases_of_bind_eq_error h with hcomma | ⟨⟨s₂, h₂⟩, hcomma, h⟩
    · cases expect_eq_error hcomma
    · exact .later (plain_readValue_eq_ok_iff.1 hv) (starts_of_expect hcomma)
        (ih.elements s₂ (Nat.lt_trans h₂ h₁) (eq_error_of_map_eq_error h))

theorem membersMeetLong_of_shorter {s : List Char} (ih : StopsShorter s.length)
    (h : plain (readMembers s) = .error .numeralTooLong) : MembersMeetLong s := by
  rw [plain_readMembers] at h
  rcases cases_of_bind_eq_error h with hs | ⟨⟨s₁, h₁⟩, hs, h⟩
  · cases expect_eq_error hs
  rcases cases_of_bind_eq_error h with hname | ⟨⟨name, s₂⟩, hname, h⟩
  · exact absurd hname plain_readText_ne_tooLong
  rcases cases_of_bind_eq_error h with hcolon | ⟨⟨s₃, h₃⟩, hcolon, h⟩
  · cases expect_eq_error hcolon
  have hs := starts_of_expect hs
  have hcolon := starts_of_expect hcolon
  have h₂ : s₂.length < s₁.length := length_lt_of_plain hname
  have h₃ : s₃.length < s₂.length := h₃
  have hlt : s₃.length ≤ s.length := by omega
  rcases cases_of_bind_eq_error h with hv | ⟨⟨v, s₄⟩, hv, h⟩
  · exact .here hs hname hcolon (meetsLong_of_shorter
      ⟨fun t ht => ih.elements t (Nat.lt_of_lt_of_le ht hlt),
        fun t ht => ih.members t (Nat.lt_of_lt_of_le ht hlt)⟩ hv)
  have h₄ : s₄.length < s₃.length := length_lt_of_plain hv
  simp only at h
  split at h
  · cases h
  · rcases cases_of_bind_eq_error h with hcomma | ⟨⟨s₅, h₅⟩, hcomma, h⟩
    · cases expect_eq_error hcomma
    · exact .later hs hname hcolon (plain_readValue_eq_ok_iff.1 hv) (starts_of_expect hcomma)
        (ih.members s₅ (by omega) (eq_error_of_map_eq_error h))

theorem stopsShorter (n : Nat) : StopsShorter n := by
  induction n with
  | zero => exact ⟨fun _ h => absurd h (Nat.not_lt_zero _), fun _ h => absurd h (Nat.not_lt_zero _)⟩
  | succ n ih =>
    have hmono : ∀ s : List Char, s.length < n + 1 → StopsShorter s.length := fun s hs =>
      ⟨fun t ht => ih.elements t (by omega), fun t ht => ih.members t (by omega)⟩
    exact ⟨fun s hs h => elementsMeetLong_of_shorter (hmono s hs) h,
      fun s hs h => membersMeetLong_of_shorter (hmono s hs) h⟩

/-- The reader gives up over a numeral exactly if it comes to one that is too long. -/
theorem read_eq_tooLong_iff {text : String} :
    read text = .error .numeralTooLong ↔ MeetsLong text.toList := by
  constructor
  · intro h
    refine meetsLong_of_shorter (stopsShorter _) ?_
    rcases cases_of_bind_eq_error h with hvalue | ⟨⟨v, rest⟩, -, h⟩
    · rw [hvalue]
      rfl
    · simp only at h
      split at h <;> cases h
  · intro h
    have hvalue := eq_error_of_map_eq_error h.eq_error
    rw [read, hvalue]
    rfl

end TodoLists.Json
