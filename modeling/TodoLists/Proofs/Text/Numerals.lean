import TodoLists.Text.Numeral
import Mathlib.Data.Nat.Digits.Defs

/-!
# What numerals mean

A numeral that comes out of a query is an optional sign and digits, with nothing around or between
them. It is read as the number that the digits stand for in the decimal system, and it is refused
when it has no digit or too many. A number that can be written is read back.
-/

namespace TodoLists.Text

/-- An optional sign and digits, possibly none. -/
def IsSigned (n : List Char) : Prop :=
  ∃ sign digits, n = sign ++ digits ∧ (sign = [] ∨ sign = ['+'] ∨ sign = ['-']) ∧
    ∀ c ∈ digits, isDigit c = true

/-- The digits, at least one, are those of the number in the decimal system. -/
def IsDecimal (digits : List Char) (n : Nat) : Prop :=
  ∃ values : List Nat, values ≠ [] ∧ digits.map digitValue? = values.map some ∧
    n = Nat.ofDigits 10 values.reverse

/-- A decimal number, perhaps with a sign. -/
inductive IsNumeral : List Char → Int → Prop where
  | unsigned {digits : List Char} {n : Nat} (h : IsDecimal digits n) : IsNumeral digits n
  | plus {digits : List Char} {n : Nat} (h : IsDecimal digits n) : IsNumeral ('+' :: digits) n
  | minus {digits : List Char} {n : Nat} (h : IsDecimal digits n) : IsNumeral ('-' :: digits) (-n)

/-- A numeral that is not too long to be read. -/
def IsReadable (s : List Char) (n : Int) : Prop := IsNumeral s n ∧ s.countP isDigit ≤ maxDigits

/-! ### Digits and blanks -/

/-- The code points of the blank characters. -/
def blankPoints : List Nat :=
  [9, 10, 11, 12, 13, 28, 29, 30, 31, 32, 0x85, 0xa0, 0x1680, 0x2000, 0x2001, 0x2002, 0x2003,
    0x2004, 0x2005, 0x2006, 0x2007, 0x2008, 0x2009, 0x200a, 0x2028, 0x2029, 0x202f, 0x205f, 0x3000]

theorem toNat_mem_blankPoints {c : Char} (h : isBlank c = true) : c.toNat ∈ blankPoints := by
  simp only [isBlank, Bool.or_eq_true, Bool.and_eq_true, decide_eq_true_eq, beq_iff_eq] at h
  simp only [blankPoints, List.mem_cons, List.not_mem_nil, or_false]
  omega

theorem isDigit_eq_false_of_isBlank {c : Char} (h : isBlank c = true) :
    isDigit c = false := by
  have hnone : ∀ n ∈ blankPoints, (digitZeros.find? fun z => z ≤ n && n < z + 10) = none := by
    decide +kernel
  rw [isDigit, digitValue?, hnone _ (toNat_mem_blankPoints h)]
  rfl

/-! ### Reading -/

theorem trim_eq_self {p : Char → Bool} {s : List Char} (h : ∀ c ∈ s, p c = false) :
    trim p s = s := by
  have hdrop : ∀ t : List Char, (∀ c ∈ t, p c = false) → t.dropWhile p = t := by
    intro t ht
    cases t with
    | nil => rfl
    | cons c cs => rw [List.dropWhile_cons_of_neg (by simp [ht c List.mem_cons_self])]
  rw [trim, hdrop s h, hdrop s.reverse (by simpa using h), List.reverse_reverse]

theorem isBlank_eq_false_of_isDigit {c : Char} (h : isDigit c = true) : isBlank c = false := by
  by_contra hblank
  rw [Bool.not_eq_false] at hblank
  rw [isDigit_eq_false_of_isBlank hblank] at h
  exact Bool.false_ne_true h

theorem isWhiteSpace_of_isSigned {s : List Char} (h : IsSigned s) :
    ∀ c ∈ s, isWhiteSpace c = false := by
  obtain ⟨sign, digits, rfl, hsign, hdigits⟩ := h
  intro c hc
  rw [isWhiteSpace, Bool.and_eq_false_iff]
  left
  rcases List.mem_append.1 hc with hc | hc
  · rcases hsign with rfl | rfl | rfl
    · exact absurd hc List.not_mem_nil
    · rw [List.mem_singleton.1 hc]
      decide
    · rw [List.mem_singleton.1 hc]
      decide
  · exact isBlank_eq_false_of_isDigit (hdigits c hc)

theorem exists_map_digitValue? {digits : List Char} (h : ∀ c ∈ digits, isDigit c = true) :
    ∃ values : List Nat, digits.map digitValue? = values.map some := by
  induction digits with
  | nil => exact ⟨[], rfl⟩
  | cons c cs ih =>
    obtain ⟨v, hv⟩ := Option.isSome_iff_exists.1 (h c List.mem_cons_self)
    obtain ⟨vs, hvs⟩ := ih fun x hx => h x (List.mem_cons_of_mem c hx)
    exact ⟨v :: vs, by rw [List.map_cons, List.map_cons, hv, hvs]⟩

theorem digitValues?_eq {digits : List Char} {values : List Nat} (hne : values ≠ [])
    (h : digits.map digitValue? = values.map some) : digitValues? digits = some values := by
  induction digits generalizing values with
  | nil => exact absurd (List.map_eq_nil_iff.1 h.symm) hne
  | cons c cs ih =>
    obtain ⟨v, vs, rfl⟩ := List.exists_cons_of_ne_nil hne
    rw [List.map_cons, List.map_cons, List.cons.injEq] at h
    obtain ⟨hc, hcs⟩ := h
    cases cs with
    | nil =>
      rw [List.map_nil, eq_comm, List.map_eq_nil_iff] at hcs
      rw [digitValues?, hc, hcs]
      rfl
    | cons d ds =>
      have hvs : vs ≠ [] := by
        rintro rfl
        exact absurd hcs (List.cons_ne_nil _ _)
      have hd : d ≠ '_' := by
        rintro rfl
        obtain ⟨w, ws, rfl⟩ := List.exists_cons_of_ne_nil hvs
        rw [List.map_cons, List.map_cons, List.cons.injEq] at hcs
        exact absurd hcs.1 (by rw [show digitValue? '_' = none by decide]; exact nofun)
      rw [digitValues?, hc, ih hvs hcs]
      · rfl
      · simp
      · intro x hx
        exact hd (List.cons.inj hx).1

theorem ofDigitValues_eq (values : List Nat) :
    ofDigitValues values = Nat.ofDigits 10 values.reverse := by
  rw [ofDigitValues, Nat.ofDigits_eq_foldr, List.foldr_reverse]
  simp only [Nat.cast_id, Nat.add_comm]

/-- Digits are read as the number they stand for, unless there are too many of them. -/
theorem readNat?_eq_some_iff {digits : List Char} {n : Nat}
    (h : ∀ c ∈ digits, isDigit c = true) :
    readNat? digits = some n ↔ IsDecimal digits n ∧ digits.length ≤ maxDigits := by
  obtain ⟨values, hvalues⟩ := exists_map_digitValue? h
  have hlength : digits.length = values.length := by
    simpa using congrArg List.length hvalues
  have hdecimal : IsDecimal digits n ↔ values ≠ [] ∧ n = Nat.ofDigits 10 values.reverse := by
    constructor
    · rintro ⟨vs, hne, hvs, rfl⟩
      rw [hvalues, List.map_inj_right fun _ _ => Option.some.inj] at hvs
      subst hvs
      exact ⟨hne, rfl⟩
    · rintro ⟨hne, rfl⟩
      exact ⟨values, hne, hvalues, rfl⟩
  rw [hdecimal, readNat?]
  by_cases hne : values = []
  · subst hne
    obtain rfl := List.length_eq_zero_iff.1 hlength
    simp [digitValues?]
  · rw [digitValues?_eq hne hvalues, hlength]
    simp only [Option.bind_eq_bind, Option.bind_some, ofDigitValues_eq]
    by_cases hlong : values.length ≤ maxDigits
    · rw [if_pos hlong, Option.some.injEq]
      exact ⟨fun h => ⟨⟨hne, h.symm⟩, hlong⟩, fun h => h.1.2.symm⟩
    · rw [if_neg hlong]
      exact ⟨nofun, fun h => absurd h.2 hlong⟩

theorem map_readNat?_eq_some_iff {digits : List Char} {g : Nat → Int} {n : Int}
    (h : ∀ c ∈ digits, isDigit c = true) : (readNat? digits).map g = some n ↔
      ∃ m, IsDecimal digits m ∧ digits.length ≤ maxDigits ∧ g m = n := by
  simp only [Option.map_eq_some_iff, readNat?_eq_some_iff h, and_assoc]

theorem IsDecimal.isDigit {digits : List Char} {n : Nat} (h : IsDecimal digits n) :
    ∀ c ∈ digits, isDigit c = true := by
  obtain ⟨values, -, hvalues, -⟩ := h
  intro c hc
  have hmem : digitValue? c ∈ values.map some := by
    rw [← hvalues]
    exact List.mem_map_of_mem hc
  obtain ⟨v, -, hv⟩ := List.mem_map.1 hmem
  rw [Text.isDigit, ← hv]
  rfl

theorem isSigned_of_isNumeral {s : List Char} {n : Int} (h : IsNumeral s n) : IsSigned s := by
  cases h with
  | unsigned h => exact ⟨[], s, rfl, Or.inl rfl, h.isDigit⟩
  | @plus digits _ h => exact ⟨['+'], digits, rfl, Or.inr (Or.inl rfl), h.isDigit⟩
  | @minus digits _ h => exact ⟨['-'], digits, rfl, Or.inr (Or.inr rfl), h.isDigit⟩

/-- A numeral without sign does not begin with one. -/
theorem readSigned?_of_isDigit {digits : List Char} (h : ∀ c ∈ digits, isDigit c = true) :
    readSigned? digits = (readNat? digits).map Int.ofNat := by
  unfold readSigned?
  split
  · exact absurd (h '+' List.mem_cons_self) (by decide)
  · exact absurd (h '-' List.mem_cons_self) (by decide)
  · rfl

theorem readSigned?_minus (digits : List Char) :
    readSigned? ('-' :: digits) = (readNat? digits).map fun n : Nat => -(n : Int) := by
  rw [readSigned?]
  cases readNat? digits <;> rfl

theorem readSigned?_eq_some_iff {s : List Char} {n : Int} (h : IsSigned s) :
    readSigned? s = some n ↔ IsReadable s n := by
  obtain ⟨sign, digits, rfl, hsign, hdigits⟩ := h
  have hcount : digits.countP isDigit = digits.length := List.countP_eq_length.2 hdigits
  have hplus : isDigit '+' = false := by decide
  have hminus : isDigit '-' = false := by decide
  rw [IsReadable]
  rcases hsign with rfl | rfl | rfl
  · rw [List.nil_append, readSigned?_of_isDigit hdigits, map_readNat?_eq_some_iff hdigits, hcount]
    constructor
    · rintro ⟨m, hm, hlength, rfl⟩
      exact ⟨.unsigned hm, hlength⟩
    · rintro ⟨hnumeral, hlength⟩
      cases hnumeral with
      | unsigned hm => exact ⟨_, hm, hlength, rfl⟩
      | plus => exact absurd (hdigits '+' List.mem_cons_self) (by decide)
      | minus => exact absurd (hdigits '-' List.mem_cons_self) (by decide)
  · rw [List.singleton_append, readSigned?, map_readNat?_eq_some_iff hdigits, List.countP_cons,
      hcount, hplus]
    constructor
    · rintro ⟨m, hm, hlength, rfl⟩
      exact ⟨.plus hm, hlength⟩
    · rintro ⟨hnumeral, hlength⟩
      cases hnumeral with
      | unsigned hm => exact absurd (hm.isDigit '+' List.mem_cons_self) (by decide)
      | plus hm => exact ⟨_, hm, hlength, rfl⟩
  · rw [List.singleton_append, readSigned?_minus, map_readNat?_eq_some_iff hdigits,
      List.countP_cons, hcount, hminus]
    constructor
    · rintro ⟨m, hm, hlength, rfl⟩
      exact ⟨.minus hm, hlength⟩
    · rintro ⟨hnumeral, hlength⟩
      cases hnumeral with
      | unsigned hm => exact absurd (hm.isDigit '-' List.mem_cons_self) (by decide)
      | minus hm => exact ⟨_, hm, hlength, rfl⟩

/-- Reading a numeral of a query. -/
theorem readInt?_eq_some_iff {s : List Char} {n : Int} (h : IsSigned s) :
    readInt? s = some n ↔ IsReadable s n := by
  rw [readInt?, trim_eq_self (isWhiteSpace_of_isSigned h), readSigned?_eq_some_iff h]

/-! ### Writing -/

theorem digitValue?_digitChar {d : Nat} (h : d < 10) : digitValue? d.digitChar = some d := by
  have hall : ∀ d < 10, digitValue? (Nat.digitChar d) = some d := by decide
  exact hall d h

theorem isDecimal_toDigits (n : Nat) : IsDecimal (Nat.toDigits 10 n) n := by
  induction n using Nat.strong_induction_on with
  | _ n ih =>
    by_cases hn : n < 10
    · rw [Nat.toDigits_of_lt_base hn]
      refine ⟨[n], List.cons_ne_nil n [], ?_, ?_⟩
      · rw [List.map_singleton, List.map_singleton, digitValue?_digitChar hn]
      · rw [List.reverse_singleton, Nat.ofDigits_singleton]
    · have hlast : n % 10 < 10 := Nat.mod_lt n (by decide)
      obtain ⟨values, -, hvalues, hdiv⟩ := ih (n / 10) (by omega)
      rw [Nat.toDigits_of_base_le (by decide) (by omega)]
      refine ⟨values ++ [n % 10], by simp, ?_, ?_⟩
      · rw [List.map_append, List.map_append, hvalues, List.map_singleton, List.map_singleton,
          digitValue?_digitChar hlast]
      · rw [List.reverse_append, List.reverse_singleton, List.singleton_append, Nat.ofDigits_cons,
          ← hdiv]
        omega

theorem ofInt_natCast (n : Nat) : ofInt n = Nat.toDigits 10 n := Nat.toList_repr

theorem ofInt_negSucc (n : Nat) : ofInt (Int.negSucc n) = '-' :: Nat.toDigits 10 (n + 1) := by
  rw [← Nat.toList_repr, ofInt]
  exact String.toList_append

theorem toDigits_injective {m n : Nat} (h : Nat.toDigits 10 m = Nat.toDigits 10 n) : m = n := by
  rw [← Nat.ofDigitChars_ten_toDigits (n := m), h, Nat.ofDigitChars_ten_toDigits]

theorem minus_not_mem_toDigits (n : Nat) : '-' ∉ Nat.toDigits 10 n :=
  fun hmem => absurd ((isDecimal_toDigits n).isDigit '-' hmem) (by decide)

theorem ofInt_injective {m n : Int} (h : ofInt m = ofInt n) : m = n := by
  cases m with
  | ofNat m =>
    cases n with
    | ofNat n =>
      rw [Int.ofNat_eq_natCast, Int.ofNat_eq_natCast, ofInt_natCast, ofInt_natCast] at h
      rw [toDigits_injective h]
    | negSucc n =>
      rw [Int.ofNat_eq_natCast, ofInt_natCast, ofInt_negSucc] at h
      exact absurd (h ▸ List.mem_cons_self) (minus_not_mem_toDigits m)
  | negSucc m =>
    cases n with
    | ofNat n =>
      rw [Int.ofNat_eq_natCast, ofInt_natCast, ofInt_negSucc] at h
      exact absurd (h ▸ List.mem_cons_self) (minus_not_mem_toDigits n)
    | negSucc n =>
      rw [ofInt_negSucc, ofInt_negSucc] at h
      rw [Int.negSucc_inj]
      exact Nat.succ_injective (toDigits_injective (List.cons.inj h).2)

theorem countP_isDigit_ofInt (n : Int) :
    (ofInt n).countP isDigit = (Nat.toDigits 10 n.natAbs).length := by
  have hdigits (m : Nat) : (Nat.toDigits 10 m).countP isDigit = (Nat.toDigits 10 m).length :=
    List.countP_eq_length.2 (isDecimal_toDigits m).isDigit
  cases n with
  | ofNat m => exact (congrArg _ (ofInt_natCast m)).trans (hdigits m)
  | negSucc m =>
    rw [ofInt_negSucc, List.countP_cons_of_neg (by decide)]
    exact hdigits (m + 1)

theorem isWritable_iff_length (n : Int) :
    isWritable n = true ↔ (Nat.toDigits 10 n.natAbs).length ≤ maxDigits := by
  rw [isWritable, decide_eq_true_eq, countP_isDigit_ofInt]

theorem isWritable_iff_natAbs (n : Int) : isWritable n = true ↔ n.natAbs < 10 ^ maxDigits := by
  rw [isWritable_iff_length]
  exact Nat.length_toDigits_le_iff (by decide) (by decide)

/-- The first number that has one digit too many. -/
theorem isWritable_ten_pow : isWritable ((10 ^ maxDigits : Nat) : Int) = false := by
  rw [Bool.eq_false_iff, Ne, isWritable_iff_natAbs, Int.natAbs_natCast]
  exact Nat.lt_irrefl _

/-! ### What is read can be written -/

theorem lt_ten_of_mem_digitValues? {s : List Char} {ds : List Nat} (h : digitValues? s = some ds) :
    ∀ d ∈ ds, d < 10 := by
  have hcons : ∀ {c : Char} {cs : List Char} {ds : List Nat},
      (∀ es, digitValues? cs = some es → ∀ d ∈ es, d < 10) →
      (do return (← digitValue? c) :: (← digitValues? cs)) = some ds → ∀ d ∈ ds, d < 10 := by
    intro c cs ds ih h
    obtain ⟨d, hd, es, hes, rfl⟩ : ∃ d, digitValue? c = some d ∧ ∃ es, digitValues? cs = some es ∧
        d :: es = ds := by simpa [Option.bind_eq_some_iff] using h
    exact List.forall_mem_cons.2 ⟨digitValue?_lt hd, ih es hes⟩
  fun_induction digitValues? s generalizing ds with
  | case1 => cases h
  | case2 c =>
    obtain ⟨d, hd, rfl⟩ := Option.map_eq_some_iff.1 h
    exact List.forall_mem_singleton.2 (digitValue?_lt hd)
  | case3 c cs ih => exact hcons (fun es hes => ih hes) h
  | case4 c cs _ _ ih => exact hcons (fun es hes => ih hes) h

theorem lt_pow_of_readNat? {s : List Char} {n : Nat} (h : readNat? s = some n) :
    n < 10 ^ maxDigits := by
  obtain ⟨ds, hds, h⟩ := Option.bind_eq_some_iff.1 h
  split at h
  · next hlength =>
    cases h
    rw [ofDigitValues_eq]
    have hlt : Nat.ofDigits 10 ds.reverse < 10 ^ ds.reverse.length :=
      Nat.ofDigits_lt_base_pow_length (by decide)
        fun d hd => lt_ten_of_mem_digitValues? hds d (List.mem_reverse.1 hd)
    rw [List.length_reverse] at hlt
    exact Nat.lt_of_lt_of_le hlt (Nat.pow_le_pow_right (by decide) hlength)
  · cases h

/-- A number that was read from a numeral can be written as one. -/
theorem isWritable_of_readInt? {s : List Char} {n : Int} (h : readInt? s = some n) :
    isWritable n = true := by
  have hmap : ∀ {cs : List Char} {g : Nat → Int}, (∀ m, (g m).natAbs = m) →
      (readNat? cs).map g = some n → isWritable n = true := by
    intro cs g hg h
    obtain ⟨m, hm, rfl⟩ := Option.map_eq_some_iff.1 h
    rw [isWritable_iff_natAbs, hg]
    exact lt_pow_of_readNat? hm
  rw [readInt?] at h
  unfold readSigned? at h
  split at h
  · exact hmap Int.natAbs_natCast h
  · exact hmap (fun m => (Int.natAbs_neg _).trans (Int.natAbs_natCast m))
      ((readSigned?_minus _).symm.trans h)
  · exact hmap Int.natAbs_natCast h

/-! ### What is written can be read -/

theorem isNumeral_ofInt (n : Int) : IsNumeral (ofInt n) n := by
  cases n with
  | ofNat m =>
    rw [Int.ofNat_eq_natCast, ofInt_natCast]
    exact .unsigned (isDecimal_toDigits m)
  | negSucc m =>
    rw [ofInt_negSucc]
    exact .minus (isDecimal_toDigits (m + 1))

/-- What is written can be read exactly when the number has few enough digits. -/
theorem isReadable_ofInt_iff (n : Int) : IsReadable (ofInt n) n ↔ isWritable n = true := by
  rw [IsReadable, isWritable, decide_eq_true_eq, and_iff_right (isNumeral_ofInt n)]

end TodoLists.Text
