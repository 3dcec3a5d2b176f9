import TodoLists.Binary64
import TodoLists.Proofs.Text.Numerals

/-!
# How large numbers are

A number that is read from a decimal numeral is at most a little above the largest one there is. So
what is left of it when its fraction is cut off has a numeral that is not too long.
-/

namespace TodoLists.Binary64

/-- Cut off at the point, the number has a numeral that can be written. -/
def IsModest (x : Binary64) : Prop := ∀ n, x.truncate? = some n → Text.isWritable n = true

theorem isModest_nan : nan.IsModest := nofun

theorem isModest_infinite (negative : Bool) : (infinite negative).IsModest := nofun

theorem isModest_finite {negative : Bool} {m : Nat} {e : Int}
    (h : magnitude m e < 10 ^ Text.maxDigits) : (finite negative m e).IsModest := by
  rintro n ⟨⟩
  rw [Text.isWritable_iff_natAbs]
  cases negative with
  | true => rwa [if_pos rfl, Int.natAbs_neg, Int.natAbs_natCast]
  | false => rwa [if_neg Bool.false_ne_true, Int.natAbs_natCast]

/-! ### Rounding a quotient -/

theorem roundDiv_le (a b : Nat) : roundDiv a b ≤ a / b + 1 := by
  simp only [roundDiv]
  split <;> omega

theorem magnitude_le (m : Nat) (e : Int) : magnitude m e ≤ m * 2 ^ e.toNat := by
  rw [magnitude]
  split
  · exact Nat.le_refl _
  · exact (Nat.div_le_self _ _).trans (Nat.le_mul_of_pos_right _ (Nat.two_pow_pos _))

/-- Rounding adds at most one unit of the last place. -/
theorem magnitude_scaledDiv_le (a b : Nat) (e : Int) :
    magnitude (scaledDiv a b (-e)) e ≤ a / b + 2 ^ e.toNat := by
  have hpos : ∀ k, 0 < 2 ^ k := Nat.two_pow_pos
  by_cases he : 0 < e
  · have hround := roundDiv_le a (b * 2 ^ e.toNat)
    rw [magnitude, if_pos he.le, scaledDiv, if_neg (by omega), neg_neg]
    calc roundDiv a (b * 2 ^ e.toNat) * 2 ^ e.toNat
        ≤ (a / b / 2 ^ e.toNat + 1) * 2 ^ e.toNat := by
          rw [Nat.div_div_eq_div_mul]
          exact Nat.mul_le_mul_right _ hround
      _ = a / b / 2 ^ e.toNat * 2 ^ e.toNat + 2 ^ e.toNat := Nat.succ_mul _ _
      _ ≤ a / b + 2 ^ e.toNat := Nat.add_le_add_right (Nat.div_mul_le_self _ _) _
  · obtain ⟨k, rfl⟩ : ∃ k : Nat, e = -k := ⟨e.natAbs, by omega⟩
    have hround := roundDiv_le (a * 2 ^ k) b
    have hcut : magnitude (roundDiv (a * 2 ^ k) b) (-k) = roundDiv (a * 2 ^ k) b / 2 ^ k := by
      rw [magnitude]
      split
      · obtain rfl : k = 0 := by omega
        simp
      · simp
    rw [scaledDiv, neg_neg, if_pos (Int.natCast_nonneg k), Int.toNat_natCast]
    calc magnitude (roundDiv (a * 2 ^ k) b) (-k)
        = roundDiv (a * 2 ^ k) b / 2 ^ k := hcut
      _ ≤ (a * 2 ^ k / b + 1) / 2 ^ k := Nat.div_le_div_right hround
      _ ≤ (a * 2 ^ k / b + 2 ^ k) / 2 ^ k :=
          Nat.div_le_div_right (Nat.add_le_add_left (hpos k) _)
      _ = a * 2 ^ k / b / 2 ^ k + 1 := Nat.add_div_right _ (hpos k)
      _ = a / b + 1 := by rw [Nat.div_div_eq_div_mul, Nat.mul_div_mul_right _ _ (hpos k)]
      _ ≤ a / b + 2 ^ (-(k : Int)).toNat := Nat.add_le_add_left (hpos _) _

/-- Beyond the largest exponent there are no numbers, so only the quotient itself could be large. -/
theorem isModest_ofQuotient (negative : Bool) {a b k : Nat} (hk : k < Text.maxDigits)
    (h : a / b < 10 ^ k) : (ofQuotient negative a b).IsModest := by
  have hquotient : 10 ^ k ≤ 10 ^ (Text.maxDigits - 1) :=
    Nat.pow_le_pow_right (by decide) (Nat.le_sub_one_of_lt hk)
  have hlargest : 10 ^ (Text.maxDigits - 1) + 2 ^ maxExponent.toNat ≤ 10 ^ Text.maxDigits := by
    decide +kernel
  have hfull : Nat.pow 2 52 * 2 ^ maxExponent.toNat < 10 ^ Text.maxDigits := by decide +kernel
  unfold ofQuotient
  extract_lets e m
  have hm : magnitude m e ≤ a / b + 2 ^ e.toNat := magnitude_scaledDiv_le a b e
  have hpow : ∀ {k : Int}, k ≤ maxExponent → 2 ^ k.toNat ≤ 2 ^ maxExponent.toNat := by
    intro k hk
    exact Nat.pow_le_pow_right (by decide) (Int.toNat_le_toNat hk)
  split
  next m' e' hsplit =>
  split
  · exact isModest_infinite negative
  · next hexponent =>
    apply isModest_finite
    have he' := hpow (Int.not_lt.1 hexponent)
    split at hsplit
    · obtain ⟨rfl, rfl⟩ := Prod.mk.inj hsplit
      calc magnitude (Nat.pow 2 52) (e + 1)
          ≤ Nat.pow 2 52 * 2 ^ (e + 1).toNat := magnitude_le _ _
        _ ≤ Nat.pow 2 52 * 2 ^ maxExponent.toNat := Nat.mul_le_mul_left _ he'
        _ < 10 ^ Text.maxDigits := hfull
    · obtain ⟨rfl, rfl⟩ := Prod.mk.inj hsplit
      omega

/-! ### Reading a decimal numeral -/

theorem lt_pow_length_toString (n : Nat) : n < 10 ^ (toString n).length := by
  have hlength : (toString n).length = (Nat.toDigits 10 n).length := by
    rw [← String.length_toList, ← Nat.toList_repr]
    rfl
  rw [hlength]
  exact (Nat.length_toDigits_le_iff (by decide) Nat.length_toDigits_pos).1 (Nat.le_refl _)

/-- A numeral that is far beyond the largest number is not worked out. -/
theorem isModest_ofDecimal (negative : Bool) (digits : Nat) (exponent : Int) :
    (ofDecimal negative digits exponent).IsModest := by
  have hzero : (finite negative 0 minExponent).IsModest := isModest_finite (by decide +kernel)
  have hdigits := lt_pow_length_toString digits
  have hlimit : 400 < Text.maxDigits := by decide
  unfold ofDecimal
  extract_lets size
  split
  · exact hzero
  split
  · exact isModest_infinite negative
  split
  · exact hzero
  next hsize _ =>
  split
  · next hexponent =>
    have hk : (toString digits).length + exponent.toNat < Text.maxDigits := by omega
    refine isModest_ofQuotient negative hk ((Nat.div_one _).trans_lt ?_)
    calc digits * 10 ^ exponent.toNat
        < 10 ^ (toString digits).length * 10 ^ exponent.toNat :=
          Nat.mul_lt_mul_of_pos_right hdigits (Nat.pow_pos (by decide))
      _ = 10 ^ ((toString digits).length + exponent.toNat) := (Nat.pow_add _ _ _).symm
  · next hexponent =>
    have hk : (size + exponent).toNat < Text.maxDigits := by omega
    refine isModest_ofQuotient negative hk (Nat.div_lt_of_lt_mul ?_)
    calc digits < 10 ^ (toString digits).length := hdigits
      _ ≤ 10 ^ ((-exponent).toNat + (size + exponent).toNat) :=
          Nat.pow_le_pow_right (by decide) (by omega)
      _ = 10 ^ (-exponent).toNat * 10 ^ (size + exponent).toNat := Nat.pow_add _ _ _

end TodoLists.Binary64
