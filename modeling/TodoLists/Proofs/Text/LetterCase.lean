import TodoLists.Text.Lowercase
import Mathlib

/-!
# The letters of `inf`

Lower case maps no character to `i`, `n` or `f` but these letters themselves and their capitals. So
a text whose lower case is `inf` is that word in some mixture of small letters and capitals.
-/

namespace TodoLists.Text

namespace Lowercase

/-- The code points of the letters of `inf`. -/
def infPoints : List Nat := [105, 110, 102]

theorem bounds_of_mem_infPoints {x : Nat} (h : x ∈ infPoints) : 0 < x ∧ x < 128 := by
  simp only [infPoints, List.mem_cons, List.not_mem_nil, or_false] at h
  omega

/-- Beyond the first 128 characters no run leads to a letter of `inf`. -/
theorem not_covers_of_mem_runs : ∀ r ∈ runs, ∀ x ∈ infPoints,
    (x : Int) - r.offset < 128 ∨ (x : Int) - r.offset < r.first ∨
      (r.last : Int) < x - r.offset := by
  decide +kernel

theorem char_of_lt {c : Char} (h : c.toNat < 128) : char c = [c.toLower] := by
  have hall : ∀ n < 128, char (Char.ofNat n) = [(Char.ofNat n).toLower] := by decide +kernel
  have hc := hall c.toNat h
  rwa [Char.ofNat_toNat] at hc

theorem toLower_of_le {c : Char} (h : 128 ≤ c.toNat) : c.toLower = c := by
  rw [Char.toLower, dif_neg]
  rintro ⟨-, hc⟩
  have hle : c.toNat ≤ 90 := hc
  omega

theorem toNat_ofNat_eq_or (n : Nat) : (Char.ofNat n).toNat = n ∨ (Char.ofNat n).toNat = 0 := by
  unfold Char.ofNat
  split
  · exact Or.inl rfl
  · exact Or.inr rfl

/-- Beyond the first 128 characters lower case never is a single letter of `inf`. -/
theorem toNat_notMem_of_char_eq {c y : Char} (h : 128 ≤ c.toNat) (hy : char c = [y]) :
    y.toNat ∉ infPoints := by
  intro hmem
  have hpos := bounds_of_mem_infPoints hmem
  rw [char, if_neg (by omega)] at hy
  split at hy
  · exact absurd (congrArg List.length hy) (by simp)
  split at hy
  · rename_i r hr
    have hcovers := List.find?_some hr
    simp only [Run.covers, Bool.and_eq_true, decide_eq_true_eq] at hcovers
    rw [List.cons.injEq] at hy
    have hvalue : y.toNat = (c.toNat + r.offset : Int).toNat := by
      rw [← hy.1] at hpos ⊢
      rcases toNat_ofNat_eq_or (c.toNat + r.offset : Int).toNat with hn | hn
      · exact hn
      · omega
    have hout := not_covers_of_mem_runs r (List.mem_of_find?_eq_some hr) _ hmem
    omega
  · rw [List.cons.injEq] at hy
    rw [← hy.1] at hpos
    omega

theorem exists_char_eq (c : Char) :
    (∃ y, char c = [y]) ∨ char c = ['i', Char.ofNat 0x307] := by
  rw [char]
  split
  · exact Or.inl ⟨_, rfl⟩
  split
  · exact Or.inr rfl
  split
  · exact Or.inl ⟨_, rfl⟩
  · exact Or.inl ⟨_, rfl⟩

theorem char_eq_singleton_iff {c x : Char} (hx : x.toNat ∈ infPoints) :
    char c = [x] ↔ c.toLower = x := by
  by_cases hc : c.toNat < 128
  · rw [char_of_lt hc, List.cons.injEq, and_iff_left rfl]
  · constructor
    · intro h
      exact absurd hx (toNat_notMem_of_char_eq (by omega) h)
    · rintro rfl
      rw [toLower_of_le (by omega)] at hx
      have := bounds_of_mem_infPoints hx
      omega

/-- Lower case comes to letters of `inf` only from their small letters and capitals. -/
theorem after_eq_iff {w t : List Char} (ht : ∀ x ∈ t, x.toNat ∈ infPoints) (b : Bool) :
    after b w = t ↔ w.map Char.toLower = t := by
  induction w generalizing t b with
  | nil => rw [after, List.map_nil]
  | cons c cs ih =>
    rw [List.map_cons, after]
    split
    · rename_i hc
      subst hc
      have hsigma : ∀ x ∈ t, x ≠ 'ς' ∧ x ≠ 'σ' ∧ x ≠ Char.toLower 'Σ' := by
        intro x hx
        have hmem := ht x hx
        refine ⟨?_, ?_, ?_⟩ <;> rintro rfl <;> exact absurd hmem (by decide)
      constructor
      · rintro rfl
        have hhead := hsigma _ List.mem_cons_self
        split at hhead
        · exact absurd rfl hhead.1
        · exact absurd rfl hhead.2.1
      · rintro rfl
        exact absurd rfl (hsigma _ List.mem_cons_self).2.2
    · cases t with
      | nil =>
        rcases exists_char_eq c with ⟨y, hy⟩ | hy <;> simp [hy]
      | cons x t =>
        have hx := ht x List.mem_cons_self
        have ht' : ∀ y ∈ t, y.toNat ∈ infPoints := fun y hy => ht y (List.mem_cons_of_mem x hy)
        rcases exists_char_eq c with ⟨y, hy⟩ | hy
        · rw [hy, List.singleton_append, List.cons.injEq, List.cons.injEq, ih ht',
            ← char_eq_singleton_iff hx, hy, List.cons.injEq, and_iff_left rfl]
        · -- the capital with a dot leaves a combining dot, which is no letter
          have hlower : c.toLower ≠ x := by
            rw [ne_eq, ← char_eq_singleton_iff hx, hy]
            simp
          constructor
          · intro h
            rw [hy] at h
            cases t with
            | nil => simp at h
            | cons z t =>
              rw [List.cons_append, List.cons_append, List.cons.injEq, List.cons.injEq] at h
              have hz : Char.ofNat 0x307 = z := h.2.1
              have hmem := ht' z List.mem_cons_self
              rw [← hz] at hmem
              exact absurd hmem (by decide)
          · intro h
            exact absurd (List.cons.inj h).1 hlower

end Lowercase

/-- The words for an absent limit. -/
theorem lowercase_eq_inf_iff (w : List Char) :
    lowercase w = "inf".toList ↔ w.map Char.toLower = "inf".toList :=
  Lowercase.after_eq_iff (by simp [Lowercase.infPoints]) false

end TodoLists.Text
