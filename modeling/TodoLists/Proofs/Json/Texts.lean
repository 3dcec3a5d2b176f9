import TodoLists.Json.Reader
import TodoLists.Json.Writer
import Mathlib.Data.List.Chain

/-!
# Texts in files

A text is written as UTF-16 units, each code point as itself or as an escape, and read by taking the
escapes away and then joining the surrogates that belong together. So a text comes back unless it
holds a pair of surrogates that are not joined. No text that has been read holds such a pair.
-/

namespace TodoLists

namespace Json

/-- The surrogates are a pair that stands for one character. -/
def ArePair (h l : Nat) : Prop := isHighSurrogate h = true ∧ isLowSurrogate l = true

theorem isHighSurrogate_eq_true_iff {n : Nat} :
    isHighSurrogate n = true ↔ 0xd800 ≤ n ∧ n < 0xdc00 := by
  simp [isHighSurrogate]

theorem isLowSurrogate_eq_true_iff {n : Nat} :
    isLowSurrogate n = true ↔ 0xdc00 ≤ n ∧ n < 0xe000 := by
  simp [isLowSurrogate]

end Json

/-- A text of code points in which every pair of surrogates has been joined. -/
structure LooseText.IsJoined (t : LooseText) : Prop where
  lt : ∀ n ∈ t.points, n < 0x110000
  apart : t.points.IsChain fun a b => ¬ Json.ArePair a b

theorem toNat_lt (c : Char) : c.toNat < 0x110000 := by
  rcases c.valid with h | h
  · exact Nat.lt_trans h (by decide)
  · exact h.2

/-- The characters of a text are no surrogates. -/
theorem LooseText.isJoined_ofString (s : String) : (ofString s).IsJoined := by
  constructor
  · intro n hn
    obtain ⟨c, -, rfl⟩ := List.mem_map.1 hn
    exact toNat_lt c
  · refine (List.isChain_map _).2 (List.Pairwise.isChain (List.pairwise_of_forall fun c d h => ?_))
    have hhigh := Json.isHighSurrogate_eq_true_iff.1 h.1
    have hvalid : c.toNat < 0xd800 ∨ 0xdfff < c.toNat ∧ c.toNat < 0x110000 := c.valid
    omega

namespace Json

/-! ### One code point -/

/-- The UTF-16 units of a code point. -/
def units (n : Nat) : List Nat :=
  if n < 0x10000 then [n] else [0xd800 + (n - 0x10000) / 0x400, 0xdc00 + (n - 0x10000) % 0x400]

theorem hexValue?_hexDigit {k : Nat} (h : k < 16) : hexValue? (hexDigit k) = some k := by
  have hall : ∀ k < 16, hexValue? (hexDigit k) = some k := by decide
  exact hall k h

theorem readUnits_escapeUnit {n : Nat} (h : n < 0x10000) (s : List Char) :
    readUnits (escapeUnit n ++ s) = (readUnits s).map fun p => (n :: p.1, p.2) := by
  have hvalue : (n / 4096 % 16 * 16 + n / 256 % 16) * 256 + (n / 16 % 16 * 16 + n % 16) = n := by
    omega
  rw [escapeUnit, List.cons_append, List.cons_append, List.cons_append, List.cons_append,
    List.cons_append, List.cons_append, List.nil_append, readUnits, unit?,
    hexValue?_hexDigit (Nat.mod_lt _ (by decide)), hexValue?_hexDigit (Nat.mod_lt _ (by decide)),
    hexValue?_hexDigit (Nat.mod_lt _ (by decide)), hexValue?_hexDigit (Nat.mod_lt _ (by decide))]
  simp only [Option.bind_eq_bind, Option.bind_some, Option.pure_def, hvalue]
  cases readUnits s <;> rfl

theorem readUnits_escapeNumber {n : Nat} (h : n < 0x110000) (s : List Char) :
    readUnits (escapeNumber n ++ s) = (readUnits s).map fun p => (units n ++ p.1, p.2) := by
  by_cases hn : n < 0x10000
  · rw [escapeNumber, if_pos hn, readUnits_escapeUnit hn, units, if_pos hn]
    rfl
  · rw [escapeNumber, if_neg hn, List.append_assoc, readUnits_escapeUnit (by omega),
      readUnits_escapeUnit (by omega), units, if_neg hn, Option.map_map]
    rfl

/-- The letters are those that are read back as the same code points. -/
theorem shortEscape?_of_escapeLetter? {n : Nat} {c : Char} (h : escapeLetter? n = some c) :
    shortEscape? c = some n ∧ c ≠ 'u' ∧ n < 0x10000 := by
  unfold escapeLetter? at h
  split at h <;> cases h <;> decide

theorem readUnits_letter {n : Nat} {c : Char} (h : shortEscape? c = some n) (hu : c ≠ 'u')
    (s : List Char) :
    readUnits ('\\' :: c :: s) = (readUnits s).map fun p => (n :: p.1, p.2) := by
  rw [readUnits, h]
  · cases readUnits s <;> rfl
  · exact fun _ _ _ _ _ e => absurd e hu

/-- What is written as it stands is neither a quote nor a backslash. -/
theorem plain_of_escapeLetter? {n : Nat} (h : escapeLetter? n = none) (hn : n < 127) :
    (Char.ofNat n).toNat = n ∧ Char.ofNat n ≠ '"' ∧ Char.ofNat n ≠ '\\' := by
  have hall : ∀ n < 127, escapeLetter? n = none →
      (Char.ofNat n).toNat = n ∧ Char.ofNat n ≠ '"' ∧ Char.ofNat n ≠ '\\' := by
    decide +kernel
  exact hall n hn h

theorem readUnits_plain {n : Nat} (h : escapeLetter? n = none) (hlow : 32 ≤ n) (hhigh : n < 127)
    (s : List Char) :
    readUnits (Char.ofNat n :: s) = (readUnits s).map fun p => (n :: p.1, p.2) := by
  obtain ⟨htoNat, hquote, hslash⟩ := plain_of_escapeLetter? h hhigh
  rw [readUnits]
  · rw [htoNat, if_neg (by omega)]
    cases readUnits s <;> rfl
  · exact hquote
  · exact fun _ _ _ _ _ e => absurd e hslash
  · exact fun _ _ e => absurd e hslash

theorem readUnits_escape {n : Nat} (h : n < 0x110000) (s : List Char) :
    readUnits (escape n ++ s) = (readUnits s).map fun p => (units n ++ p.1, p.2) := by
  unfold escape
  split
  · next c hc =>
    obtain ⟨hletter, hu, hlt⟩ := shortEscape?_of_escapeLetter? hc
    rw [units, if_pos hlt]
    exact readUnits_letter hletter hu s
  · next hc =>
    split
    · next hplain =>
      rw [units, if_pos (by omega)]
      exact readUnits_plain hc hplain.1 hplain.2 s
    · exact readUnits_escapeNumber h s

/-! ### Whole texts -/

/-- Up to its closing quote, a text is read as the units it was written in. -/
theorem readUnits_flatMap_escape {ps : List Nat} (h : ∀ n ∈ ps, n < 0x110000) (rest : List Char) :
    readUnits (ps.flatMap escape ++ '"' :: rest) = some (ps.flatMap units, rest) := by
  induction ps with
  | nil => rfl
  | cons n ps ih =>
    rw [List.flatMap_cons, List.append_assoc, readUnits_escape (h n List.mem_cons_self),
      ih fun m hm => h m (List.mem_cons_of_mem n hm)]
    rfl

/-- A low surrogate at the front of the units is one of the text. -/
theorem head?_flatMap_units {p l : Nat} {ps : List Nat} (hp : p < 0x110000)
    (hl : isLowSurrogate l = true) (h : ((p :: ps).flatMap units).head? = some l) : p = l := by
  rw [List.flatMap_cons, units] at h
  have := isLowSurrogate_eq_true_iff.1 hl
  split at h
  · exact Option.some.inj h
  · have := Option.some.inj h
    omega

theorem joinUnits_cons {n : Nat} {us : List Nat}
    (h : ∀ l, us.head? = some l → ¬ ArePair n l) : joinUnits (n :: us) = n :: joinUnits us := by
  cases us with
  | nil => rfl
  | cons l r =>
    rw [joinUnits, if_neg]
    rw [Bool.and_eq_true]
    exact h l rfl

theorem joinUnits_flatMap_units {ps : List Nat} (h : (LooseText.mk ps).IsJoined) :
    joinUnits (ps.flatMap units) = ps := by
  induction ps with
  | nil => rfl
  | cons p ps ih =>
    have ih := ih ⟨fun n hn => h.lt n (List.mem_cons_of_mem p hn), h.apart.tail⟩
    have hp : p < 0x110000 := h.lt p List.mem_cons_self
    rw [List.flatMap_cons, units]
    split
    · rw [List.singleton_append, joinUnits_cons, ih]
      intro l hl hpair
      cases ps with
      | nil => exact nomatch hl
      | cons q qs =>
        obtain rfl := head?_flatMap_units (h.lt q (by simp)) hpair.2 hl
        exact (List.isChain_cons_cons.1 h.apart).1 hpair
    · have hjoin : 0x10000 + (0xd800 + (p - 0x10000) / 0x400 - 0xd800) * 0x400 +
          (0xdc00 + (p - 0x10000) % 0x400 - 0xdc00) = p := by
        omega
      rw [List.cons_append, List.singleton_append, joinUnits, if_pos, hjoin, ih]
      rw [Bool.and_eq_true, isHighSurrogate_eq_true_iff, isLowSurrogate_eq_true_iff]
      omega

/-- A text that has been written is read back. -/
theorem readText_quote {t : LooseText} (h : t.IsJoined) (rest : List Char) :
    ∃ hr, readText (t.points.flatMap escape ++ '"' :: rest) = .ok (t, ⟨rest, hr⟩) := by
  have hunits := readUnits_flatMap_escape h.lt rest
  refine ⟨length_readUnits hunits, ?_⟩
  unfold readText
  split
  · next hnone =>
    rw [hunits] at hnone
    cases hnone
  · next us r hsome =>
    rw [hunits] at hsome
    cases hsome
    rw [joinUnits_flatMap_units h]

/-! ### What is read -/

theorem unit?_lt {a b c d : Char} {u : Nat} (h : unit? a b c d = some u) : u < 0x10000 := by
  have hdigit : ∀ {c : Char} {k : Nat}, hexValue? c = some k → k < 16 := by
    intro c k hk
    unfold hexValue? at hk
    grind
  simp only [unit?, Option.bind_eq_bind, Option.bind_eq_some_iff, Option.pure_def,
    Option.some.injEq] at h
  obtain ⟨w, hw, x, hx, y, hy, z, hz, rfl⟩ := h
  have := hdigit hw
  have := hdigit hx
  have := hdigit hy
  have := hdigit hz
  omega

theorem shortEscape?_lt {e : Char} {u : Nat} (h : shortEscape? e = some u) : u < 0x10000 := by
  unfold shortEscape? at h
  split at h <;> cases h <;> decide

theorem lt_of_mem_readUnits {s rest : List Char} {us : List Nat}
    (h : readUnits s = some (us, rest)) : ∀ n ∈ us, n < 0x110000 := by
  fun_induction readUnits s generalizing us rest with
  | case1 => cases h
  | case2 r =>
    cases h
    exact fun n hn => absurd hn List.not_mem_nil
  | case3 a b c d r ih =>
    simp only [Option.bind_eq_bind, Option.bind_eq_some_iff, Option.pure_def, Option.some.injEq,
      Prod.mk.injEq] at h
    obtain ⟨u, hu, ⟨vs, r'⟩, hr, rfl, rfl⟩ := h
    exact List.forall_mem_cons.2 ⟨Nat.lt_trans (unit?_lt hu) (by decide), ih hr⟩
  | case4 e r _ ih =>
    simp only [Option.bind_eq_bind, Option.bind_eq_some_iff, Option.pure_def, Option.some.injEq,
      Prod.mk.injEq] at h
    obtain ⟨u, hu, ⟨vs, r'⟩, hr, rfl, rfl⟩ := h
    exact List.forall_mem_cons.2 ⟨Nat.lt_trans (shortEscape?_lt hu) (by decide), ih hr⟩
  | case5 => cases h
  | case6 c r _ _ _ _ ih =>
    simp only [Option.bind_eq_bind, Option.bind_eq_some_iff, Option.pure_def, Option.some.injEq,
      Prod.mk.injEq] at h
    obtain ⟨⟨vs, r'⟩, hr, rfl, rfl⟩ := h
    exact List.forall_mem_cons.2 ⟨toNat_lt c, ih hr⟩

/-- The first point is the first unit, or else a joined character and so no surrogate. -/
theorem head?_joinUnits {l p : Nat} {us : List Nat} (h : (joinUnits (l :: us)).head? = some p) :
    p = l ∨ 0x10000 ≤ p := by
  cases us with
  | nil => exact Or.inl (Option.some.inj h).symm
  | cons u us =>
    rw [joinUnits] at h
    split at h
    · right
      have := Option.some.inj h
      omega
    · exact Or.inl (Option.some.inj h).symm

/-- Joining leaves no pair. -/
theorem isJoined_joinUnits {us : List Nat} (h : ∀ n ∈ us, n < 0x110000) :
    (LooseText.mk (joinUnits us)).IsJoined := by
  fun_induction joinUnits us with
  | case1 u l r hpair ih =>
    rw [Bool.and_eq_true, isHighSurrogate_eq_true_iff, isLowSurrogate_eq_true_iff] at hpair
    have ih := ih fun n hn => h n (by simp [hn])
    constructor
    · exact List.forall_mem_cons.2 ⟨by omega, ih.lt⟩
    · refine List.isChain_cons.2 ⟨fun p _ hpair' => ?_, ih.apart⟩
      have := isHighSurrogate_eq_true_iff.1 hpair'.1
      omega
  | case2 u l r hpair ih =>
    rw [Bool.and_eq_true] at hpair
    have ih := ih fun n hn => h n (List.mem_cons_of_mem u hn)
    constructor
    · exact List.forall_mem_cons.2 ⟨h u List.mem_cons_self, ih.lt⟩
    · refine List.isChain_cons.2 ⟨fun p hp hpair' => ?_, ih.apart⟩
      rcases head?_joinUnits hp with rfl | hp
      · exact hpair hpair'
      · have := isLowSurrogate_eq_true_iff.1 hpair'.2
        omega
  | case3 us hshort =>
    refine ⟨h, ?_⟩
    match us, hshort with
    | [], _ => exact .nil
    | [u], _ => exact .singleton u
    | u :: l :: r, hshort => exact absurd rfl (hshort u l r)

/-- The texts that are read are joined. -/
theorem isJoined_of_readText {s : List Char} {t : LooseText} {r : Shorter s}
    (h : readText s = .ok (t, r)) : t.IsJoined := by
  unfold readText at h
  split at h
  · cases h
  · next us rest hunits =>
    cases h
    exact isJoined_joinUnits (lt_of_mem_readUnits hunits)

end Json

end TodoLists
