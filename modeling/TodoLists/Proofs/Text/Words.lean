import TodoLists.Proofs.Text.Strip
import Mathlib.Data.List.Chain

/-!
# Words and tidy texts

The words of a text are its runs of characters that are not blank, and words that are joined by
single spaces are the words of what they make up. So squeezing a text leaves it as it is exactly
when it is tidy: it has no blank at its ends, no two side by side, and no blank but the space.
-/

namespace TodoLists.Text

variable {c : Char} {s t w : List Char} {ws : List (List Char)}

/-- A text with characters, none of which is blank. -/
structure IsRun (w : List Char) : Prop where
  ne_nil : w ≠ []
  plain : ∀ c ∈ w, isBlank c = false

/-! ### Words -/

theorem words_of_plain (hw : ∀ c ∈ w, isBlank c = false) :
    words w = [w].filter fun w => !w.isEmpty := by
  rw [words, List.splitOnP_eq_singleton hw]

theorem IsRun.words (hw : IsRun w) : words w = [w] := by
  rw [words_of_plain hw.plain, List.filter_singleton, List.isEmpty_eq_false_iff.2 hw.ne_nil]
  rfl

/-- A text has no blank, or it is a text without blanks, a blank and a text. -/
theorem blank_induction {motive : List Char → Prop}
    (plain : ∀ w, (∀ c ∈ w, isBlank c = false) → motive w)
    (blank : ∀ w c s, (∀ c ∈ w, isBlank c = false) → isBlank c = true → motive s →
      motive (w ++ c :: s)) (s : List Char) : motive s := by
  induction hn : s.length using Nat.strong_induction_on generalizing s with
  | _ n ih =>
    subst hn
    have hsplit : s = s.takeWhile (!isBlank ·) ++ s.dropWhile (!isBlank ·) :=
      List.takeWhile_append_dropWhile.symm
    have hfront : ∀ c ∈ s.takeWhile (!isBlank ·), isBlank c = false :=
      fun c hc => by simpa using List.mem_takeWhile_imp hc
    cases hrest : s.dropWhile (!isBlank ·) with
    | nil =>
      rw [hsplit, hrest, List.append_nil]
      exact plain _ hfront
    | cons c t =>
      have hc : isBlank c = true := by
        have hhead := List.head?_dropWhile_not (!isBlank ·) s
        simpa [hrest] using hhead
      have hlength := congrArg List.length hsplit
      rw [hrest, List.length_append, List.length_cons] at hlength
      rw [hsplit, hrest]
      exact blank _ c t hfront hc (ih t.length (by omega) t rfl)

theorem isRun_of_mem_words (h : w ∈ words s) : IsRun w ∧ w <:+: s := by
  have hplain : ∀ v : List Char, (∀ c ∈ v, isBlank c = false) → w ∈ words v → IsRun w ∧ w = v := by
    intro v hv hmem
    rw [words_of_plain hv, List.mem_filter, List.mem_singleton] at hmem
    obtain ⟨rfl, hne⟩ := hmem
    exact ⟨⟨by simpa using hne, hv⟩, rfl⟩
  induction s using blank_induction with
  | plain v hv =>
    obtain ⟨hw, rfl⟩ := hplain v hv h
    exact ⟨hw, List.infix_rfl⟩
  | blank v c s hv hc ih =>
    rw [words_append_cons v hc, List.mem_append] at h
    rcases h with h | h
    · obtain ⟨hw, rfl⟩ := hplain v hv h
      exact ⟨hw, (List.prefix_append _ _).isInfix⟩
    · exact (ih h).imp_right fun hinfix =>
        hinfix.trans ((List.suffix_cons c s).trans (List.suffix_append v _)).isInfix

theorem words_eq_nil_iff : words s = [] ↔ allBlank s = true := by
  induction s using blank_induction with
  | plain v hv =>
    rw [words_of_plain hv]
    cases v with
    | nil => simp [allBlank]
    | cons c v => simp [allBlank, hv c List.mem_cons_self]
  | blank v c s hv hc ih =>
    rw [words_append_cons v hc, List.append_eq_nil_iff, ih, words_of_plain hv]
    cases v with
    | nil => simp [allBlank, hc]
    | cons d v => simp [allBlank, hv d List.mem_cons_self]

/-- Where no blank stands behind it, the last word is what the text ends with. -/
theorem suffix_of_getLast?_words (hs : ∀ c ∈ s.getLast?, isBlank c = false)
    (hw : w ∈ (words s).getLast?) : w <:+ s := by
  induction s using blank_induction with
  | plain v hv =>
    have hmem := List.mem_of_mem_getLast? hw
    rw [words_of_plain hv, List.mem_filter, List.mem_singleton] at hmem
    exact hmem.1 ▸ List.suffix_rfl
  | blank v c s hv hc ih =>
    have hne : s ≠ [] := by
      rintro rfl
      exact absurd (hs c (by simp)) (by simp [hc])
    rw [List.getLast?_append_of_ne_nil _ (List.cons_ne_nil _ _),
      List.getLast?_cons_of_ne_nil hne] at hs
    have hwords : words s ≠ [] := by
      intro hnil
      have hlast := List.getLast?_eq_some_getLast hne
      have hblank := allBlank_iff.1 (words_eq_nil_iff.1 hnil) _ (List.getLast_mem hne)
      exact absurd (hs _ hlast) (by simp [hblank])
    rw [words_append_cons v hc, List.getLast?_append_of_ne_nil _ hwords] at hw
    exact (ih hs hw).trans ((List.suffix_cons c s).trans (List.suffix_append v _))

/-- A text ends with its last word exactly when it does not end in a blank. -/
theorem getLast?_words_suffix_iff (hw : w ∈ (words s).getLast?) :
    w <:+ s ↔ ∀ c ∈ s.getLast?, isBlank c = false := by
  constructor
  · rintro ⟨t, rfl⟩ c hc
    have hrun := (isRun_of_mem_words (List.mem_of_mem_getLast? hw)).1
    rw [List.getLast?_append_of_ne_nil _ hrun.ne_nil] at hc
    exact hrun.plain c (List.mem_of_mem_getLast? hc)
  · exact fun hs => suffix_of_getLast?_words hs hw

theorem unwords_cons (w : List Char) (hws : ws ≠ []) :
    unwords (w :: ws) = w ++ ' ' :: unwords ws := by
  cases ws with
  | nil => exact absurd rfl hws
  | cons v ws => rfl

theorem words_unwords (h : ∀ w ∈ ws, IsRun w) : words (unwords ws) = ws := by
  induction ws with
  | nil => rfl
  | cons w ws ih =>
    obtain ⟨hw, hws⟩ := List.forall_mem_cons.1 h
    by_cases hne : ws = []
    · subst hne
      exact hw.words
    · rw [unwords_cons w hne, words_append_cons w (by decide), hw.words, ih hws,
        List.singleton_append]

theorem mem_unwords (h : c ∈ unwords ws) : c = ' ' ∨ ∃ w ∈ ws, c ∈ w := by
  induction ws with
  | nil => exact absurd h List.not_mem_nil
  | cons w ws ih =>
    by_cases hne : ws = []
    · subst hne
      exact Or.inr ⟨w, List.mem_cons_self, h⟩
    · rw [unwords_cons w hne, List.mem_append, List.mem_cons] at h
      rcases h with h | h | h
      · exact Or.inr ⟨w, List.mem_cons_self, h⟩
      · exact Or.inl h
      · exact (ih h).imp_right fun ⟨v, hv, hc⟩ => ⟨v, List.mem_cons_of_mem w hv, hc⟩

theorem mem_squeeze (h : c ∈ squeeze s) : c = ' ' ∨ c ∈ s :=
  (mem_unwords h).imp_right fun ⟨_, hw, hc⟩ => (isRun_of_mem_words hw).2.subset hc

/-! ### Tidy texts -/

/-- No blank at the ends, no two blanks side by side, and no blank but the space. -/
structure IsTidy (s : List Char) : Prop where
  start : ∀ c ∈ s.head?, isBlank c = false
  stop : ∀ c ∈ s.getLast?, isBlank c = false
  apart : s.IsChain fun c d => isBlank c = false ∨ isBlank d = false
  space : ∀ c ∈ s, isBlank c = true → c = ' '

theorem isTidy_nil : IsTidy [] := ⟨by simp, by simp, .nil, by simp⟩

theorem IsRun.isTidy (hw : IsRun w) : IsTidy w where
  start c hc := hw.plain c (List.mem_of_mem_head? hc)
  stop c hc := hw.plain c (List.mem_of_mem_getLast? hc)
  apart := List.Pairwise.isChain
    (List.pairwise_of_forall_mem_list fun c hc _ _ => Or.inl (hw.plain c hc))
  space c hc hblank := absurd hblank (by simp [hw.plain c hc])

/-- A run, a space and a tidy text are tidy together. -/
theorem IsRun.isTidy_append (hw : IsRun w) (hs : IsTidy s) (hne : s ≠ []) :
    IsTidy (w ++ ' ' :: s) where
  start c hc := by
    rw [List.head?_append_of_ne_nil _ hw.ne_nil] at hc
    exact hw.isTidy.start c hc
  stop c hc := by
    rw [List.getLast?_append_of_ne_nil _ (List.cons_ne_nil _ _),
      List.getLast?_cons_of_ne_nil hne] at hc
    exact hs.stop c hc
  apart := by
    refine List.isChain_append.2 ⟨hw.isTidy.apart, ?_, fun c hc _ _ => Or.inl ?_⟩
    · exact List.isChain_cons.2 ⟨fun d hd => Or.inr (hs.start d hd), hs.apart⟩
    · exact hw.plain c (List.mem_of_mem_getLast? hc)
  space c hc hblank := by
    rcases List.mem_append.1 hc with hc | hc
    · exact hw.isTidy.space c hc hblank
    · rcases List.mem_cons.1 hc with rfl | hc
      · rfl
      · exact hs.space c hc hblank

theorem isTidy_unwords (h : ∀ w ∈ ws, IsRun w) : IsTidy (unwords ws) := by
  induction ws with
  | nil => exact isTidy_nil
  | cons w ws ih =>
    obtain ⟨hw, hws⟩ := List.forall_mem_cons.1 h
    by_cases hne : ws = []
    · subst hne
      exact hw.isTidy
    · rw [unwords_cons w hne]
      refine hw.isTidy_append (ih hws) fun hnil => hne ?_
      rw [← words_unwords hws, hnil]
      rfl

theorem isTidy_squeeze (s : List Char) : IsTidy (squeeze s) :=
  isTidy_unwords fun _ hw => (isRun_of_mem_words hw).1

/-- The text that follows a blank in a tidy text is tidy too, and the blank is a space between two
runs. -/
theorem IsTidy.of_append_cons (h : IsTidy (w ++ c :: s)) (hc : isBlank c = true) :
    w ≠ [] ∧ c = ' ' ∧ s ≠ [] ∧ IsTidy s := by
  have hw : w ≠ [] := by
    rintro rfl
    exact absurd (h.start c rfl) (by simp [hc])
  have hs : s ≠ [] := by
    rintro rfl
    exact absurd (h.stop c (by simp)) (by simp [hc])
  have htail := (List.isChain_append.1 h.apart).2.1
  refine ⟨hw, h.space c (by simp) hc, hs, ?_, ?_, htail.of_cons, ?_⟩
  · intro d hd
    exact ((List.isChain_cons.1 htail).1 d hd).resolve_left (by simp [hc])
  · intro d hd
    apply h.stop d
    rwa [List.getLast?_append_of_ne_nil _ (List.cons_ne_nil _ _),
      List.getLast?_cons_of_ne_nil hs]
  · exact fun d hd => h.space d (by simp [hd])

theorem IsTidy.squeeze_eq (h : IsTidy s) : squeeze s = s := by
  induction s using blank_induction with
  | plain w hw =>
    rw [squeeze, words_of_plain hw]
    cases w <;> rfl
  | blank w c s hw hc ih =>
    obtain ⟨hne, rfl, hs, htidy⟩ := h.of_append_cons hc
    have hwords : words s ≠ [] := fun hnil => hs (by rw [← ih htidy, squeeze, hnil]; rfl)
    rw [squeeze, words_append_cons w hc, IsRun.words ⟨hne, hw⟩, List.singleton_append,
      unwords_cons w hwords, ← squeeze, ih htidy]

/-- Squeezing leaves the tidy texts as they are, and no others. -/
theorem squeeze_eq_self_iff : squeeze s = s ↔ IsTidy s :=
  ⟨fun h => h ▸ isTidy_squeeze s, IsTidy.squeeze_eq⟩

end TodoLists.Text
