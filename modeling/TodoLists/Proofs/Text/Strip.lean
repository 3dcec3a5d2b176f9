import TodoLists.Text.Blank
import TodoLists.Text.Cut
import Mathlib.Data.List.DropRight
import Mathlib.Data.List.TakeWhile

/-!
# Blanks at the ends of a text

Blanks in front of a text and behind it make no difference to the text without the blanks at its
ends, nor to its words. Where a word and a space stand in front, the word is cut off at the space,
and what is left is the rest of the text, whatever blanks surround it.
-/

namespace TodoLists.Text

variable {a b s w : List Char}

theorem allBlank_iff : allBlank s = true ↔ ∀ c ∈ s, isBlank c = true := List.all_eq_true

/-! ### Stripping -/

theorem strip_eq_rdropWhile (s : List Char) :
    strip s = (s.dropWhile isBlank).rdropWhile isBlank := rfl

theorem strip_blank_append (ha : allBlank a = true) (s : List Char) : strip (a ++ s) = strip s := by
  rw [strip_eq_rdropWhile, List.dropWhile_append_of_pos (allBlank_iff.1 ha), ← strip_eq_rdropWhile]

theorem rdropWhile_append_blank (s : List Char) (hb : allBlank b = true) :
    (s ++ b).rdropWhile isBlank = s.rdropWhile isBlank := by
  have hreverse : ∀ c ∈ b.reverse, isBlank c = true :=
    fun c hc => allBlank_iff.1 hb c (List.mem_reverse.1 hc)
  rw [List.rdropWhile, List.reverse_append, List.dropWhile_append_of_pos hreverse, List.rdropWhile]

theorem strip_append_blank (s : List Char) (hb : allBlank b = true) : strip (s ++ b) = strip s := by
  rw [strip_eq_rdropWhile, strip_eq_rdropWhile, List.dropWhile_append]
  split
  · next hs =>
    rw [List.isEmpty_iff.1 hs, List.dropWhile_eq_nil_iff.2 (allBlank_iff.1 hb)]
  · exact rdropWhile_append_blank _ hb

theorem allBlank_takeWhile (s : List Char) : allBlank (s.takeWhile isBlank) = true :=
  List.all_takeWhile

theorem allBlank_rtakeWhile (s : List Char) : allBlank (s.rtakeWhile isBlank) = true :=
  allBlank_iff.2 fun _ hc => List.mem_rtakeWhile_imp hc

/-- A text is what is left of it with blanks around. -/
theorem exists_strip (s : List Char) :
    ∃ a b, allBlank a = true ∧ allBlank b = true ∧ s = a ++ (strip s ++ b) := by
  refine ⟨_, _, allBlank_takeWhile s, allBlank_rtakeWhile (s.dropWhile isBlank), ?_⟩
  rw [strip_eq_rdropWhile, List.rdropWhile_append_rtakeWhile, List.takeWhile_append_dropWhile]

theorem strip_rdropWhile (s : List Char) : strip (s.rdropWhile isBlank) = strip s := by
  rw [← strip_append_blank _ (allBlank_rtakeWhile s), List.rdropWhile_append_rtakeWhile]

theorem strip_eq_nil_iff : strip s = [] ↔ allBlank s = true := by
  constructor
  · intro h
    obtain ⟨a, b, ha, hb, hs⟩ := exists_strip s
    rw [h, List.nil_append] at hs
    rw [hs, allBlank, List.all_append, Bool.and_eq_true]
    exact ⟨ha, hb⟩
  · intro h
    rw [← List.append_nil s, strip_blank_append h]
    rfl

/-- What a text without blanks at its ends begins is stripped at its other end only. -/
theorem strip_append_of_strip_eq (hne : w ≠ []) (hw : strip w = w) (s : List Char) :
    strip (w ++ s) = w ++ s.rdropWhile isBlank := by
  -- no blank was cut off either end of the text, for it would be shorter
  have hfront : w.dropWhile isBlank = w := by
    refine List.IsSuffix.eq_of_length_le (List.dropWhile_suffix _) ?_
    have hle := (List.rdropWhile_prefix isBlank (l := w.dropWhile isBlank)).length_le
    rwa [← strip_eq_rdropWhile, hw] at hle
  have hback : w.rdropWhile isBlank = w := by rwa [strip_eq_rdropWhile, hfront] at hw
  have hall : (w.dropWhile isBlank).isEmpty = false := by simpa [hfront] using hne
  rw [strip_eq_rdropWhile, List.dropWhile_append, hall, if_neg Bool.false_ne_true, hfront,
    List.rdropWhile, List.reverse_append, List.dropWhile_append]
  split
  · next hs =>
    rw [← List.rdropWhile, hback, List.rdropWhile, List.isEmpty_iff.1 hs, List.reverse_nil,
      List.append_nil]
  · rw [List.reverse_append, List.reverse_reverse, List.rdropWhile]

theorem strip_word (hw : ∀ c ∈ w, isBlank c = false) : strip w = w := by
  have hback : w.rdropWhile isBlank = w :=
    List.rdropWhile_eq_self_iff.2 fun h => by simp [hw _ (List.getLast_mem h)]
  cases w with
  | nil => rfl
  | cons c cs =>
    rwa [strip_eq_rdropWhile, List.dropWhile_cons_of_neg (by simp [hw c List.mem_cons_self])]

/-- What a word begins is stripped at its other end only. -/
theorem strip_word_append (hne : w ≠ []) (hw : ∀ c ∈ w, isBlank c = false) (s : List Char) :
    strip (w ++ s) = w ++ s.rdropWhile isBlank :=
  strip_append_of_strip_eq hne (strip_word hw) s

theorem strip_strip (s : List Char) : strip (strip s) = strip s := by
  obtain ⟨a, b, ha, hb, hs⟩ := exists_strip s
  conv_rhs => rw [hs, strip_blank_append ha, strip_append_blank _ hb]

/-- A text that goes on goes on behind its last character that is not blank. -/
theorem strip_prefix_strip_append (s t : List Char) : strip s <+: strip (s ++ t) := by
  obtain ⟨a, b, ha, -, hs⟩ := exists_strip s
  by_cases hnil : strip s = []
  · rw [hnil]
    exact List.nil_prefix
  · have hmore : strip (s ++ t) = strip (strip s ++ (b ++ t)) := by
      conv_lhs => rw [hs, List.append_assoc, strip_blank_append ha, List.append_assoc]
    rw [hmore, strip_append_of_strip_eq hnil (strip_strip s)]
    exact List.prefix_append _ _

/-! ### Cutting -/

theorem cut_append {c : Char} (hw : c ∉ w) (s : List Char) :
    cut c (w ++ s) = (w ++ (cut c s).1, (cut c s).2) := by
  induction w with
  | nil => rfl
  | cons x xs ih =>
    rw [List.mem_cons, not_or] at hw
    obtain ⟨hx, hxs⟩ := hw
    rw [List.cons_append, cut, if_neg (Ne.symm hx), ih hxs]
    rfl

/-- A text is cut at the first place where the character stands, if it stands anywhere. -/
theorem cut_cases (c : Char) (s : List Char) :
    c ∉ s ∧ cut c s = (s, none) ∨
      ∃ before after, c ∉ before ∧ s = before ++ c :: after ∧ cut c s = (before, some after) := by
  by_cases hs : c ∈ s
  · obtain ⟨before, after, rfl, hbefore⟩ := List.eq_append_cons_of_mem hs
    exact Or.inr ⟨before, after, hbefore, rfl, by rw [cut_append hbefore]; simp [cut]⟩
  · exact Or.inl ⟨hs, cut_of_not_mem hs⟩

/-- A text with something behind it is cut where it was, unless it was not cut at all. -/
theorem cut_append_of_not_mem {c : Char} (s : List Char) (hb : c ∉ b) :
    (∃ before after, cut c s = (before, some after) ∧
      cut c (s ++ b) = (before, some (after ++ b))) ∨
    cut c s = (s, none) ∧ cut c (s ++ b) = (s ++ b, none) := by
  rcases cut_cases c s with ⟨hs, hcut⟩ | ⟨before, after, hbefore, rfl, hcut⟩
  · exact Or.inr ⟨hcut, by rw [cut_append hs, cut_of_not_mem hb]⟩
  · refine Or.inl ⟨before, after, hcut, ?_⟩
    rw [List.append_assoc, cut_append hbefore]
    simp [cut]

/-- A word is cut off at the space behind it, and the rest is left as it is, blanks at its ends
aside. -/
theorem cut_strip (hne : w ≠ []) (hw : ∀ c ∈ w, isBlank c = false) (s : List Char) :
    ∃ rest, cut ' ' (strip (w ++ ' ' :: s)) = (w, rest) ∧ strip (rest.getD []) = strip s := by
  have hspace : ' ' ∉ w := fun h => absurd (hw ' ' h) (by decide)
  have hstrip : strip ((' ' :: s).rdropWhile isBlank) = strip s := by
    rw [strip_rdropWhile, ← List.singleton_append, strip_blank_append (by decide)]
  rw [strip_word_append hne hw, cut_append hspace]
  cases hrest : (' ' :: s).rdropWhile isBlank with
  | nil =>
    rw [hrest] at hstrip
    exact ⟨none, by rw [cut_nil, List.append_nil], hstrip⟩
  | cons c t =>
    have hprefix := List.rdropWhile_prefix isBlank (l := ' ' :: s)
    rw [hrest, List.cons_prefix_cons] at hprefix
    obtain ⟨rfl, -⟩ := hprefix
    rw [hrest, ← List.singleton_append, strip_blank_append (by decide)] at hstrip
    exact ⟨some t, by rw [cut, if_pos rfl, List.append_nil], hstrip⟩

/-! ### Words -/

theorem words_append_cons {c : Char} (s : List Char) (hc : isBlank c = true) (t : List Char) :
    words (s ++ c :: t) = words s ++ words t := by
  rw [words, List.splitOnP_append_cons s t hc, List.filter_append, words, words]

theorem words_blank_append (ha : allBlank a = true) (s : List Char) : words (a ++ s) = words s := by
  induction a with
  | nil => rfl
  | cons c a ih =>
    rw [allBlank, List.all_cons, Bool.and_eq_true] at ha
    have hnil : words [] = [] := by decide
    have hcons := words_append_cons [] ha.1 (a ++ s)
    rwa [List.nil_append, hnil, List.nil_append, ih ha.2] at hcons

theorem words_append_blank (s : List Char) (hb : allBlank b = true) : words (s ++ b) = words s := by
  cases b with
  | nil => rw [List.append_nil]
  | cons c b =>
    rw [allBlank, List.all_cons, Bool.and_eq_true] at hb
    have hnil : words [] = [] := by decide
    have hblank := words_blank_append hb.2 []
    rw [List.append_nil, hnil] at hblank
    rw [words_append_cons s hb.1, hblank, List.append_nil]

theorem squeeze_blank_append (ha : allBlank a = true) (s : List Char) :
    squeeze (a ++ s) = squeeze s := by
  rw [squeeze, words_blank_append ha, squeeze]

theorem squeeze_append_blank (s : List Char) (hb : allBlank b = true) :
    squeeze (s ++ b) = squeeze s := by
  rw [squeeze, words_append_blank s hb, squeeze]

end TodoLists.Text
