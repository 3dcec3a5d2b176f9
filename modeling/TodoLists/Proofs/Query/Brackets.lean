import TodoLists.Proofs.Query.Acceptance

/-!
# Brackets in queries

In a query a square bracket only opens a range, so a limit or the dots come next. Neither starts with
a slash. So although a query may look as if it held tags of the markup, none of them is a closing
one.
-/

namespace TodoLists.Query

variable {number : List Char → Int → Prop}

/-- What can come next when a bracket has opened a range. -/
inductive BeginsLimit : Lexeme → Prop where
  | dots : BeginsLimit .dots
  | unbounded {w : List Char} (h : w.map Char.toLower = "inf".toList) : BeginsLimit (.word w)
  | status (w : List Char) : BeginsLimit (.status w)
  | priority (n : List Char) : BeginsLimit (.priority n)

/-- Behind every opening square bracket a limit begins. -/
def OpensRanges (ls : List Lexeme) : Prop :=
  ∀ a b, ls = a ++ .lbracket :: b → ∃ l c, b = l :: c ∧ BeginsLimit l

variable {ls ms : List Lexeme} {f : Filter}

theorem opensRanges_of_not_mem (h : .lbracket ∉ ls) : OpensRanges ls := by
  rintro a b rfl
  exact absurd (List.mem_append_right a List.mem_cons_self) h

theorem OpensRanges.append (hls : OpensRanges ls) (hms : OpensRanges ms) :
    OpensRanges (ls ++ ms) := by
  intro a b h
  rcases List.append_eq_append_iff.1 h with ⟨c, rfl, hc⟩ | ⟨c, rfl, hc⟩
  · exact hms c b hc
  · cases c with
    | nil => exact hms [] b hc.symm
    | cons x c =>
      cases hc
      obtain ⟨l, d, rfl, hl⟩ := hls a c rfl
      exact ⟨l, d ++ ms, rfl, hl⟩

theorem OpensRanges.cons {l : Lexeme} (hl : l ≠ .lbracket) (hls : OpensRanges ls) :
    OpensRanges (l :: ls) := by
  have hone : OpensRanges [l] := opensRanges_of_not_mem (by simpa using hl.symm)
  exact hone.append hls

theorem DerivesLimit.beginsLimit {v : Option Value} (h : DerivesLimit number ls v)
    (ms : List Lexeme) : .lbracket ∉ ls ∧ ∃ l c, ls ++ .dots :: ms = l :: c ∧ BeginsLimit l := by
  cases h with
  | omitted => exact ⟨List.not_mem_nil, _, _, rfl, .dots⟩
  | unbounded h => exact ⟨by simp, _, _, rfl, .unbounded h⟩
  | status => exact ⟨by simp, _, _, rfl, .status _⟩
  | priority => exact ⟨by simp, _, _, rfl, .priority _⟩

theorem DerivesRange.opensRanges (h : DerivesRange number ls f) : OpensRanges ls := by
  obtain ⟨opener, closer, low, high, i, j, x, y, r, rfl, -, hlow, hhigh, hclose, -⟩ :=
    h.exists_limits
  obtain ⟨hlow, hnext⟩ := hlow.beginsLimit (high ++ [closer])
  have hhigh : .lbracket ∉ high := (hhigh.beginsLimit []).1
  have hcloser : closer ≠ .lbracket := by cases hclose <;> simp
  have hrest : .lbracket ∉ low ++ .dots :: (high ++ [closer]) := by
    simp [hlow, hhigh, hcloser.symm]
  -- Only the opener can be a square bracket.
  rintro (_ | ⟨l, c⟩) d heq
  · cases heq
    exact hnext
  · rw [(List.cons.inj heq).2] at hrest
    exact absurd (List.mem_append_right c List.mem_cons_self) hrest

theorem Derives.opensRanges {c : Category} (h : Derives number c ls f) : OpensRanges ls := by
  induction h with
  | word | tag | status | priority => exact opensRanges_of_not_mem (by simp)
  | range h => exact h.opensRanges
  | group _ ih => exact (ih.append (opensRanges_of_not_mem (by simp))).cons (by simp)
  | not _ ih => exact ih.cons (by simp)
  | primary _ ih | unary _ ih | conjunction _ ih => exact ih
  | and _ _ ihf ihg => exact ihf.append (ihg.cons (by simp))
  | or _ _ ihf ihg => exact ihf.append ihg

theorem DerivesStage.opensRanges (h : DerivesStage number ls f) : OpensRanges ls := by
  cases h with
  | all | none => exact opensRanges_of_not_mem (by simp)
  | filter _ _ h => exact h.opensRanges

theorem DerivesStages.opensRanges {fs : List Filter} (h : DerivesStages number ls fs) :
    OpensRanges ls := by
  induction ls using arrow_induction generalizing fs with
  | last ls hls =>
    obtain ⟨f, -, hf⟩ := (derivesStages_iff_of_notMem hls).1 h
    exact hf.opensRanges
  | step ls ms hls ih =>
    obtain ⟨f, gs, -, hf, hgs⟩ := (derivesStages_append_iff hls).1 h
    exact hf.opensRanges.append ((ih hgs).cons (by simp))

/-- A slash behind a square bracket begins a word that is no limit. -/
theorem not_opensRanges_lexemes {s : List Char} (h : ['[', '/'] <:+: s) :
    ¬ OpensRanges (lexemes s) := by
  obtain ⟨a, b, rfl⟩ := h
  have hslash : Begins '/' b (.word ('/' :: takeWord b)) := begins_firstLexeme b (by decide)
  obtain ⟨tail, rest, htext, rfl⟩ := hslash.text_append
  have hlexemes : lexemes (a ++ '[' :: '/' :: (tail ++ rest)) =
      lexemes a ++ .lbracket :: .word ('/' :: takeWord (tail ++ rest)) :: lexemes rest := by
    rw [lexemes_append rfl, lexemes_sign rfl, lexemes_lexeme (by decide) hslash htext]
  intro hopens
  obtain ⟨l, c, heq, hl⟩ := hopens _ _ (by simpa using hlexemes)
  cases heq
  cases hl with
  | unbounded h => exact absurd h (by simp)

/-- A text with a closing tag in it is no query. -/
theorem not_infix_of_parseQuery {text : String} {q : Query} (h : parseQuery text = .ok q) :
    ¬ ['[', '/'] <:+: text.toList := by
  rw [parseQuery, onText_eq_ok_iff, parseQueryChars_eq_ok_iff] at h
  exact fun hinfix => not_opensRanges_lexemes hinfix (DerivesStages.opensRanges h.2)

end TodoLists.Query
