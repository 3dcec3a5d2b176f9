import TodoLists.Proofs.Query.Outcome
import TodoLists.Proofs.Query.Positions

/-!
# Stages and whole texts

What the descent does on the tokens of one stage is lifted to the stages of a query, each of which
ends where its arrow stands, and to whole texts.
-/

namespace TodoLists.Query

variable {stop : Nat} {ts : List Token}

/-! ### One stage -/

theorem parseStage_nil : parseStage stop [] = .error ⟨.emptyFilter, stop⟩ := rfl

theorem parseStage_keyword {f : Filter} (h : keyword? ts = some f) :
    parseStage stop ts = .ok f := by
  have hne : ts ≠ [] := by
    rintro rfl
    cases h
  rw [parseStage, if_neg hne, h]

theorem parseStage_filter (hne : ts ≠ []) (h : keyword? ts = none) :
    parseStage stop ts = (readOr stop ts).bind fun y =>
      if y.2 = [] then .ok y.1 else .error ⟨.unexpectedToken, positionOf stop y.2⟩ := by
  rw [parseStage, if_neg hne, h, readOr]
  rcases parseOr stop ts with e | ⟨f, rest, hrest⟩ <;> rfl

/-- The three kinds of stages. -/
theorem keyword?_cases (ts : List Token) :
    (ts.map Token.lexeme = [.word "all".toList] ∧ keyword? ts = some .all) ∨
    (ts.map Token.lexeme = [.word "none".toList] ∧ keyword? ts = some .none) ∨
    (ts.map Token.lexeme ≠ [.word "all".toList] ∧ ts.map Token.lexeme ≠ [.word "none".toList] ∧
      keyword? ts = none) := by
  by_cases hall : ts.map Token.lexeme = [.word "all".toList]
  · obtain ⟨⟨l, p⟩, rfl, rfl⟩ := List.map_eq_singleton_iff.1 hall
    exact Or.inl ⟨rfl, rfl⟩
  by_cases hnone : ts.map Token.lexeme = [.word "none".toList]
  · obtain ⟨⟨l, p⟩, rfl, rfl⟩ := List.map_eq_singleton_iff.1 hnone
    exact Or.inr (Or.inl ⟨rfl, rfl⟩)
  refine Or.inr (Or.inr ⟨hall, hnone, ?_⟩)
  unfold keyword?
  split
  · rename_i w p
    rw [if_neg fun h => hall (by rw [h]; rfl), if_neg fun h => hnone (by rw [h]; rfl)]
  · rfl

theorem exists_derivesStage {number : List Char → Int → Prop} {ls : List Lexeme} {f : Filter}
    (h : Derives number .disjunction ls f) : ∃ g, DerivesStage number ls g := by
  by_cases hall : ls = [.word "all".toList]
  · exact ⟨.all, hall ▸ .all⟩
  by_cases hnone : ls = [.word "none".toList]
  · exact ⟨.none, hnone ▸ .none⟩
  · exact ⟨f, .filter hall hnone h⟩

/-- The outcome of reading tokens to their end. -/
def wholly {α : Type} (x : Except ParseError α) : Except ParseError (α × List Token) :=
  x.map fun a => (a, [])

theorem wholly_bind {α β : Type} (x : Except ParseError α) (k : α → Except ParseError β) :
    wholly (x.bind k) = x.bind fun a => wholly (k a) := by
  cases x <;> rfl

theorem wholly_map {α β : Type} (x : Except ParseError α) (g : α → β) :
    wholly (x.map g) = (wholly x).map fun y => (g y.1, y.2) := by
  cases x <;> rfl

theorem parseStage_meets (stop : Nat) (ts : List Token) :
    Meets (DerivesStage reads) (StopsAfter (DerivesStage reads)) stop [] ts
      (wholly (parseStage stop ts)) := by
  have hstage : ∀ ls f, Derives reads .disjunction ls f → Viable (DerivesStage reads) ls := by
    intro ls f hf
    obtain ⟨g, hg⟩ := exists_derivesStage hf
    exact .of_derives hg
  have herror : ∀ ls, StopsAfter (Derives reads .disjunction) ls →
      StopsAfter (DerivesStage reads) ls := by
    intro ls hls
    show StopsAfter _ ([] ++ ls)
    exact hls.lift hstage
  by_cases hne : ts = []
  · subst hne
    rw [parseStage_nil]
    exact .error (herror [] (stopsAfter_nil .disjunction))
  rcases keyword?_cases ts with ⟨hls, hkeyword⟩ | ⟨hls, hkeyword⟩ | ⟨hall, hnone, hkeyword⟩
  · rw [parseStage_keyword hkeyword]
    exact ⟨ts, (List.append_nil ts).symm, by rw [List.nil_append, hls]; exact .all⟩
  · rw [parseStage_keyword hkeyword]
    exact ⟨ts, (List.append_nil ts).symm, by rw [List.nil_append, hls]; exact .none⟩
  · have hread := (descent_reads stop).2.1 ts
    rw [parseStage_filter hne hkeyword, wholly_bind]
    refine Meets.bind hread herror fun used rest f hts hf => ?_
    by_cases hrest : rest = []
    · subst hrest
      rw [List.append_nil] at hts
      subst hts
      rw [if_pos rfl]
      exact .ok (.filter hall hnone hf)
    · rw [if_neg hrest]
      exact .error (Or.inl (hstage _ f hf))

/-! ### The stages of a query -/

/-- The tokens of a query cut at its arrows, each stage with the position where it ends. -/
inductive Staged (stop : Nat) : List Token → List (List Token × Nat) → Prop where
  | last (ts : List Token) (h : .arrow ∉ ts.map Token.lexeme) : Staged stop ts [(ts, stop)]
  | step (ts : List Token) {more : List Token} {arrow : Token} {parts : List (List Token × Nat)}
      (h : .arrow ∉ ts.map Token.lexeme) (harrow : arrow.lexeme = .arrow)
      (hmore : Staged stop more parts) :
      Staged stop (ts ++ arrow :: more) ((ts, arrow.position) :: parts)

theorem staged_stages (stop : Nat) (ts : List Token) :
    Staged stop ts ((stages stop ts).1 :: (stages stop ts).2) := by
  induction ts with
  | nil => exact .last [] List.not_mem_nil
  | cons t ts ih =>
    rw [stages]
    generalize stages stop ts = parts at ih
    obtain ⟨first, rest⟩ := parts
    by_cases harrow : t.lexeme = .arrow
    · simp only [if_pos harrow]
      exact .step [] List.not_mem_nil harrow ih
    · simp only [if_neg harrow]
      cases ih with
      | last _ h => exact .last (t :: ts) (by simp [h, Ne.symm harrow])
      | step before h harrow' hmore =>
        exact .step (t :: before) (by simp [h, Ne.symm harrow]) harrow' hmore

/-- The filters of stages, up to the first stage that is wrong. -/
def parseParts (parts : List (List Token × Nat)) : Except ParseError (List Filter) :=
  parts.mapM fun part => parseStage part.2 part.1

theorem parseParts_singleton {part : List Token × Nat} :
    parseParts [part] = (parseStage part.2 part.1).map fun f => [f] := by
  rw [parseParts, List.mapM_cons, List.mapM_nil]
  cases parseStage part.2 part.1 <;> rfl

theorem parseParts_cons {part : List Token × Nat} {parts : List (List Token × Nat)} :
    parseParts (part :: parts) =
      (parseStage part.2 part.1).bind fun f => (parseParts parts).map fun fs => f :: fs := by
  rw [parseParts, List.mapM_cons, parseParts]
  cases parseStage part.2 part.1 with
  | error e => rfl
  | ok f => cases parts.mapM fun part => parseStage part.2 part.1 <;> rfl

/-- Reading one part to its end and going on behind it. -/
theorem Meets.bind_part {α β : Type} {P : List Lexeme → α → Prop} {Q : List Lexeme → β → Prop}
    {D E : List Lexeme → Prop} {t : Token} {more : List Token} {x : Except ParseError α}
    {k : α → Except ParseError (β × List Token)}
    (hx : Meets P D t.position [] ts (wholly x)) (herror : ∀ ls, D ls → E ls)
    (hk : ∀ a, P (ts.map Token.lexeme) a → Meets Q E stop ts (t :: more) (k a)) :
    Meets Q E stop [] (ts ++ t :: more) (x.bind k) := by
  cases x with
  | error e =>
    obtain ⟨before, after, hsplit, hposition, hbefore⟩ := hx
    refine ⟨before, after ++ t :: more, ?_, ?_, herror _ hbefore⟩
    · rw [← List.append_assoc before, ← hsplit, List.append_assoc]
    · rw [hposition, positionOf_append_cons]
  | ok a =>
    obtain ⟨used, hsplit, ha⟩ := hx
    rw [List.append_nil] at hsplit
    subst hsplit
    exact Meets.of_done (hk a ha)

theorem Staged.meets {parts : List (List Token × Nat)} (h : Staged stop ts parts) :
    Meets (DerivesStages reads) (StopsAfter (DerivesStages reads)) stop [] ts
      (wholly (parseParts parts)) := by
  have hfirst : ∀ ls, StopsAfter (DerivesStage reads) ls →
      StopsAfter (DerivesStages reads) ls := by
    intro ls hls
    show StopsAfter _ ([] ++ ls)
    exact hls.lift fun ms f hf => .of_derives hf.derivesStages
  induction h with
  | last ts hnone =>
    rw [parseParts_singleton, wholly_map]
    refine Meets.map (g := fun f => [f]) (parseStage_meets stop ts) ?_ ?_
    · exact hfirst
    · intro ls f hf
      exact hf.derivesStages
  | @step ts more arrow parts hnone harrow hmore ih =>
    rw [parseParts_cons, wholly_bind]
    refine (parseStage_meets arrow.position ts).bind_part hfirst fun f hf => ?_
    have hstep : ∀ ls fs, DerivesStages reads ls fs →
        DerivesStages reads ((ts ++ [arrow]).map Token.lexeme ++ ls) (f :: fs) := by
      intro ls fs hfs
      simpa [harrow] using (derivesStages_append_iff hnone).2 ⟨f, fs, rfl, hf, hfs⟩
    rw [wholly_map]
    refine Meets.of_cons (Meets.map ih ?_ hstep)
    intro ls hls
    exact hls.lift fun ms fs hfs => .of_derives (hstep ms fs hfs)

/-! ### Whole texts -/

theorem parseQueryChars_blank {s : List Char} (h : Text.allBlank s = true) :
    parseQueryChars s = .error ⟨.emptyQuery, 0⟩ := by
  rw [parseQueryChars, tokenize, if_pos h]
  rfl

theorem parseQueryChars_eq {s : List Char} (h : Text.allBlank s = false) :
    (parseQueryChars s).map Query.stageList =
      parseParts ((stages s.length (tokens s)).1 :: (stages s.length (tokens s)).2) := by
  rw [parseQueryChars, tokenize, if_neg (ne_true_of_eq_false h), parseParts_cons]
  simp only [bind, Except.bind]
  generalize stages s.length (tokens s) = parts
  obtain ⟨first, rest⟩ := parts
  simp only [parseParts]
  cases parseStage first.2 first.1 with
  | error e => rfl
  | ok f => cases rest.mapM fun st => parseStage st.2 st.1 <;> rfl

theorem parseQueryChars_meets {s : List Char} (h : Text.allBlank s = false) :
    Meets (DerivesStages reads) (StopsAfter (DerivesStages reads)) s.length [] (tokens s)
      (wholly ((parseQueryChars s).map Query.stageList)) := by
  rw [parseQueryChars_eq h]
  exact (staged_stages s.length (tokens s)).meets

theorem parseFilterChars_blank {s : List Char} (h : Text.allBlank s = true) :
    parseFilterChars s = .error ⟨.emptyQuery, 0⟩ := by
  rw [parseFilterChars, tokenize, if_pos h]
  rfl

theorem parseFilterChars_eq {s : List Char} (h : Text.allBlank s = false)
    (harrow : .arrow ∉ lexemes s) : parseFilterChars s = parseStage s.length (tokens s) := by
  have hnone : (tokens s).find? (fun t => t.lexeme = .arrow) = none := by
    rw [List.find?_eq_none]
    intro t ht hl
    exact harrow (List.mem_map.2 ⟨t, ht, by simpa using hl⟩)
  rw [parseFilterChars, tokenize, if_neg (ne_true_of_eq_false h)]
  simp only [bind, Except.bind, hnone]

theorem exists_parseFilterChars_arrow {s : List Char} (h : Text.allBlank s = false)
    (harrow : .arrow ∈ lexemes s) :
    ∃ p, parseFilterChars s = .error ⟨.arrowInFilter, p⟩ := by
  rw [parseFilterChars, tokenize, if_neg (ne_true_of_eq_false h)]
  simp only [bind, Except.bind]
  cases hfind : (tokens s).find? (fun t => t.lexeme = .arrow) with
  | none =>
    obtain ⟨t, ht, hl⟩ := List.mem_map.1 harrow
    exact absurd (by simpa using hl) (List.find?_eq_none.1 hfind t ht)
  | some t => exact ⟨t.position, rfl⟩

theorem parseFilterChars_eq_ok_iff_parseStage {s : List Char} {f : Filter} :
    parseFilterChars s = .ok f ↔ Text.allBlank s = false ∧ .arrow ∉ lexemes s ∧
      parseStage s.length (tokens s) = .ok f := by
  by_cases hblank : Text.allBlank s = true
  · rw [parseFilterChars_blank hblank]
    simp [hblank]
  · rw [Bool.not_eq_true] at hblank
    by_cases harrow : .arrow ∈ lexemes s
    · obtain ⟨p, hp⟩ := exists_parseFilterChars_arrow hblank harrow
      rw [hp]
      simp [harrow]
    · rw [parseFilterChars_eq hblank harrow]
      simp [hblank, harrow]

end TodoLists.Query
