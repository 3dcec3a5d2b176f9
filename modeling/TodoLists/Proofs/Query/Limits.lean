import TodoLists.Proofs.Query.Grammar

/-!
# Limits of different kinds

Every `...` in a derivation is that of one range, whose limits are of one kind. So once a text has a
status and a priority on the two sides of a `...`, nothing that follows makes a query of it.
-/

namespace TodoLists.Query

variable {number : List Char → Int → Prop}

/-- Two limits that no range joins. -/
inductive Clash : Lexeme → Lexeme → Prop where
  | statusFirst (w n : List Char) : Clash (.status w) (.priority n)
  | priorityFirst (n w : List Char) : Clash (.priority n) (.status w)

/-- The lexemes end in two limits of different kinds around `...`. -/
def MixesLimits (ls : List Lexeme) : Prop :=
  ∃ before a b, Clash a b ∧ ls = before ++ [a, .dots, b]

/-- What stands before a `...` and what stands after it, when it is that of a range. -/
inductive Joined (number : List Char → Int → Prop) : List Lexeme → List Lexeme → Prop where
  | mk (before after : List Lexeme) {low high : List Lexeme} {opener closer : Lexeme} {i j : Bool}
      {a b : Option Value} (hopen : Opens opener i) (hlow : DerivesLimit number low a)
      (hhigh : DerivesLimit number high b) (hclose : Closes closer j)
      (hkind : ∀ x ∈ a, ∀ y ∈ b, x.sameKind y = true) :
      Joined number (before ++ opener :: low) (high ++ closer :: after)

theorem Joined.append_left {before after : List Lexeme} (h : Joined number before after)
    (xs : List Lexeme) : Joined number (xs ++ before) after := by
  obtain ⟨before, after, hopen, hlow, hhigh, hclose, hkind⟩ := h
  rw [← List.append_assoc]
  exact .mk (xs ++ before) after hopen hlow hhigh hclose hkind

theorem Joined.append_right {before after : List Lexeme} (h : Joined number before after)
    (ys : List Lexeme) : Joined number before (after ++ ys) := by
  obtain ⟨before, after, hopen, hlow, hhigh, hclose, hkind⟩ := h
  rw [List.append_assoc, List.cons_append]
  exact .mk before (after ++ ys) hopen hlow hhigh hclose hkind

/-- The last lexeme before a `...` is the opening bracket or the whole limit. -/
theorem DerivesLimit.last_eq {before low ls : List Lexeme} {opener l : Lexeme} {a : Option Value}
    (hlow : DerivesLimit number low a) (h : before ++ opener :: low = ls ++ [l]) :
    opener = l ∨ low = [l] := by
  have hlast := congrArg List.getLast? h
  cases hlow with
  | omitted => exact Or.inl (by simpa using hlast)
  | unbounded | status | priority => exact Or.inr (by simpa using hlast)

/-- The first lexeme after a `...` is the closing bracket or the whole limit. -/
theorem DerivesLimit.head_eq {after high ls : List Lexeme} {closer l : Lexeme} {b : Option Value}
    (hhigh : DerivesLimit number high b) (h : high ++ closer :: after = l :: ls) :
    closer = l ∨ high = [l] := by
  have hhead := congrArg List.head? h
  cases hhigh with
  | omitted => exact Or.inl (by simpa using hhead)
  | unbounded | status | priority => exact Or.inr (by simpa using hhead)

theorem Joined.not_clash {before after : List Lexeme} {l m : Lexeme}
    (h : Joined number (before ++ [l]) (m :: after)) : ¬ Clash l m := by
  generalize hx : before ++ [l] = x at h
  generalize hy : m :: after = y at h
  obtain ⟨before, after, hopen, hlow, hhigh, hclose, hkind⟩ := h
  intro hclash
  rcases hlow.last_eq hx.symm with rfl | rfl
  · cases hopen <;> cases hclash
  rcases hhigh.head_eq hy.symm with rfl | rfl
  · cases hclose <;> cases hclash
  cases hclash with
  | statusFirst =>
    cases hlow
    cases hhigh
    exact absurd (hkind _ rfl _ rfl) Bool.false_ne_true
  | priorityFirst =>
    cases hlow
    cases hhigh
    exact absurd (hkind _ rfl _ rfl) Bool.false_ne_true

theorem DerivesRange.joined {ls before after : List Lexeme} {f : Filter}
    (h : DerivesRange number ls f) (hls : ls = before ++ .dots :: after) :
    Joined number before after := by
  obtain ⟨opener, closer, low, high, _, _, _, _, _, rfl, hopen, hlow, hhigh, hclose, hrange, -⟩ :=
    h.exists_limits
  -- a range holds no other `...` than its own
  have hbefore : Lexeme.dots ∉ opener :: low := by
    have hd := hlow.notMem.2
    cases hopen <;> simp [hd]
  have hafter : Lexeme.dots ∉ high ++ [closer] := by
    have hd := hhigh.notMem.2
    cases hclose <;> simp [hd]
  rw [← List.cons_append] at hls
  obtain ⟨rfl, -, rfl⟩ := (List.append_cons_inj_of_notMem hbefore hafter).1 hls
  exact .mk [] [] hopen hlow hhigh hclose (sameKind_of_range? hrange)

/-- Where an element of `xs ++ ys` splits the list, it splits `xs` or `ys`. -/
theorem append_eq_append_cons {xs ys before after : List Lexeme} {l : Lexeme}
    (h : xs ++ ys = before ++ l :: after) :
    (∃ more, xs = before ++ l :: more ∧ after = more ++ ys) ∨
      ∃ more, ys = more ++ l :: after ∧ before = xs ++ more := by
  rcases List.append_eq_append_iff.1 h with ⟨as, rfl, hys⟩ | ⟨bs, rfl, hafter⟩
  · exact Or.inr ⟨as, hys, rfl⟩
  · cases bs with
    | nil => exact Or.inr ⟨[], hafter.symm, by simp⟩
    | cons b bs =>
      obtain ⟨rfl, rfl⟩ := List.cons.inj hafter
      exact Or.inl ⟨bs, rfl, rfl⟩

theorem Derives.joined {c : Category} {ls : List Lexeme} {f : Filter} (h : Derives number c ls f)
    {before after : List Lexeme} (hls : ls = before ++ .dots :: after) :
    Joined number before after := by
  induction h generalizing before after with
  | word | tag | status | priority => simp [List.cons_eq_append_iff] at hls
  | range h => exact h.joined hls
  | primary _ ih | unary _ ih | conjunction _ ih => exact ih hls
  | group _ ih =>
    cases before with
    | nil => exact absurd (List.cons.inj hls).1 (by decide)
    | cons l before =>
      rcases append_eq_append_cons (List.cons.inj hls).2 with ⟨more, h, rfl⟩ | ⟨more, h, rfl⟩
      · exact ((ih h).append_left [l]).append_right _
      · simp [List.cons_eq_append_iff] at h
  | not _ ih =>
    cases before with
    | nil => exact absurd (List.cons.inj hls).1 (by decide)
    | cons l before => exact (ih (List.cons.inj hls).2).append_left [l]
  | and _ _ ihf ihg =>
    rcases append_eq_append_cons hls with ⟨more, h, rfl⟩ | ⟨more, h, rfl⟩
    · exact (ihf h).append_right _
    · cases more with
      | nil => exact absurd (List.cons.inj h).1 (by decide)
      | cons l more => exact ((ihg (List.cons.inj h).2).append_left [l]).append_left _
  | or _ _ ihf ihg =>
    rcases append_eq_append_cons hls with ⟨more, h, rfl⟩ | ⟨more, h, rfl⟩
    · exact (ihf h).append_right _
    · exact (ihg h).append_left _

theorem DerivesStage.joined {ls before after : List Lexeme} {f : Filter}
    (h : DerivesStage number ls f) (hls : ls = before ++ .dots :: after) :
    Joined number before after := by
  cases h with
  | all | none => simp [List.cons_eq_append_iff] at hls
  | filter _ _ h => exact h.joined hls

theorem DerivesStages.joined {ls before after : List Lexeme} {fs : List Filter}
    (h : DerivesStages number ls fs) (hls : ls = before ++ .dots :: after) :
    Joined number before after := by
  induction ls using arrow_induction generalizing fs before after with
  | last ls hnone =>
    obtain ⟨f, -, hf⟩ := (derivesStages_iff_of_notMem hnone).1 h
    exact hf.joined hls
  | step ls ms hnone ih =>
    obtain ⟨f, gs, -, hf, hgs⟩ := (derivesStages_append_iff hnone).1 h
    rcases append_eq_append_cons hls with ⟨more, hfirst, rfl⟩ | ⟨more, hrest, rfl⟩
    · exact (hf.joined hfirst).append_right _
    · cases more with
      | nil => exact absurd (List.cons.inj hrest).1 (by decide)
      | cons l more => exact ((ih hgs (List.cons.inj hrest).2).append_left [l]).append_left _

/-- What ends in limits of different kinds is the beginning of no query. -/
theorem DerivesStages.not_mixesLimits {before after : List Lexeme} {fs : List Filter}
    (h : DerivesStages number (before ++ after) fs) : ¬ MixesLimits before := by
  rintro ⟨first, a, b, hclash, rfl⟩
  have hjoined : Joined number (first ++ [a]) (b :: after) := h.joined (by simp)
  exact hjoined.not_clash hclash

end TodoLists.Query
