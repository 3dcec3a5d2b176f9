import TodoLists.Desk
import TodoLists.Proofs.Query.Acceptance
import TodoLists.Proofs.Query.Spacing

/-!
# Blanks around what is asked of a desk

Blanks in front of a line of quick entry and behind it do not change the item that it describes, and
those around a query do not change what it finds. A query that is refused is refused with them too,
but the place of the error moves.
-/

namespace TodoLists

variable {a b s : List Char}

/-! ### Quick entry -/

namespace Draft

theorem not_isTagChar_of_isBlank {c : Char} (h : Text.isBlank c = true) : isTagChar c = false := by
  simp [isTagChar, h]

theorem takeTags_blank_append (ha : Text.allBlank a = true) (s : List Char) :
    takeTags (a ++ s) = ((takeTags s).1, a ++ (takeTags s).2) := by
  induction a with
  | nil => rfl
  | cons c a ih =>
    rw [Text.allBlank, List.all_cons, Bool.and_eq_true] at ha
    have hc : c ≠ '#' := by
      rintro rfl
      exact absurd ha.1 (by decide)
    rw [List.cons_append, takeTags, if_neg hc, ih ha.2]
    rfl

/-- A tag ends before a blank. -/
theorem takeWhile_isTagChar_append (s : List Char) (hb : Text.allBlank b = true) :
    (s ++ b).takeWhile isTagChar = s.takeWhile isTagChar ∧
      (s ++ b).dropWhile isTagChar = s.dropWhile isTagChar ++ b := by
  induction s with
  | nil =>
    cases b with
    | nil => exact ⟨rfl, rfl⟩
    | cons c b =>
      have hc := not_isTagChar_of_isBlank (Text.allBlank_iff.1 hb c List.mem_cons_self)
      simp [hc]
  | cons c s ih =>
    by_cases hc : isTagChar c = true
    · simp [hc, ih]
    · simp [hc]

theorem takeTags_append_blank (s : List Char) (hb : Text.allBlank b = true) :
    takeTags (s ++ b) = ((takeTags s).1, (takeTags s).2 ++ b) := by
  fun_induction takeTags s with
  | case1 =>
    have hnil := takeTags_blank_append hb []
    rwa [List.append_nil, takeTags, List.append_nil] at hnil
  | case2 cs tags rest hrest ih =>
    obtain ⟨htake, hdrop⟩ := takeWhile_isTagChar_append cs hb
    rw [List.cons_append, takeTags, if_pos rfl, htake, hdrop, ih, hrest]
  | case3 c cs hc tags rest hrest ih =>
    rw [List.cons_append, takeTags, if_neg hc, ih, hrest]
    rfl

theorem ofLine_blank_append (ha : Text.allBlank a = true) (s : List Char) :
    ofLine (a ++ s) = ofLine s := by
  have hcolon : ':' ∉ a := fun h => absurd (Text.allBlank_iff.1 ha _ h) (by decide)
  rw [ofLine, ofLine, tagsIn, tagsIn, takeTags_blank_append ha, Text.cut_append hcolon,
    Text.squeeze_blank_append ha]

theorem ofLine_append_blank (s : List Char) (hb : Text.allBlank b = true) :
    ofLine (s ++ b) = ofLine s := by
  have hcolon : ':' ∉ b := fun h => absurd (Text.allBlank_iff.1 hb _ h) (by decide)
  rw [ofLine, ofLine, tagsIn, tagsIn, takeTags_append_blank s hb]
  rcases Text.cut_append_of_not_mem (takeTags s).2 hcolon with
    ⟨before, after, hcut, hlong⟩ | ⟨hcut, hlong⟩
  · simp only [hcut, hlong, Option.getD_some, Text.squeeze_append_blank after hb]
  · simp only [hcut, hlong, Option.getD_none, Text.squeeze_append_blank _ hb]

/-- Blanks around a line make no difference. -/
theorem ofLine_strip (s : List Char) : ofLine (Text.strip s) = ofLine s := by
  obtain ⟨a, b, ha, hb, hs⟩ := Text.exists_strip s
  conv_rhs => rw [hs, ofLine_blank_append ha, ofLine_append_blank _ hb]

end Draft

/-! ### Queries -/

namespace Query

/-- What a text is read as is settled by its lexemes. -/
theorem parseQuery_congr {text text' : String} (h : lexemes text.toList = lexemes text'.toList)
    (q : Query) : parseQuery text = .ok q ↔ parseQuery text' = .ok q := by
  rw [parseQuery_eq_ok_iff, parseQuery_eq_ok_iff, allBlank_eq_false_iff, allBlank_eq_false_iff, h]

end Query

/-! ### Outcomes -/

namespace Desk

variable {α β γ : Type}

/-- The outcomes leave the same desk, and they are both faults or both results. -/
structure Agree (r : Except Fault α × Desk) (r' : Except Fault β × Desk) : Prop where
  desk : r.2 = r'.2
  fails : (∃ f, r.1 = .error f) ↔ ∃ f, r'.1 = .error f

namespace Agree

variable {r : Except Fault α × Desk} {r' : Except Fault β × Desk} {r'' : Except Fault γ × Desk}

theorem refl (r : Except Fault α × Desk) : Agree r r := ⟨rfl, Iff.rfl⟩

theorem symm (h : Agree r r') : Agree r' r := ⟨h.desk.symm, h.fails.symm⟩

theorem trans (h : Agree r r') (h' : Agree r' r'') : Agree r r'' :=
  ⟨h.desk.trans h'.desk, h.fails.trans h'.fails⟩

/-- The result may be put in other words. -/
theorem map (g : α → β) (r : Except Fault α × Desk) : Agree (r.1.map g, r.2) r := by
  obtain ⟨f | v, d⟩ := r
  · exact ⟨rfl, fun _ => ⟨f, rfl⟩, fun _ => ⟨f, rfl⟩⟩
  · refine ⟨rfl, ?_, ?_⟩ <;> rintro ⟨_, ⟨⟩⟩

theorem of_errors (f f' : Fault) (d : Desk) :
    Agree ((.error f : Except Fault α), d) ((.error f' : Except Fault β), d) :=
  ⟨rfl, fun _ => ⟨f', rfl⟩, fun _ => ⟨f, rfl⟩⟩

end Agree

theorem add_strip (d : Desk) (s : List Char) :
    d.add (String.ofList (Text.strip s)) = d.add (String.ofList s) := by
  rw [add, add, String.toList_ofList, String.toList_ofList, Draft.ofLine_strip]

theorem matchingIds_cases {query query' : String}
    (h : ∀ q, Query.parseQuery query = .ok q ↔ Query.parseQuery query' = .ok q) (d : Desk) :
    (∃ f f', d.matchingIds query = .error f ∧ d.matchingIds query' = .error f') ∨
      d.matchingIds query = d.matchingIds query' := by
  cases hquery : Query.parseQuery query with
  | ok q => exact Or.inr (by rw [matchingIds, matchingIds, hquery, (h q).1 hquery])
  | error e =>
    cases hquery' : Query.parseQuery query' with
    | ok q =>
      rw [(h q).2 hquery'] at hquery
      cases hquery
    | error e' => exact Or.inl ⟨.query e, .query e', by rw [matchingIds, hquery]; rfl,
        by rw [matchingIds, hquery']; rfl⟩

/-- Blanks around a query make no difference but to the place of an error. -/
theorem change_strip (d : Desk) (s : List Char) (f : ItemList → List ItemId → ItemList) :
    Agree (d.change (String.ofList (Text.strip s)) f) (d.change (String.ofList s) f) := by
  have hlexemes : Query.lexemes (String.ofList (Text.strip s)).toList =
      Query.lexemes (String.ofList s).toList := by
    rw [String.toList_ofList, String.toList_ofList, Query.lexemes_strip]
  rcases matchingIds_cases (Query.parseQuery_congr hlexemes) d with ⟨e, e', he, he'⟩ | heq
  · rw [change, change, he, he']
    exact .of_errors e e' d
  · rw [change, change, heq]
    exact .refl _

end Desk

end TodoLists
