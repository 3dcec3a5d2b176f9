import TodoLists.Proofs.Query.Completeness

/-!
# Which texts are queries

The parser accepts the texts of the grammar and gives the filters that their derivations build. The
only thing that the grammar does not say is how long a numeral may be.
-/

namespace TodoLists.Query

/-- The numerals among the tokens of a text are read as the numbers they are. -/
theorem reads_iff_of_mem {s n : List Char} {k : Int} (h : .priority n ∈ lexemes s) :
    reads n k ↔ Text.IsReadable n k :=
  Text.readInt?_eq_some_iff (isCut_of_mem_lexemes h)

theorem derivesStages_reads_iff {s : List Char} {fs : List Filter} :
    DerivesStages reads (lexemes s) fs ↔ DerivesStages Text.IsReadable (lexemes s) fs :=
  ⟨fun h => h.mono fun _ hn _ => (reads_iff_of_mem hn).1,
    fun h => h.mono fun _ hn _ => (reads_iff_of_mem hn).2⟩

theorem onText_eq_ok_iff {α : Type} {parse : List Char → Except ParseError α} {text : String}
    {a : α} : onText parse text = .ok a ↔ parse text.toList = .ok a := by
  unfold onText
  cases parse text.toList with
  | error e => exact ⟨nofun, nofun⟩
  | ok b => simp only [Except.ok.injEq]

/-- The parser accepts exactly the texts of the grammar, with numerals that are not too long. -/
theorem parseQuery_eq_ok_iff (text : String) (q : Query) :
    parseQuery text = .ok q ↔ Text.allBlank text.toList = false ∧
      DerivesQuery Text.IsReadable (lexemes text.toList) q := by
  rw [parseQuery, onText_eq_ok_iff, parseQueryChars_eq_ok_iff]
  exact and_congr_right fun _ => derivesStages_reads_iff

/-! ### Long numerals -/

/-- One digit more than a numeral may have. -/
def longNumeral : List Char := List.replicate (Text.maxDigits + 1) '1'

theorem isDecimal_longNumeral : Text.IsDecimal longNumeral
    (Nat.ofDigits 10 (List.replicate (Text.maxDigits + 1) 1).reverse) := by
  refine ⟨List.replicate (Text.maxDigits + 1) 1, ?_, ?_, rfl⟩
  · rw [List.replicate_succ]
    exact List.cons_ne_nil _ _
  · rw [longNumeral, List.map_replicate, List.map_replicate]
    rfl

theorem isSigned_longNumeral : Text.IsSigned longNumeral :=
  Text.isSigned_of_isNumeral (.unsigned isDecimal_longNumeral)

theorem not_reads_longNumeral (k : Int) : ¬ reads longNumeral k := by
  intro h
  have hlength := ((Text.readInt?_eq_some_iff isSigned_longNumeral).1 h).2
  rw [longNumeral, List.countP_replicate, if_pos (by decide)] at hlength
  omega

theorem lexemes_longNumeral : lexemes ('^' :: longNumeral) = [.priority longNumeral] :=
  lexemes_text (l := .priority longNumeral) isSigned_longNumeral

/-- A priority of 4301 digits derives a query in the grammar alone, and the parser refuses it. -/
theorem parseQuery_refuses_long_numeral :
    ¬ ∀ (text : String) (q : Query), parseQuery text = .ok q ↔
      Text.allBlank text.toList = false ∧ DerivesQuery Text.IsNumeral (lexemes text.toList) q := by
  intro hall
  have hderives : ∃ f, DerivesStage Text.IsNumeral [.priority longNumeral] f :=
    exists_derivesStage (.conjunction (.unary (.primary
      (.priority (.unsigned isDecimal_longNumeral)))))
  obtain ⟨f, hf⟩ := hderives
  have haccepted : parseQuery (String.ofList ('^' :: longNumeral)) = .ok (Query.of f) := by
    rw [hall, String.toList_ofList, lexemes_longNumeral]
    refine ⟨allBlank_eq_false_iff.2 ?_, hf.derivesStages⟩
    rw [lexemes_longNumeral]
    exact List.cons_ne_nil _ _
  rw [parseQuery, onText_eq_ok_iff, String.toList_ofList, parseQueryChars_eq_ok_iff,
    lexemes_longNumeral] at haccepted
  obtain ⟨g, -, hg⟩ := (derivesStages_iff_of_notMem (by simp)).1 haccepted.2
  cases hg with
  | filter _ _ h =>
    obtain ⟨k, hk⟩ := h.exists_number List.mem_cons_self
    exact not_reads_longNumeral k hk

end TodoLists.Query
