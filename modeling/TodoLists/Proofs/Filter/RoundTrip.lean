import TodoLists.Proofs.Filter.Spelling

/-!
# Printing and parsing

Every canonical filter is what the parser makes of its printed text, and so is every query of
canonical filters. A name that is spelt like a keyword is printed in parentheses, so its text is not
the keyword alone. What has no text is a filter with a priority too long to be written.
-/

namespace TodoLists.Filter

open Query

theorem Canonical.derivesStage {f : Filter} (h : f.Canonical) (hwritable : f.isWritable = true) :
    DerivesStage reads (lexemes f.print) f := by
  rcases h with rfl | rfl | h
  · exact derivesStage_print .all
  · exact derivesStage_print .none
  · have hstage := derivesStage_print (h.spellable hwritable)
    rwa [h.reread_eq] at hstage

theorem derivesStages_print {f : Filter} {fs : List Filter}
    (h : ∀ g ∈ f :: fs, g.Canonical ∧ g.isWritable = true) :
    DerivesStages reads (lexemes (joinWith " => ".toList ((f :: fs).map print))) (f :: fs) := by
  induction fs generalizing f with
  | nil =>
    obtain ⟨hcanonical, hwritable⟩ := h f List.mem_cons_self
    exact (hcanonical.derivesStage hwritable).derivesStages
  | cons g gs ih =>
    obtain ⟨hf, hrest⟩ := List.forall_mem_cons.1 h
    have hstage := hf.1.derivesStage hf.2
    have hjoin : lexemes (joinWith " => ".toList ((f :: g :: gs).map print)) =
        lexemes f.print ++ .arrow :: lexemes (joinWith " => ".toList ((g :: gs).map print)) :=
      lexemes_separator (l := .arrow) trivial f.print _
    rw [hjoin, derivesStages_append_iff hstage.arrow_notMem]
    exact ⟨f, g :: gs, rfl, hstage, ih hrest⟩

theorem parseFilter_print {f : Filter} (h : f.Canonical) (hwritable : f.isWritable = true) :
    parseFilter (String.ofList f.print) = .ok f := by
  rw [parseFilter, onText_eq_ok_iff, String.toList_ofList, parseFilterChars_eq_ok_iff]
  exact h.derivesStage hwritable

theorem parseQuery_print {q : TodoLists.Query}
    (h : ∀ f ∈ q.stageList, f.Canonical ∧ f.isWritable = true) :
    parseQuery (String.ofList q.print) = .ok q := by
  have hderives : DerivesQuery reads (lexemes q.print) q := derivesStages_print h
  rw [parseQuery, onText_eq_ok_iff, String.toList_ofList, parseQueryChars_eq_ok_iff]
  exact ⟨allBlank_eq_false_iff.2 hderives.ne_nil, hderives⟩

/-- Printing and then parsing gives the filter or the query back. -/
theorem parse_print :
    (∀ f : Filter, f.Canonical → f.isWritable = true →
      ∃ text, f.print? = some text ∧ parseFilter (String.ofList text) = .ok f) ∧
    ∀ q : TodoLists.Query, (∀ f ∈ q.stageList, f.Canonical ∧ f.isWritable = true) →
      ∃ text, q.print? = some text ∧ parseQuery (String.ofList text) = .ok q := by
  constructor
  · intro f h hwritable
    exact ⟨f.print, if_pos hwritable, parseFilter_print h hwritable⟩
  · intro q h
    have hall := allWritable_iff.2 fun f hf => (h f hf).2
    exact ⟨q.print, if_pos hall, parseQuery_print h⟩

/-- A range the wrong way round and a name like a keyword inside a negation, and a keyword beside a
name that is spelt like it. -/
theorem parse_print_keywords :
    (∃ text,
      (Filter.not (.and [.name "all", .status ⟨.excluding .completed, .including .waiting⟩,
        .or [.name "inf", .priority ⟨.unbounded, .excluding (-3)⟩]])).print? = some text ∧
      parseFilter (String.ofList text) = .ok
        (.not (.and [.name "all", .status ⟨.excluding .completed, .including .waiting⟩,
          .or [.name "inf", .priority ⟨.unbounded, .excluding (-3)⟩]]))) ∧
    ∃ text, (⟨.all, [.name "all"]⟩ : TodoLists.Query).print? = some text ∧
      parseQuery (String.ofList text) = .ok ⟨.all, [.name "all"]⟩ := by
  have hall : Regular (.name "all") := .name (by decide)
  have hinf : Regular (.name "inf") := .name (by decide)
  have hor : Regular (.or [.name "inf", .priority ⟨.unbounded, .excluding (-3)⟩]) := by
    refine .or (by decide) (by simp [isOr]) ?_
    simpa using ⟨hinf, Regular.priority (Or.inr nofun)⟩
  have hand : Regular (.and [.name "all", .status ⟨.excluding .completed, .including .waiting⟩,
      .or [.name "inf", .priority ⟨.unbounded, .excluding (-3)⟩]]) := by
    refine .and (by decide) (by simp [isAnd]) ?_
    simpa using ⟨hall, .status _, hor⟩
  constructor
  · exact parse_print.1 _ (Or.inr (Or.inr (.not hand))) (by decide +kernel)
  · refine parse_print.2 _ ?_
    simpa [Query.stageList] using
      ⟨⟨Or.inl rfl, rfl⟩, (Or.inr (Or.inr hall) : Canonical (.name "all")), rfl⟩

/-! ### Long numerals -/

/-- A canonical filter with a priority of 4301 digits has no text. -/
theorem print?_refuses_long_numeral :
    ¬ ∀ f : Filter, f.Canonical →
      ∃ text, f.print? = some text ∧ parseFilter (String.ofList text) = .ok f := by
  intro hall
  have hcanonical : ∀ n, Canonical (.priority (.only n)) :=
    fun n => Or.inr (Or.inr (.priority (Or.inl nofun)))
  obtain ⟨text, hprint, -⟩ := hall _ (hcanonical ((10 ^ Text.maxDigits : Nat) : Int))
  have hwritable :
      (Filter.priority (.only ((10 ^ Text.maxDigits : Nat) : Int))).isWritable = false := by
    rw [isWritable, Range.all, Range.only, Limit.all, Text.isWritable_ten_pow]
    rfl
  rw [print?, hwritable] at hprint
  cases hprint

end TodoLists.Filter
