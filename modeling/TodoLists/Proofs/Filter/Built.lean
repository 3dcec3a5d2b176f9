import TodoLists.Proofs.Filter.Spelling
import TodoLists.Proofs.Query.Support

/-!
# Filters that are built from parts

Conditions on statuses, tags and names, and the filters that let everything or nothing through, are
joined and negated to any depth. Whatever comes of it is printed as a text that can be parsed. The
text means the filter unless a filter that lets everything or nothing through stands inside it: such
a part comes back as a name.
-/

namespace TodoLists.Filter

open Query

/-- The filter comes from these parts by joining and negating; tags and names are words. -/
inductive Built : Filter → Prop where
  | all : Built .all
  | none : Built .none
  | status (r : Range Status) : Built (.status r)
  | tag {t : String} (h : IsWord t.toList) : Built (.tag t)
  | name {n : String} (h : IsWord n.toList) : Built (.name n)
  | both {f g : Filter} (hf : Built f) (hg : Built g) : Built (f.both g)
  | either {f g : Filter} (hf : Built f) (hg : Built g) : Built (f.either g)
  | not {f : Filter} (h : Built f) : Built (.not f)

/-! ### Built filters have a text -/

theorem Spellable.conjuncts {f : Filter} (h : f.Spellable) :
    f.conjuncts ≠ [] ∧ ∀ g ∈ f.conjuncts, g.isAnd = false ∧ g.Spellable := by
  refine forall_conjuncts (fun fs hfs => ?_) h
  cases hfs with
  | and hlength hkind h => exact ⟨ne_nil_of_two_le_length hlength, fun g hg => ⟨hkind g hg, h g hg⟩⟩

theorem Spellable.disjuncts {f : Filter} (h : f.Spellable) :
    f.disjuncts ≠ [] ∧ ∀ g ∈ f.disjuncts, g.isOr = false ∧ g.Spellable := by
  refine forall_disjuncts (fun fs hfs => ?_) h
  cases hfs with
  | or hlength hkind h => exact ⟨ne_nil_of_two_le_length hlength, fun g hg => ⟨hkind g hg, h g hg⟩⟩

theorem Spellable.both {f g : Filter} (hf : f.Spellable) (hg : g.Spellable) :
    (f.both g).Spellable := by
  obtain ⟨hlength, hkind, h⟩ := joined_parts hf.conjuncts hg.conjuncts
  exact .and hlength hkind h

theorem Spellable.either {f g : Filter} (hf : f.Spellable) (hg : g.Spellable) :
    (f.either g).Spellable := by
  obtain ⟨hlength, hkind, h⟩ := joined_parts hf.disjuncts hg.disjuncts
  exact .or hlength hkind h

theorem Built.spellable {f : Filter} (h : f.Built) : f.Spellable := by
  induction h with
  | all => exact .all
  | none => exact .none
  | status r => exact .status r
  | tag h => exact .tag h
  | name h => exact .name h
  | both _ _ hf hg => exact hf.both hg
  | either _ _ hf hg => exact hf.either hg
  | not _ h => exact .not h

/-! ### What the text means -/

/-- The keywords `all` and `none` stand nowhere in the filter, unless one is the whole filter. -/
def KeepsKeywordsApart (f : Filter) : Prop := ∀ k, OccursIn k f → k = .all ∨ k = .none → k = f

/-- Without keywords in it a filter is spelt as it is. -/
theorem spelled_eq_self {f : Filter} (hall : ¬ OccursIn .all f) (hnone : ¬ OccursIn .none f) :
    f.spelled = f := by
  induction f using induction_on_parts with
  | all => exact absurd (.refl _) hall
  | none => exact absurd (.refl _) hnone
  | status | priority | tag | name => rfl
  | and fs ih =>
    have hparts : ∀ f ∈ fs, f.spelled = f := fun f hf =>
      ih f hf (fun h => hall (.and hf h)) fun h => hnone (.and hf h)
    rw [spelled_and, List.map_congr_left hparts, List.map_id']
  | or fs ih =>
    have hparts : ∀ f ∈ fs, f.spelled = f := fun f hf =>
      ih f hf (fun h => hall (.or hf h)) fun h => hnone (.or hf h)
    rw [spelled_or, List.map_congr_left hparts, List.map_id']
  | not f ih => rw [spelled, ih (fun h => hall (.not h)) fun h => hnone (.not h)]

theorem not_occursIn_spelled {k : Filter} (hk : k = .all ∨ k = .none) (f : Filter) :
    ¬ OccursIn k f.spelled := by
  induction f using induction_on_parts with
  | all | none | status | priority | tag | name =>
    intro h
    rcases hk with rfl | rfl <;> cases h
  | and fs ih =>
    rw [spelled_and]
    intro h
    cases h with
    | refl => simp at hk
    | and hg h =>
      obtain ⟨f, hf, rfl⟩ := List.mem_map.1 hg
      exact ih f hf h
  | or fs ih =>
    rw [spelled_or]
    intro h
    cases h with
    | refl => simp at hk
    | or hg h =>
      obtain ⟨f, hf, rfl⟩ := List.mem_map.1 hg
      exact ih f hf h
  | not f ih =>
    rw [spelled]
    intro h
    cases h with
    | refl => simp at hk
    | not h => exact ih h

/-- A text gives back the filter it was printed from exactly if no keyword stands inside. -/
theorem reread_eq_self_iff {f : Filter} : f.reread = f ↔ f.KeepsKeywordsApart := by
  constructor
  · intro h k hocc hk
    by_cases hkeyword : f = .all ∨ f = .none
    · rcases hkeyword with rfl | rfl <;>
      · cases hocc
        rfl
    · obtain ⟨hall, hnone⟩ := not_or.1 hkeyword
      rw [reread_eq_spelled hall hnone] at h
      exact absurd (by rw [h]; exact hocc) (not_occursIn_spelled hk f)
  · intro h
    by_cases hall : f = .all
    · rw [hall, reread]
    by_cases hnone : f = .none
    · rw [hnone, reread]
    rw [reread_eq_spelled hall hnone]
    exact spelled_eq_self (fun hocc => hall (h _ hocc (Or.inl rfl)).symm)
      fun hocc => hnone (h _ hocc (Or.inr rfl)).symm

/-- Every built filter is printed as a text that can be parsed. The text gives the filter with names
in place of the keywords inside it, so it gives the filter itself, which matches what it matches,
if there are none. -/
theorem parse_print_built {f : Filter} (h : f.Built) :
    ∃ text, f.print? = some text ∧ parseFilter (String.ofList text) = .ok f.reread ∧
      (f.reread = f ↔ f.KeepsKeywordsApart) ∧
      (f.KeepsKeywordsApart → ∀ i, f.reread.matches? i = f.matches? i) := by
  refine ⟨f.print, if_pos h.spellable.isWritable, parseFilter_print_eq_reread h.spellable,
    reread_eq_self_iff, ?_⟩
  intro hapart i
  rw [reread_eq_self_iff.2 hapart]

/-- A name that is spelt like a keyword is none, and neither is a tag. -/
def errands : Filter :=
  ((Filter.name "all").both (.not (.tag "none"))).either (.status (.only .working))

theorem parse_print_built_errands : errands.Built ∧ errands.KeepsKeywordsApart ∧
    ∃ text, errands.print? = some text ∧ parseFilter (String.ofList text) = .ok errands ∧
      ∀ i, errands.reread.matches? i = errands.matches? i := by
  have hbuilt : errands.Built :=
    .either (.both (.name (by decide)) (.not (.tag (by decide)))) (.status _)
  obtain ⟨text, hprint, hparse, hself, hmatches⟩ := parse_print_built hbuilt
  have hreread : errands.reread = errands := rfl
  have hapart := hself.1 hreread
  rw [hreread] at hparse
  exact ⟨hbuilt, hapart, text, hprint, hparse, hmatches hapart⟩

/-- The filter that lets everything through, beside the name `x`, is printed as `all & x`. That asks
for an item with two names. -/
theorem print_loses_keyword :
    ¬ ∀ f : Filter, f.Built → ∃ text g, f.print? = some text ∧
      parseFilter (String.ofList text) = .ok g ∧ ∀ i, g.matches? i = f.matches? i := by
  intro hall
  have hbuilt : (Filter.all.both (.name "x")).Built := .both .all (.name (by decide))
  obtain ⟨text, g, hprint, hparse, hmatches⟩ := hall _ hbuilt
  obtain rfl : (Filter.all.both (.name "x")).print = text := Option.some.inj hprint
  obtain rfl : (Filter.all.both (.name "x")).reread = g :=
    Except.ok.inj ((parseFilter_print_eq_reread hbuilt.spellable).symm.trans hparse)
  exact absurd (hmatches (.ofTexts "x" "" .waiting [])) (by decide)

end TodoLists.Filter
