import TodoLists.Proofs.Filter.Printing

/-!
# What a printed filter says

The filters that let everything or nothing through are printed as `all` and `none` wherever they
stand, but these words are keywords only where they are the whole text. Inside another filter they
are names, so a printed filter says what it was printed from with names in their place. A name that
is spelt like a keyword is told apart by its parentheses.
-/

namespace TodoLists.Filter

open Query

mutual

/-- The filter with the names `all` and `none` in place of the keywords. -/
def spelled : Filter → Filter
  | all => .name "all"
  | none => .name "none"
  | and fs => .and (spelledAll fs)
  | or fs => .or (spelledAll fs)
  | not f => .not f.spelled
  | f => f

def spelledAll : List Filter → List Filter
  | [] => []
  | f :: fs => f.spelled :: spelledAll fs

end

/-- What a text says that was printed from the filter: a keyword alone, or else what is spelt. -/
def reread : Filter → Filter
  | all => all
  | none => none
  | f => f.spelled

theorem spelledAll_eq_map (fs : List Filter) : spelledAll fs = fs.map spelled := by
  induction fs with
  | nil => rfl
  | cons f fs ih => rw [spelledAll, ih, List.map_cons]

theorem spelled_and (fs : List Filter) : (Filter.and fs).spelled = .and (fs.map spelled) := by
  rw [spelled, spelledAll_eq_map]

theorem spelled_or (fs : List Filter) : (Filter.or fs).spelled = .or (fs.map spelled) := by
  rw [spelled, spelledAll_eq_map]

theorem isAnd_spelled (f : Filter) : f.spelled.isAnd = f.isAnd := by
  cases f <;> rfl

theorem isOr_spelled (f : Filter) : f.spelled.isOr = f.isOr := by
  cases f <;> rfl

theorem reread_eq_spelled {f : Filter} (hall : f ≠ .all) (hnone : f ≠ .none) :
    f.reread = f.spelled := by
  cases f with
  | all => exact absurd rfl hall
  | none => exact absurd rfl hnone
  | _ => rfl

/-- A filter whose text the parser accepts: like a canonical one, but keywords may stand anywhere in
it. -/
inductive Spellable : Filter → Prop where
  | all : Spellable .all
  | none : Spellable .none
  | status (r : Range Status) : Spellable (.status r)
  | priority {r : Range Int} (hbounded : r.low ≠ .unbounded ∨ r.high ≠ .unbounded)
      (hwritable : r.all Text.isWritable = true) : Spellable (.priority r)
  | tag {t : String} (h : IsWord t.toList) : Spellable (.tag t)
  | name {n : String} (h : IsWord n.toList) : Spellable (.name n)
  | and {fs : List Filter} (hlength : 2 ≤ fs.length) (hkind : ∀ f ∈ fs, f.isAnd = false)
      (h : ∀ f ∈ fs, Spellable f) : Spellable (.and fs)
  | or {fs : List Filter} (hlength : 2 ≤ fs.length) (hkind : ∀ f ∈ fs, f.isOr = false)
      (h : ∀ f ∈ fs, Spellable f) : Spellable (.or fs)
  | not {f : Filter} (h : Spellable f) : Spellable (.not f)

theorem allWritable_iff {fs : List Filter} :
    allWritable fs = true ↔ ∀ f ∈ fs, f.isWritable = true := by
  induction fs with
  | nil => exact ⟨fun _ => nofun, fun _ => rfl⟩
  | cons f fs ih => rw [allWritable, Bool.and_eq_true, ih, List.forall_mem_cons]

theorem Spellable.isWritable {f : Filter} (h : f.Spellable) : f.isWritable = true := by
  induction h with
  | all | none | status | tag | name => rfl
  | priority _ hwritable => exact hwritable
  | and _ _ _ ih | or _ _ _ ih => exact allWritable_iff.2 ih
  | not _ ih => exact ih

/-! ### Canonical filters say themselves -/

theorem Regular.spellable {f : Filter} (h : f.Regular) (hwritable : f.isWritable = true) :
    f.Spellable := by
  induction h with
  | status r => exact .status r
  | priority hbounded => exact .priority hbounded hwritable
  | tag h => exact .tag h
  | name h => exact .name h
  | and hlength hkind _ ih =>
    exact .and hlength hkind fun f hf => ih f hf (allWritable_iff.1 hwritable f hf)
  | or hlength hkind _ ih =>
    exact .or hlength hkind fun f hf => ih f hf (allWritable_iff.1 hwritable f hf)
  | not _ ih => exact .not (ih hwritable)

theorem Regular.spelled_eq {f : Filter} (h : f.Regular) : f.spelled = f := by
  induction h with
  | status | priority | tag | name => rfl
  | and _ _ _ ih => rw [spelled_and, List.map_congr_left ih, List.map_id']
  | or _ _ _ ih => rw [spelled_or, List.map_congr_left ih, List.map_id']
  | not _ ih => rw [spelled, ih]

theorem Regular.reread_eq {f : Filter} (h : f.Regular) : f.reread = f := by
  rw [reread_eq_spelled, h.spelled_eq]
  · rintro rfl
    cases h
  · rintro rfl
    cases h

/-! ### Derivations -/

theorem exists_cons_cons {α : Type} {xs : List α} (h : 2 ≤ xs.length) :
    ∃ x y rest, xs = x :: y :: rest := by
  match xs, h with
  | x :: y :: rest, _ => exact ⟨x, y, rest, rfl⟩

theorem derives_print_and {fs : List Filter} (hlength : 2 ≤ fs.length)
    (hkind : ∀ f ∈ fs, f.isAnd = false)
    (h : ∀ f ∈ fs, Derives reads f.category (lexemes f.print) f.spelled) :
    Derives reads .conjunction (lexemes (Filter.and fs).print) (Filter.and fs).spelled := by
  have hpieces : ∀ f ∈ fs, Derives reads .unary (lexemes (printConjunct f)) f.spelled :=
    fun f hf => derives_printConjunct (hkind f hf) (h f hf)
  have hspelled : ∀ f ∈ fs.map spelled, f.isAnd = false :=
    List.forall_mem_map.2 fun f hf => (isAnd_spelled f).trans (hkind f hf)
  obtain ⟨f, g, gs, rfl⟩ := exists_cons_cons hlength
  obtain ⟨hf, hgs⟩ := List.forall_mem_cons.1 hpieces
  have hfold : ((g :: gs).map spelled).foldl both f.spelled = .and ((f :: g :: gs).map spelled) :=
    foldl_both hspelled
  rw [print_and, spelled_and, ← hfold, List.map_cons]
  exact derives_joinWith (lexemes_separator (l := .and) trivial) (fun _ _ _ _ hf hg => .and hf hg)
    (.unary hf) hgs

theorem derives_print_or {fs : List Filter} (hlength : 2 ≤ fs.length)
    (hkind : ∀ f ∈ fs, f.isOr = false)
    (h : ∀ f ∈ fs, Derives reads f.category (lexemes f.print) f.spelled) :
    Derives reads .disjunction (lexemes (Filter.or fs).print) (Filter.or fs).spelled := by
  have hpieces : ∀ f ∈ fs, Derives reads .conjunction (lexemes (printDisjunct f)) f.spelled :=
    fun f hf => derives_printDisjunct (hkind f hf) (h f hf)
  have hspelled : ∀ f ∈ fs.map spelled, f.isOr = false :=
    List.forall_mem_map.2 fun f hf => (isOr_spelled f).trans (hkind f hf)
  obtain ⟨f, g, gs, rfl⟩ := exists_cons_cons hlength
  obtain ⟨hf, hgs⟩ := List.forall_mem_cons.1 hpieces
  have hfold : ((g :: gs).map spelled).foldl either f.spelled = .or ((f :: g :: gs).map spelled) :=
    foldl_either hspelled
  rw [print_or, spelled_or, ← hfold, List.map_cons]
  exact derives_joinWith lexemes_space (fun _ _ _ _ hf hg => .or hf hg) (.conjunction hf) hgs

theorem derives_print_not {f g : Filter} (h : Derives reads f.category (lexemes f.print) g) :
    Derives reads .unary (lexemes (Filter.not f).print) (.not g) := by
  rw [print_not, lexemes_sign rfl]
  refine .not ?_
  split
  · exact .primary (derives_parenthesized h)
  · rename_i hplain
    simp only [Bool.or_eq_true, not_or, Bool.not_eq_true] at hplain
    rwa [category_eq_unary hplain.1 hplain.2] at h

theorem derives_print_tag {t : String} (h : IsWord t.toList) :
    Derives reads .unary (lexemes (Filter.tag t).print) (.tag t) := by
  have htext : lexemes ('#' :: t.toList) = [.tag t.toList] :=
    lexemes_text (l := .tag t.toList) h.toUnbroken
  have htag : Derives reads .primary [.tag t.toList] (.tag (String.ofList t.toList)) :=
    .tag h.ne_nil
  rw [String.ofList_toList] at htag
  show Derives reads .unary (lexemes ('#' :: t.toList)) (.tag t)
  rw [htext]
  exact .primary htag

/-- A word that is not in parentheses is the name itself. -/
theorem derives_word {n : String} (h : IsWord n.toList) :
    Derives reads .primary (lexemes n.toList) (.name n) := by
  have htext : lexemes n.toList = [.word n.toList] := lexemes_text (l := .word n.toList) h
  have hname : Derives reads .primary [.word n.toList] (.name (String.ofList n.toList)) :=
    .word n.toList
  rw [String.ofList_toList] at hname
  rwa [htext]

theorem derives_print_name {n : String} (h : IsWord n.toList) :
    Derives reads .unary (lexemes (Filter.name n).print) (.name n) := by
  rw [print_name]
  split
  · exact .primary (derives_parenthesized (derives_word h))
  · exact .primary (derives_word h)

/-- The tokens of a printed filter derive what it says as a part of another one. -/
theorem derives_print {f : Filter} (h : f.Spellable) :
    Derives reads f.category (lexemes f.print) f.spelled := by
  induction h with
  | all => exact .primary (derives_word (n := "all") (by decide))
  | none => exact .primary (derives_word (n := "none") (by decide))
  | status r => exact .primary (derives_print_status r)
  | priority hbounded hwritable => exact .primary (derives_print_priority hbounded hwritable)
  | tag h => exact derives_print_tag h
  | name h => exact derives_print_name h
  | and hlength hkind _ ih => exact derives_print_and hlength hkind ih
  | or hlength hkind _ ih => exact derives_print_or hlength hkind ih
  | not _ ih => exact derives_print_not ih

/-! ### Whole texts -/

theorem eq_of_spelled_eq_name {f : Filter} {n : String} (h : f.spelled = .name n)
    (hall : f ≠ .all) (hnone : f ≠ .none) : f = .name n := by
  cases f with
  | all => exact absurd rfl hall
  | none => exact absurd rfl hnone
  | name m => exact h
  | _ => cases h

/-- Only a keyword prints as one: a name that is spelt like one is printed in parentheses. -/
theorem lexemes_print_ne_keyword {f : Filter} {w : String} (hw : isKeyword w = true)
    (hall : f ≠ .all) (hnone : f ≠ .none)
    (h : Derives reads .disjunction (lexemes f.print) f.spelled) :
    lexemes f.print ≠ [.word w.toList] := by
  intro hword
  have hname : Derives reads .disjunction [.word w.toList] (.name w) := by
    have hprimary : Derives reads .primary [.word w.toList] (.name (String.ofList w.toList)) :=
      .word w.toList
    rw [String.ofList_toList] at hprimary
    exact derives_disjunction hprimary
  rw [hword] at h
  rw [eq_of_spelled_eq_name (h.unique hname) hall hnone, print_name, if_pos hw,
    lexemes_parenthesized] at hword
  cases hword

/-- The tokens of a printed filter are those of a stage that says it. -/
theorem derivesStage_print {f : Filter} (h : f.Spellable) :
    DerivesStage reads (lexemes f.print) f.reread := by
  by_cases hall : f = .all
  · have htext : lexemes "all".toList = [.word "all".toList] :=
      lexemes_text (l := .word "all".toList) (by decide : IsWord "all".toList)
    rw [hall]
    show DerivesStage reads (lexemes "all".toList) .all
    rw [htext]
    exact .all
  by_cases hnone : f = .none
  · have htext : lexemes "none".toList = [.word "none".toList] :=
      lexemes_text (l := .word "none".toList) (by decide : IsWord "none".toList)
    rw [hnone]
    show DerivesStage reads (lexemes "none".toList) .none
    rw [htext]
    exact .none
  have hderives := derives_disjunction (derives_print h)
  rw [reread_eq_spelled hall hnone]
  exact .filter (lexemes_print_ne_keyword (w := "all") rfl hall hnone hderives)
    (lexemes_print_ne_keyword (w := "none") rfl hall hnone hderives) hderives

/-- What is printed can be parsed, and gives what the text says. -/
theorem parseFilter_print_eq_reread {f : Filter} (h : f.Spellable) :
    parseFilter (String.ofList f.print) = .ok f.reread := by
  rw [parseFilter, onText_eq_ok_iff, String.toList_ofList, parseFilterChars_eq_ok_iff]
  exact derivesStage_print h

end TodoLists.Filter
