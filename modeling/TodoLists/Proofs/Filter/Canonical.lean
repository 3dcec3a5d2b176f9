import TodoLists.Proofs.Query.Acceptance

/-!
# Canonical filters

The filters that a text can stand for. A conjunction or a disjunction has at least two parts and
none of its own kind, names and tags are words, a range of priorities is bounded on one side at
least, and the filters that let everything or nothing through stand alone. Joining splices, so it
keeps this form however many parentheses the text has.
-/

namespace TodoLists.Filter

open Query

/-- A canonical filter that can be a part of another one. -/
inductive Regular : Filter → Prop where
  | status (r : Range Status) : Regular (.status r)
  | priority {r : Range Int} (h : r.low ≠ .unbounded ∨ r.high ≠ .unbounded) : Regular (.priority r)
  | tag {t : String} (h : IsWord t.toList) : Regular (.tag t)
  | name {n : String} (h : IsWord n.toList) : Regular (.name n)
  | and {fs : List Filter} (hlength : 2 ≤ fs.length) (hkind : ∀ f ∈ fs, f.isAnd = false)
      (h : ∀ f ∈ fs, Regular f) : Regular (.and fs)
  | or {fs : List Filter} (hlength : 2 ≤ fs.length) (hkind : ∀ f ∈ fs, f.isOr = false)
      (h : ∀ f ∈ fs, Regular f) : Regular (.or fs)
  | not {f : Filter} (h : Regular f) : Regular (.not f)

def Canonical (f : Filter) : Prop := f = .all ∨ f = .none ∨ f.Regular

/-! ### Joining -/

theorem conjuncts_eq_singleton {f : Filter} (h : f.isAnd = false) : f.conjuncts = [f] := by
  cases f <;> first | rfl | cases h

theorem disjuncts_eq_singleton {f : Filter} (h : f.isOr = false) : f.disjuncts = [f] := by
  cases f <;> first | rfl | cases h

theorem ne_nil_of_two_le_length {α : Type} {xs : List α} (h : 2 ≤ xs.length) : xs ≠ [] := by
  rintro rfl
  exact absurd h (Nat.not_succ_le_zero 1)

/-- What holds of the parts of conjunctions holds of the conjuncts of every filter. -/
theorem forall_conjuncts {P : Filter → Prop}
    (hand : ∀ fs, P (.and fs) → fs ≠ [] ∧ ∀ g ∈ fs, g.isAnd = false ∧ P g) {f : Filter} (h : P f) :
    f.conjuncts ≠ [] ∧ ∀ g ∈ f.conjuncts, g.isAnd = false ∧ P g := by
  cases hkind : f.isAnd with
  | false =>
    rw [conjuncts_eq_singleton hkind]
    exact ⟨List.cons_ne_nil f [], List.forall_mem_singleton.2 ⟨hkind, h⟩⟩
  | true =>
    cases f with
    | and fs => exact hand fs h
    | _ => cases hkind

theorem forall_disjuncts {P : Filter → Prop}
    (hor : ∀ fs, P (.or fs) → fs ≠ [] ∧ ∀ g ∈ fs, g.isOr = false ∧ P g) {f : Filter} (h : P f) :
    f.disjuncts ≠ [] ∧ ∀ g ∈ f.disjuncts, g.isOr = false ∧ P g := by
  cases hkind : f.isOr with
  | false =>
    rw [disjuncts_eq_singleton hkind]
    exact ⟨List.cons_ne_nil f [], List.forall_mem_singleton.2 ⟨hkind, h⟩⟩
  | true =>
    cases f with
    | or fs => exact hor fs h
    | _ => cases hkind

theorem Regular.conjuncts {f : Filter} (h : f.Regular) :
    f.conjuncts ≠ [] ∧ ∀ g ∈ f.conjuncts, g.isAnd = false ∧ g.Regular := by
  refine forall_conjuncts (fun fs hfs => ?_) h
  cases hfs with
  | and hlength hkind h => exact ⟨ne_nil_of_two_le_length hlength, fun g hg => ⟨hkind g hg, h g hg⟩⟩

theorem Regular.disjuncts {f : Filter} (h : f.Regular) :
    f.disjuncts ≠ [] ∧ ∀ g ∈ f.disjuncts, g.isOr = false ∧ g.Regular := by
  refine forall_disjuncts (fun fs hfs => ?_) h
  cases hfs with
  | or hlength hkind h => exact ⟨ne_nil_of_two_le_length hlength, fun g hg => ⟨hkind g hg, h g hg⟩⟩

theorem two_le_length_append {α : Type} {xs ys : List α} (hx : xs ≠ []) (hy : ys ≠ []) :
    2 ≤ (xs ++ ys).length := by
  have hx := List.length_pos_iff.2 hx
  have hy := List.length_pos_iff.2 hy
  rw [List.length_append]
  omega

/-- The parts of two filters, none of which is of the kind that is joined. -/
theorem joined_parts {P : Filter → Prop} {kind : Filter → Bool} {xs ys : List Filter}
    (hx : xs ≠ [] ∧ ∀ f ∈ xs, kind f = false ∧ P f)
    (hy : ys ≠ [] ∧ ∀ f ∈ ys, kind f = false ∧ P f) :
    2 ≤ (xs ++ ys).length ∧ (∀ f ∈ xs ++ ys, kind f = false) ∧ ∀ f ∈ xs ++ ys, P f := by
  have hparts : ∀ f ∈ xs ++ ys, kind f = false ∧ P f :=
    fun f hf => (List.mem_append.1 hf).elim (hx.2 f) (hy.2 f)
  exact ⟨two_le_length_append hx.1 hy.1, fun f hf => (hparts f hf).1, fun f hf => (hparts f hf).2⟩

theorem Regular.both {f g : Filter} (hf : f.Regular) (hg : g.Regular) : (f.both g).Regular := by
  obtain ⟨hlength, hkind, h⟩ := joined_parts hf.conjuncts hg.conjuncts
  exact .and hlength hkind h

theorem Regular.either {f g : Filter} (hf : f.Regular) (hg : g.Regular) :
    (f.either g).Regular := by
  obtain ⟨hlength, hkind, h⟩ := joined_parts hf.disjuncts hg.disjuncts
  exact .or hlength hkind h

/-! ### Parsed filters -/

variable {number : List Char → Int → Prop}

theorem regular_of_derivesRange {ls : List Lexeme} {f : Filter} (h : DerivesRange number ls f) :
    f.Regular := by
  cases h with
  | statuses => exact .status _
  | @priorities _ _ i j _ _ a b _ _ _ _ hvalue =>
    have hbounded : ∀ (k : Bool) (c : Option Int), c ≠ Option.none → limit k c ≠ .unbounded := by
      rintro k (_ | n) hc
      · exact absurd rfl hc
      · cases k <;> exact nofun
    exact .priority (hvalue.imp (hbounded i a) (hbounded j b))

theorem regular_of_derives {c : Category} {ls : List Lexeme} {f : Filter}
    (h : Derives number c ls f) (hcut : ∀ l ∈ ls, l.IsCut) : f.Regular := by
  induction h with
  | word w =>
    have hw : IsWord w := hcut _ List.mem_cons_self
    exact .name (by rwa [String.toList_ofList])
  | @tag w hne =>
    have hw : Unbroken w := hcut _ List.mem_cons_self
    exact .tag (by rw [String.toList_ofList]; exact ⟨hw, hne⟩)
  | status => exact .status _
  | priority => exact .priority (Or.inl nofun)
  | range h => exact regular_of_derivesRange h
  | group _ ih => exact ih fun l hl => hcut l (by simp [hl])
  | primary _ ih | unary _ ih | conjunction _ ih => exact ih hcut
  | not _ ih => exact .not (ih fun l hl => hcut l (List.mem_cons_of_mem _ hl))
  | and _ _ ihf ihg =>
    exact (ihf fun l hl => hcut l (by simp [hl])).both (ihg fun l hl => hcut l (by simp [hl]))
  | or _ _ ihf ihg =>
    exact (ihf fun l hl => hcut l (by simp [hl])).either (ihg fun l hl => hcut l (by simp [hl]))

theorem canonical_of_derivesStage {ls : List Lexeme} {f : Filter} (h : DerivesStage number ls f)
    (hcut : ∀ l ∈ ls, l.IsCut) : f.Canonical := by
  cases h with
  | all => exact Or.inl rfl
  | none => exact Or.inr (Or.inl rfl)
  | filter _ _ h => exact Or.inr (Or.inr (regular_of_derives h hcut))

theorem canonical_of_derivesStages {ls : List Lexeme} {fs : List Filter}
    (h : DerivesStages number ls fs) (hcut : ∀ l ∈ ls, l.IsCut) : ∀ f ∈ fs, f.Canonical := by
  induction ls using arrow_induction generalizing fs with
  | last ls hls =>
    obtain ⟨f, rfl, hf⟩ := (derivesStages_iff_of_notMem hls).1 h
    intro g hg
    obtain rfl := List.mem_singleton.1 hg
    exact canonical_of_derivesStage hf hcut
  | step ls ms hls ih =>
    obtain ⟨f, gs, rfl, hf, hgs⟩ := (derivesStages_append_iff hls).1 h
    intro g hg
    rcases List.mem_cons.1 hg with rfl | hg
    · exact canonical_of_derivesStage hf fun l hl => hcut l (by simp [hl])
    · exact ih hgs (fun l hl => hcut l (by simp [hl])) g hg

/-- Every filter that the parser returns is canonical. -/
theorem canonical_of_parse :
    (∀ (text : String) (f : Filter), parseFilter text = .ok f → f.Canonical) ∧
    ∀ (text : String) (q : TodoLists.Query), parseQuery text = .ok q →
      ∀ f ∈ q.stageList, f.Canonical := by
  constructor
  · intro text f h
    rw [parseFilter, onText_eq_ok_iff, parseFilterChars_eq_ok_iff] at h
    exact canonical_of_derivesStage h fun l => isCut_of_mem_lexemes
  · intro text q h
    rw [parseQuery, onText_eq_ok_iff, parseQueryChars_eq_ok_iff] at h
    exact canonical_of_derivesStages h.2 fun l => isCut_of_mem_lexemes

/-- The parentheses of the first text leave no trace, and neither does the arrow of the second. -/
theorem canonical_of_parse_nested :
    (∃ f, parseFilter "((a & b)) & (c & (d))" = .ok f ∧ f.Canonical ∧
      f = .and [.name "a", .name "b", .name "c", .name "d"]) ∧
    ∃ q, parseQuery "none => !(all)" = .ok q ∧ (∀ f ∈ q.stageList, f.Canonical) ∧
      q.stageList = [.none, .not (.name "all")] := by
  have hfilter : parseFilter "((a & b)) & (c & (d))" =
      .ok (.and [.name "a", .name "b", .name "c", .name "d"]) := by cbv
  have hquery : parseQuery "none => !(all)" = .ok ⟨.none, [.not (.name "all")]⟩ := by cbv
  exact ⟨⟨_, hfilter, canonical_of_parse.1 _ _ hfilter, rfl⟩,
    ⟨_, hquery, canonical_of_parse.2 _ _ hquery, rfl⟩⟩

end TodoLists.Filter
