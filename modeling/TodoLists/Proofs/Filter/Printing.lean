import TodoLists.Proofs.Filter.Canonical

/-!
# Printed filters are read back

The printer puts a blank or a sign between any two of its pieces, so the tokens of a printed text
are the tokens of its pieces. They derive the filter that was printed: a part in parentheses is a
group, and the pieces of a conjunction or of a disjunction fold from the left as the parser does.
-/

namespace TodoLists.Filter

open Query

/-! ### Tokens of pieces -/

theorem lexemes_parenthesized (s : List Char) :
    lexemes (parenthesized s) = .lparen :: (lexemes s ++ [.rparen]) := by
  rw [parenthesized, lexemes_sign rfl, lexemes_append_sign rfl]

/-- The tokens of texts with a separator between neighbours. -/
theorem lexemes_joinWith {separator : List Char} {between : List Lexeme}
    (h : ∀ xs ys, lexemes (xs ++ separator ++ ys) = lexemes xs ++ (between ++ lexemes ys))
    (p : List Char) (ps : List (List Char)) :
    lexemes (joinWith separator (p :: ps)) =
      lexemes p ++ ps.flatMap fun q => between ++ lexemes q := by
  induction ps generalizing p with
  | nil => rw [joinWith, List.flatMap_nil, List.append_nil]
  | cons q qs ih =>
    rw [joinWith, h, ih, List.flatMap_cons, List.append_assoc]
    exact List.cons_ne_nil q qs

/-- A lexeme between two blanks separates the texts on its two sides. -/
theorem lexemes_separator {l : Lexeme} (h : l.IsCut) (xs ys : List Char) :
    lexemes (xs ++ ' ' :: (l.text ++ [' ']) ++ ys) = lexemes xs ++ ([l] ++ lexemes ys) := by
  rw [List.append_assoc, List.cons_append, List.append_assoc, List.singleton_append,
    lexemes_append_space, lexemes_append_space, lexemes_text h]

theorem lexemes_space (xs ys : List Char) :
    lexemes (xs ++ " ".toList ++ ys) = lexemes xs ++ ([] ++ lexemes ys) := by
  rw [List.append_assoc, List.nil_append]
  exact lexemes_append_space xs ys

/-! ### Ranges -/

section Ranges

variable {α : Type} {render : α → List Char} {value : α → Value}

/-- The bracket that is printed before a lower limit. -/
theorem opens_limit (l : Limit α) :
    ∃ opener i, single? (match l with | .excluding _ => '(' | _ => '[') = some opener ∧
      Opens opener i ∧ l = limit i l.value? := by
  cases l with
  | unbounded | including => exact ⟨.lbracket, true, rfl, .square, rfl⟩
  | excluding => exact ⟨.lparen, false, rfl, .round, rfl⟩

/-- The bracket that is printed behind an upper limit. -/
theorem closes_limit (l : Limit α) :
    ∃ closer j, single? (match l with | .excluding _ => ')' | _ => ']') = some closer ∧
      Closes closer j ∧ l = limit j l.value? := by
  cases l with
  | unbounded | including => exact ⟨.rbracket, true, rfl, .square, rfl⟩
  | excluding => exact ⟨.rparen, false, rfl, .round, rfl⟩

theorem print_range_of_ne [DecidableEq α] (render : α → List Char) {r : Range α}
    (h : ∀ a, r ≠ .only a) :
    r.print render = (match r.low with | .excluding _ => '(' | _ => '[') ::
      (r.low.print render ++ " ... ".toList ++ r.high.print render ++
        [match r.high with | .excluding _ => ')' | _ => ']']) := by
  obtain ⟨low, high⟩ := r
  unfold Range.print
  cases low with
  | unbounded | excluding => rfl
  | including a =>
    have hne : high ≠ .including a := fun heq => h a (by rw [heq]; rfl)
    exact if_neg hne

/-- The tokens of a printed range that is more than one value. -/
theorem lexemes_print_range [DecidableEq α] (render : α → List Char) {r : Range α}
    (h : ∀ a, r ≠ .only a) :
    ∃ opener closer i j, Opens opener i ∧ Closes closer j ∧
      r = ⟨limit i r.low.value?, limit j r.high.value?⟩ ∧
      lexemes (r.print render) = opener :: (lexemes (r.low.print render) ++
        .dots :: (lexemes (r.high.print render) ++ [closer])) := by
  obtain ⟨opener, i, hsingle, hopen, hlow⟩ := opens_limit r.low
  obtain ⟨closer, j, hsingle', hclose, hhigh⟩ := closes_limit r.high
  refine ⟨opener, closer, i, j, hopen, hclose, ?_, ?_⟩
  · rw [← hlow, ← hhigh]
  · have hdots := lexemes_separator (l := .dots) trivial (r.low.print render) (r.high.print render)
    rw [print_range_of_ne render h, lexemes_sign hsingle, lexemes_append_sign hsingle']
    change opener :: (lexemes (r.low.print render ++ ' ' :: (Lexeme.dots.text ++ [' ']) ++
      r.high.print render) ++ [closer]) = _
    rw [hdots]
    simp

/-- A printed limit derives its value, when the value is printed as a token of its own. -/
theorem derivesLimit_print {l : Limit α}
    (h : ∀ a ∈ l.value?, DerivesLimit reads (lexemes (render a)) (some (value a))) :
    DerivesLimit reads (lexemes (l.print render)) (l.value?.map value) := by
  cases l with
  | unbounded =>
    have hinf : lexemes "inf".toList = [.word "inf".toList] :=
      lexemes_text (l := .word "inf".toList) (by decide : IsWord "inf".toList)
    change DerivesLimit reads (lexemes "inf".toList) Option.none
    rw [hinf]
    exact .unbounded (by decide)
  | including a | excluding a => exact h a rfl

end Ranges

theorem lexemes_printStatus (s : Status) :
    lexemes (printStatus s) = [.status s.name.toList] := by
  refine lexemes_text (l := .status s.name.toList) ?_
  change Unbroken s.name.toList
  cases s <;> decide

theorem ofWord_name (s : Status) : Status.ofWord s.name.toList = .ok s := by
  cases s <;> decide

theorem isReadable_ofInt {n : Int} (h : Text.isWritable n = true) : reads (Text.ofInt n) n := by
  have hreadable := (Text.isReadable_ofInt_iff n).2 h
  exact (Text.readInt?_eq_some_iff (Text.isSigned_of_isNumeral hreadable.1)).2 hreadable

theorem lexemes_printPriority {n : Int} (h : Text.isWritable n = true) :
    lexemes (printPriority n) = [.priority (Text.ofInt n)] :=
  lexemes_text (l := .priority (Text.ofInt n))
    (Text.isSigned_of_isNumeral ((Text.isReadable_ofInt_iff n).2 h).1)

theorem derives_print_status (r : Range Status) :
    Derives reads .primary (lexemes (r.print printStatus)) (.status r) := by
  by_cases honly : ∃ s, r = .only s
  · obtain ⟨s, rfl⟩ := honly
    rw [Range.print_only, lexemes_printStatus]
    exact .status (ofWord_name s)
  · have hlimit : ∀ l : Limit Status, ∀ s ∈ l.value?,
        DerivesLimit reads (lexemes (printStatus s)) (some (.status s)) := by
      intro l s _
      rw [lexemes_printStatus]
      exact .status (ofWord_name s)
    obtain ⟨opener, closer, i, j, hopen, hclose, hr, hlexemes⟩ :=
      lexemes_print_range printStatus fun s hs => honly ⟨s, hs⟩
    rw [hlexemes]
    have hrange := DerivesRange.statuses hopen (derivesLimit_print (hlimit r.low))
      (derivesLimit_print (hlimit r.high)) hclose
    rw [← hr] at hrange
    exact .range hrange

theorem value?_ne_none {α : Type} {l : Limit α} (h : l ≠ .unbounded) : l.value? ≠ Option.none := by
  cases l with
  | unbounded => exact absurd rfl h
  | including | excluding => exact nofun

theorem of_mem_value? {α : Type} {p : α → Bool} {l : Limit α} (h : l.all p = true) :
    ∀ a ∈ l.value?, p a = true := by
  cases l with
  | unbounded => exact nofun
  | including b | excluding b =>
    rintro a ⟨⟩
    exact h

theorem derives_print_priority {r : Range Int} (hbounded : r.low ≠ .unbounded ∨ r.high ≠ .unbounded)
    (hwritable : r.all Text.isWritable = true) :
    Derives reads .primary (lexemes (r.print printPriority)) (.priority r) := by
  rw [Range.all, Bool.and_eq_true] at hwritable
  by_cases honly : ∃ n, r = .only n
  · obtain ⟨n, rfl⟩ := honly
    have hn := of_mem_value? hwritable.1 n rfl
    rw [Range.print_only, lexemes_printPriority hn]
    exact .priority (isReadable_ofInt hn)
  · have hlimit : ∀ l : Limit Int, l.all Text.isWritable = true → ∀ n ∈ l.value?,
        DerivesLimit reads (lexemes (printPriority n)) (some (.number n)) := by
      intro l hl n hn
      have hn := of_mem_value? hl n hn
      rw [lexemes_printPriority hn]
      exact .priority (isReadable_ofInt hn)
    obtain ⟨opener, closer, i, j, hopen, hclose, hr, hlexemes⟩ :=
      lexemes_print_range printPriority fun n hn => honly ⟨n, hn⟩
    rw [hlexemes]
    have hrange := DerivesRange.priorities hopen (derivesLimit_print (hlimit r.low hwritable.1))
      (derivesLimit_print (hlimit r.high hwritable.2)) hclose
      (hbounded.imp value?_ne_none value?_ne_none)
    rw [← hr] at hrange
    exact .range hrange

/-! ### Parts -/

/-- The weakest category of the grammar that a printed filter belongs to. -/
def category : Filter → Category
  | and _ => .conjunction
  | or _ => .disjunction
  | _ => .unary

theorem derives_disjunction {c : Category} {ls : List Lexeme} {f : Filter}
    (h : Derives reads c ls f) : Derives reads .disjunction ls f := by
  cases c with
  | primary => exact .conjunction (.unary (.primary h))
  | unary => exact .conjunction (.unary h)
  | conjunction => exact .conjunction h
  | disjunction => exact h

theorem derives_parenthesized {c : Category} {s : List Char} {f : Filter}
    (h : Derives reads c (lexemes s) f) :
    Derives reads .primary (lexemes (parenthesized s)) f := by
  rw [lexemes_parenthesized]
  exact .group (derives_disjunction h)

theorem category_eq_unary {f : Filter} (hand : f.isAnd = false) (hor : f.isOr = false) :
    f.category = .unary := by
  cases f with
  | and => cases hand
  | or => cases hor
  | all | none | status | priority | tag | name | not => rfl

/-- A part of a conjunction, in parentheses when it is a disjunction. -/
def printConjunct (f : Filter) : List Char := if f.isOr then parenthesized f.print else f.print

/-- A part of a disjunction, in parentheses when it is a conjunction. -/
def printDisjunct (f : Filter) : List Char := if f.isAnd then parenthesized f.print else f.print

theorem print_name (n : String) :
    (Filter.name n).print = if isKeyword n then parenthesized n.toList else n.toList := rfl

theorem print_not (f : Filter) :
    f.not.print = '!' :: (if f.isAnd || f.isOr then parenthesized f.print else f.print) := rfl

theorem print_and (fs : List Filter) :
    (Filter.and fs).print = joinWith " & ".toList (fs.map printConjunct) := by
  have hparts : printConjuncts fs = fs.map printConjunct := by
    induction fs with
    | nil => rfl
    | cons f fs ih =>
      rw [List.map_cons, ← ih]
      rfl
  rw [← hparts]
  rfl

theorem print_or (fs : List Filter) :
    (Filter.or fs).print = joinWith " ".toList (fs.map printDisjunct) := by
  have hparts : printDisjuncts fs = fs.map printDisjunct := by
    induction fs with
    | nil => rfl
    | cons f fs ih =>
      rw [List.map_cons, ← ih]
      rfl
  rw [← hparts]
  rfl

theorem derives_printConjunct {f g : Filter} (hkind : f.isAnd = false)
    (h : Derives reads f.category (lexemes f.print) g) :
    Derives reads .unary (lexemes (printConjunct f)) g := by
  unfold printConjunct
  split
  · exact .primary (derives_parenthesized h)
  · rename_i hor
    rwa [category_eq_unary hkind (by simpa using hor)] at h

theorem derives_printDisjunct {f g : Filter} (hkind : f.isOr = false)
    (h : Derives reads f.category (lexemes f.print) g) :
    Derives reads .conjunction (lexemes (printDisjunct f)) g := by
  unfold printDisjunct
  split
  · exact .unary (.primary (derives_parenthesized h))
  · rename_i hand
    rw [category_eq_unary (by simpa using hand) hkind] at h
    exact .unary h

/-- The pieces of a conjunction or of a disjunction fold from the left. -/
theorem derives_joinWith {c d : Category} {between : List Lexeme} {separator : List Char}
    {join : Filter → Filter → Filter} {piece : Filter → List Char} {tree : Filter → Filter}
    (hseparator : ∀ xs ys, lexemes (xs ++ separator ++ ys) = lexemes xs ++ (between ++ lexemes ys))
    (hjoin : ∀ ls ms f g, Derives reads c ls f → Derives reads d ms g →
      Derives reads c (ls ++ (between ++ ms)) (join f g))
    {f : Filter} {gs : List Filter} (hf : Derives reads c (lexemes (piece f)) (tree f))
    (hgs : ∀ g ∈ gs, Derives reads d (lexemes (piece g)) (tree g)) :
    Derives reads c (lexemes (joinWith separator (piece f :: gs.map piece)))
      ((gs.map tree).foldl join (tree f)) := by
  have hfold : ∀ ls k, Derives reads c ls k →
      Derives reads c (ls ++ (gs.map piece).flatMap fun q => between ++ lexemes q)
        ((gs.map tree).foldl join k) := by
    induction gs with
    | nil =>
      intro ls k hk
      rwa [List.map_nil, List.flatMap_nil, List.append_nil]
    | cons g gs ih =>
      intro ls k hk
      have hnext := hjoin ls _ k (tree g) hk (hgs g List.mem_cons_self)
      rw [List.map_cons, List.map_cons, List.flatMap_cons, ← List.append_assoc, List.foldl_cons]
      exact ih (fun m hm => hgs m (List.mem_cons_of_mem g hm)) _ _ hnext
  rw [lexemes_joinWith hseparator]
  exact hfold _ (tree f) hf

section Folding

variable {mk : List Filter → Filter} {parts : Filter → List Filter}
  {join : Filter → Filter → Filter}

/-- Filters that are one part each are put behind the others one by one. -/
theorem foldl_join_mk (hjoin : ∀ f g, join f g = mk (parts f ++ parts g))
    (hmk : ∀ fs, parts (mk fs) = fs) {gs : List Filter} (hgs : ∀ g ∈ gs, parts g = [g])
    (fs : List Filter) : gs.foldl join (mk fs) = mk (fs ++ gs) := by
  induction gs generalizing fs with
  | nil => rw [List.foldl_nil, List.append_nil]
  | cons g gs ih =>
    rw [List.foldl_cons, hjoin, hmk, hgs g List.mem_cons_self,
      ih fun k hk => hgs k (List.mem_cons_of_mem g hk), List.append_assoc, List.singleton_append]

theorem foldl_join (hjoin : ∀ f g, join f g = mk (parts f ++ parts g))
    (hmk : ∀ fs, parts (mk fs) = fs) {f g : Filter} {gs : List Filter}
    (hparts : ∀ k ∈ f :: g :: gs, parts k = [k]) :
    (g :: gs).foldl join f = mk (f :: g :: gs) := by
  obtain ⟨hf, hg, hgs⟩ : parts f = [f] ∧ parts g = [g] ∧ ∀ k ∈ gs, parts k = [k] := by
    simpa using hparts
  rw [List.foldl_cons, hjoin, hf, hg, foldl_join_mk hjoin hmk hgs]
  rfl

end Folding

theorem foldl_both {f g : Filter} {gs : List Filter}
    (hkind : ∀ k ∈ f :: g :: gs, k.isAnd = false) :
    (g :: gs).foldl both f = .and (f :: g :: gs) :=
  foldl_join (fun _ _ => rfl) (fun _ => rfl) fun k hk => conjuncts_eq_singleton (hkind k hk)

theorem foldl_either {f g : Filter} {gs : List Filter}
    (hkind : ∀ k ∈ f :: g :: gs, k.isOr = false) :
    (g :: gs).foldl either f = .or (f :: g :: gs) :=
  foldl_join (fun _ _ => rfl) (fun _ => rfl) fun k hk => disjuncts_eq_singleton (hkind k hk)

end TodoLists.Filter
