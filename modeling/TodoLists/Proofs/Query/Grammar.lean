import TodoLists.Query.Parser
import Mathlib.Data.List.Basic

/-!
# The grammar of queries

What the texts of filters and queries are, as a relation between lexemes and trees that knows
nothing of how a parser finds its way. What number a numeral stands for is a parameter.

The first lexeme of a derivation tells that a term begins here, and a derivation only asks what
numbers its own numerals stand for.
-/

namespace TodoLists.Query

inductive Category where
  | primary
  | unary
  | conjunction
  | disjunction

/-- The bracket opens a range, and includes the limit or not. -/
inductive Opens : Lexeme → Bool → Prop where
  | round : Opens .lparen false
  | square : Opens .lbracket true

/-- The bracket closes a range, and includes the limit or not. -/
inductive Closes : Lexeme → Bool → Prop where
  | round : Closes .rparen false
  | square : Closes .rbracket true

/-- A limit of a range and its value, if it has one. -/
inductive DerivesLimit (number : List Char → Int → Prop) : List Lexeme → Option Value → Prop where
  | omitted : DerivesLimit number [] none
  | unbounded {w : List Char} (h : w.map Char.toLower = "inf".toList) :
      DerivesLimit number [.word w] none
  | status {w : List Char} {s : Status} (h : Status.ofWord w = .ok s) :
      DerivesLimit number [.status w] (some (.status s))
  | priority {n : List Char} {k : Int} (h : number n k) :
      DerivesLimit number [.priority n] (some (.number k))

/-- A range. Its limits are of one kind, and it is a range of statuses when neither has a value. -/
inductive DerivesRange (number : List Char → Int → Prop) : List Lexeme → Filter → Prop where
  | statuses {opener closer : Lexeme} {i j : Bool} {low high : List Lexeme} {a b : Option Status}
      (hopen : Opens opener i) (hlow : DerivesLimit number low (a.map .status))
      (hhigh : DerivesLimit number high (b.map .status)) (hclose : Closes closer j) :
      DerivesRange number (opener :: (low ++ .dots :: (high ++ [closer])))
        (.status ⟨limit i a, limit j b⟩)
  | priorities {opener closer : Lexeme} {i j : Bool} {low high : List Lexeme} {a b : Option Int}
      (hopen : Opens opener i) (hlow : DerivesLimit number low (a.map .number))
      (hhigh : DerivesLimit number high (b.map .number)) (hclose : Closes closer j)
      (hvalue : a ≠ none ∨ b ≠ none) :
      DerivesRange number (opener :: (low ++ .dots :: (high ++ [closer])))
        (.priority ⟨limit i a, limit j b⟩)

/-- Conditions: `!` binds tighter than `&`, and `&` tighter than juxtaposition; both of these fold
from the left. -/
inductive Derives (number : List Char → Int → Prop) : Category → List Lexeme → Filter → Prop where
  | word (w : List Char) : Derives number .primary [.word w] (.name (String.ofList w))
  | tag {w : List Char} (h : w ≠ []) : Derives number .primary [.tag w] (.tag (String.ofList w))
  | status {w : List Char} {s : Status} (h : Status.ofWord w = .ok s) :
      Derives number .primary [.status w] (.status (.only s))
  | priority {n : List Char} {k : Int} (h : number n k) :
      Derives number .primary [.priority n] (.priority (.only k))
  | range {ls : List Lexeme} {f : Filter} (h : DerivesRange number ls f) :
      Derives number .primary ls f
  | group {ls : List Lexeme} {f : Filter} (h : Derives number .disjunction ls f) :
      Derives number .primary (.lparen :: (ls ++ [.rparen])) f
  | primary {ls : List Lexeme} {f : Filter} (h : Derives number .primary ls f) :
      Derives number .unary ls f
  | not {ls : List Lexeme} {f : Filter} (h : Derives number .unary ls f) :
      Derives number .unary (.not :: ls) (.not f)
  | unary {ls : List Lexeme} {f : Filter} (h : Derives number .unary ls f) :
      Derives number .conjunction ls f
  | and {ls ms : List Lexeme} {f g : Filter} (hf : Derives number .conjunction ls f)
      (hg : Derives number .unary ms g) : Derives number .conjunction (ls ++ .and :: ms) (f.both g)
  | conjunction {ls : List Lexeme} {f : Filter} (h : Derives number .conjunction ls f) :
      Derives number .disjunction ls f
  | or {ls ms : List Lexeme} {f g : Filter} (hf : Derives number .disjunction ls f)
      (hg : Derives number .conjunction ms g) :
      Derives number .disjunction (ls ++ ms) (f.either g)

/-- A stage. The words `all` and `none` are keywords when they are the whole stage. -/
inductive DerivesStage (number : List Char → Int → Prop) : List Lexeme → Filter → Prop where
  | all : DerivesStage number [.word "all".toList] .all
  | none : DerivesStage number [.word "none".toList] .none
  | filter {ls : List Lexeme} {f : Filter} (hall : ls ≠ [.word "all".toList])
      (hnone : ls ≠ [.word "none".toList]) (h : Derives number .disjunction ls f) :
      DerivesStage number ls f

/-- Stages with an arrow between neighbours. -/
def DerivesStages (number : List Char → Int → Prop) (ls : List Lexeme) (fs : List Filter) : Prop :=
  List.Forall₂ (DerivesStage number) (ls.splitOn .arrow) fs

def DerivesQuery (number : List Char → Int → Prop) (ls : List Lexeme) (q : Query) : Prop :=
  DerivesStages number ls q.stageList

variable {number : List Char → Int → Prop}

/-! ### The parts of a range -/

/-- A range is its brackets and its limits. -/
theorem DerivesRange.exists_limits {ls : List Lexeme} {f : Filter}
    (h : DerivesRange number ls f) :
    ∃ opener closer low high i j a b r, ls = opener :: (low ++ .dots :: (high ++ [closer])) ∧
      Opens opener i ∧ DerivesLimit number low a ∧ DerivesLimit number high b ∧ Closes closer j ∧
      range? i j a b = some r ∧ f = r.toFilter := by
  cases h with
  | @statuses opener closer i j low high a b hopen hlow hhigh hclose =>
    refine ⟨_, _, _, _, i, j, _, _, .statuses ⟨limit i a, limit j b⟩, rfl, hopen, hlow, hhigh,
      hclose, ?_, rfl⟩
    cases a <;> cases b <;> rfl
  | @priorities opener closer i j low high a b hopen hlow hhigh hclose hvalue =>
    refine ⟨_, _, _, _, i, j, _, _, .priorities ⟨limit i a, limit j b⟩, rfl, hopen, hlow, hhigh,
      hclose, ?_, rfl⟩
    cases a <;> cases b <;> first | rfl | simp at hvalue

theorem sameKind_of_range? {i j : Bool} {a b : Option Value} {r : AnyRange}
    (h : range? i j a b = some r) : ∀ x ∈ a, ∀ y ∈ b, x.sameKind y = true := by
  rintro x rfl y rfl
  cases x <;> cases y <;> first | rfl | cases h

/-! ### The first lexeme -/

def Lexeme.beginsTerm : Lexeme → Bool
  | .not | .lparen | .lbracket | .word _ | .tag _ | .status _ | .priority _ => true
  | _ => false

theorem startsTerm_cons (t : Token) (ts : List Token) :
    startsTerm (t :: ts) = t.lexeme.beginsTerm := rfl

theorem DerivesRange.exists_cons {ls : List Lexeme} {f : Filter} (h : DerivesRange number ls f) :
    ∃ opener i tail, Opens opener i ∧ ls = opener :: tail := by
  obtain ⟨opener, _, _, _, i, _, _, _, _, rfl, hopen, -⟩ := h.exists_limits
  exact ⟨opener, i, _, hopen, rfl⟩

theorem Derives.exists_cons {c : Category} {ls : List Lexeme} {f : Filter}
    (h : Derives number c ls f) : ∃ l tail, ls = l :: tail ∧ l.beginsTerm = true := by
  induction h with
  | word | tag | status | priority => exact ⟨_, [], rfl, rfl⟩
  | range h =>
    obtain ⟨opener, i, tail, hopen, rfl⟩ := h.exists_cons
    exact ⟨opener, tail, rfl, by cases hopen <;> rfl⟩
  | group => exact ⟨.lparen, _, rfl, rfl⟩
  | not => exact ⟨.not, _, rfl, rfl⟩
  | primary _ ih | unary _ ih | conjunction _ ih => exact ih
  | and _ _ ih _ | or _ _ ih _ =>
    obtain ⟨l, tail, rfl, hl⟩ := ih
    exact ⟨l, _, rfl, hl⟩

theorem Derives.ne_nil {c : Category} {ls : List Lexeme} {f : Filter} (h : Derives number c ls f) :
    ls ≠ [] := by
  obtain ⟨l, tail, rfl, -⟩ := h.exists_cons
  exact List.cons_ne_nil l tail

/-- A primary does not begin with `!`. -/
theorem Derives.head_ne_not {ls tail : List Lexeme} {l : Lexeme} {f : Filter}
    (h : Derives number .primary ls f) (hl : ls = l :: tail) : l ≠ .not := by
  cases h with
  | word | tag | status | priority | group =>
    rw [← (List.cons.inj hl).1]
    exact nofun
  | range h =>
    obtain ⟨opener, i, rest, hopen, rfl⟩ := h.exists_cons
    rw [← (List.cons.inj hl).1]
    cases hopen <;> exact nofun

/-! ### Arrows -/

theorem DerivesLimit.notMem {ls : List Lexeme} {v : Option Value} (h : DerivesLimit number ls v) :
    .arrow ∉ ls ∧ .dots ∉ ls := by
  cases h <;> simp

theorem DerivesRange.arrow_notMem {ls : List Lexeme} {f : Filter} (h : DerivesRange number ls f) :
    .arrow ∉ ls := by
  obtain ⟨_, _, _, _, _, _, _, _, _, rfl, hopen, hlow, hhigh, hclose, -⟩ := h.exists_limits
  have hlow := hlow.notMem.1
  have hhigh := hhigh.notMem.1
  cases hopen <;> cases hclose <;> simp [hlow, hhigh]

theorem Derives.arrow_notMem {c : Category} {ls : List Lexeme} {f : Filter}
    (h : Derives number c ls f) : .arrow ∉ ls := by
  induction h with
  | word | tag | status | priority => simp
  | range h => exact h.arrow_notMem
  | group _ ih | not _ ih => simpa using ih
  | primary _ ih | unary _ ih | conjunction _ ih => exact ih
  | and _ _ ihf ihg | or _ _ ihf ihg => simp [ihf, ihg]

theorem DerivesStage.arrow_notMem {ls : List Lexeme} {f : Filter} (h : DerivesStage number ls f) :
    .arrow ∉ ls := by
  cases h with
  | all | none => simp
  | filter _ _ h => exact h.arrow_notMem

theorem DerivesStage.ne_nil {ls : List Lexeme} {f : Filter} (h : DerivesStage number ls f) :
    ls ≠ [] := by
  cases h with
  | all | none => exact List.cons_ne_nil _ _
  | filter _ _ h => exact h.ne_nil

/-! ### Stages one after another -/

/-- A list has no arrow, or its first arrow stands between a list without one and another list. -/
theorem arrow_induction {motive : List Lexeme → Prop}
    (last : ∀ ls, .arrow ∉ ls → motive ls)
    (step : ∀ ls ms, .arrow ∉ ls → motive ms → motive (ls ++ .arrow :: ms)) (ls : List Lexeme) :
    motive ls := by
  induction hn : ls.length using Nat.strongRecOn generalizing ls with
  | ind n ih =>
    subst hn
    by_cases hmem : .arrow ∈ ls
    · obtain ⟨first, rest, rfl, hfirst⟩ := List.eq_append_cons_of_mem hmem
      refine step first rest hfirst (ih rest.length ?_ rest rfl)
      rw [List.length_append, List.length_cons]
      omega
    · exact last ls hmem

theorem derivesStages_iff_of_notMem {ls : List Lexeme} {fs : List Filter} (hls : .arrow ∉ ls) :
    DerivesStages number ls fs ↔ ∃ f, fs = [f] ∧ DerivesStage number ls f := by
  rw [DerivesStages, List.splitOn_eq_singleton hls]
  constructor
  · rintro (_ | ⟨hf, ⟨⟩⟩)
    exact ⟨_, rfl, hf⟩
  · rintro ⟨f, rfl, hf⟩
    exact .cons hf .nil

theorem DerivesStage.derivesStages {ls : List Lexeme} {f : Filter} (h : DerivesStage number ls f) :
    DerivesStages number ls [f] :=
  (derivesStages_iff_of_notMem h.arrow_notMem).2 ⟨f, rfl, h⟩

theorem derivesStages_append_iff {ls ms : List Lexeme} {fs : List Filter} (hls : .arrow ∉ ls) :
    DerivesStages number (ls ++ .arrow :: ms) fs ↔
      ∃ f gs, fs = f :: gs ∧ DerivesStage number ls f ∧ DerivesStages number ms gs := by
  rw [DerivesStages, List.splitOn_append_cons_self_of_not_mem hls]
  constructor
  · rintro (_ | ⟨hf, hgs⟩)
    exact ⟨_, _, rfl, hf, hgs⟩
  · rintro ⟨f, gs, rfl, hf, hgs⟩
    exact .cons hf hgs

theorem DerivesStages.ne_nil {ls : List Lexeme} {fs : List Filter}
    (h : DerivesStages number ls fs) : ls ≠ [] := by
  rintro rfl
  obtain ⟨f, -, hf⟩ := (derivesStages_iff_of_notMem List.not_mem_nil).1 h
  exact hf.ne_nil rfl

/-! ### What a numeral stands for -/

section Mono

variable {number' : List Char → Int → Prop}

theorem DerivesLimit.mono {ls : List Lexeme} {v : Option Value} (h : DerivesLimit number ls v)
    (hnumber : ∀ n, Lexeme.priority n ∈ ls → ∀ k, number n k → number' n k) :
    DerivesLimit number' ls v := by
  cases h with
  | omitted => exact .omitted
  | unbounded h => exact .unbounded h
  | status h => exact .status h
  | priority h => exact .priority (hnumber _ List.mem_cons_self _ h)

theorem DerivesRange.mono {ls : List Lexeme} {f : Filter} (h : DerivesRange number ls f)
    (hnumber : ∀ n, Lexeme.priority n ∈ ls → ∀ k, number n k → number' n k) :
    DerivesRange number' ls f := by
  cases h with
  | statuses hopen hlow hhigh hclose =>
    exact .statuses hopen (hlow.mono fun n hn => hnumber n (by simp [hn]))
      (hhigh.mono fun n hn => hnumber n (by simp [hn])) hclose
  | priorities hopen hlow hhigh hclose hvalue =>
    exact .priorities hopen (hlow.mono fun n hn => hnumber n (by simp [hn]))
      (hhigh.mono fun n hn => hnumber n (by simp [hn])) hclose hvalue

theorem Derives.mono {c : Category} {ls : List Lexeme} {f : Filter} (h : Derives number c ls f)
    (hnumber : ∀ n, Lexeme.priority n ∈ ls → ∀ k, number n k → number' n k) :
    Derives number' c ls f := by
  induction h with
  | word w => exact .word w
  | tag h => exact .tag h
  | status h => exact .status h
  | priority h => exact .priority (hnumber _ List.mem_cons_self _ h)
  | range h => exact .range (h.mono hnumber)
  | group _ ih => exact .group (ih fun n hn => hnumber n (by simp [hn]))
  | primary _ ih => exact .primary (ih hnumber)
  | not _ ih => exact .not (ih fun n hn => hnumber n (by simp [hn]))
  | unary _ ih => exact .unary (ih hnumber)
  | and _ _ ihf ihg =>
    exact .and (ihf fun n hn => hnumber n (by simp [hn])) (ihg fun n hn => hnumber n (by simp [hn]))
  | conjunction _ ih => exact .conjunction (ih hnumber)
  | or _ _ ihf ihg =>
    exact .or (ihf fun n hn => hnumber n (by simp [hn])) (ihg fun n hn => hnumber n (by simp [hn]))

theorem DerivesStage.mono {ls : List Lexeme} {f : Filter} (h : DerivesStage number ls f)
    (hnumber : ∀ n, Lexeme.priority n ∈ ls → ∀ k, number n k → number' n k) :
    DerivesStage number' ls f := by
  cases h with
  | all => exact .all
  | none => exact .none
  | filter hall hnone h => exact .filter hall hnone (h.mono hnumber)

theorem DerivesStages.mono {ls : List Lexeme} {fs : List Filter} (h : DerivesStages number ls fs)
    (hnumber : ∀ n, Lexeme.priority n ∈ ls → ∀ k, number n k → number' n k) :
    DerivesStages number' ls fs := by
  induction ls using arrow_induction generalizing fs with
  | last ls hls =>
    obtain ⟨f, rfl, hf⟩ := (derivesStages_iff_of_notMem hls).1 h
    exact (derivesStages_iff_of_notMem hls).2 ⟨f, rfl, hf.mono hnumber⟩
  | step ls ms hls ih =>
    obtain ⟨f, gs, rfl, hf, hgs⟩ := (derivesStages_append_iff hls).1 h
    exact (derivesStages_append_iff hls).2 ⟨f, gs, rfl,
      hf.mono fun n hn => hnumber n (by simp [hn]), ih hgs fun n hn => hnumber n (by simp [hn])⟩

end Mono

/-! ### The numerals of a derivation -/

theorem DerivesLimit.exists_number {ls : List Lexeme} {v : Option Value} {n : List Char}
    (h : DerivesLimit number ls v) (hn : .priority n ∈ ls) : ∃ k, number n k := by
  cases h with
  | omitted => cases hn
  | unbounded | status => simp at hn
  | @priority m k h =>
    obtain rfl : n = m := by simpa using hn
    exact ⟨k, h⟩

theorem DerivesRange.exists_number {ls : List Lexeme} {f : Filter} {n : List Char}
    (h : DerivesRange number ls f) (hn : .priority n ∈ ls) : ∃ k, number n k := by
  obtain ⟨_, _, low, high, _, _, _, _, _, rfl, hopen, hlow, hhigh, hclose, -⟩ := h.exists_limits
  have hmem : .priority n ∈ low ∨ .priority n ∈ high := by
    cases hopen <;> cases hclose <;> simpa using hn
  exact hmem.elim hlow.exists_number hhigh.exists_number

theorem Derives.exists_number {c : Category} {ls : List Lexeme} {f : Filter} {n : List Char}
    (h : Derives number c ls f) (hn : .priority n ∈ ls) : ∃ k, number n k := by
  induction h with
  | word | tag | status => simp at hn
  | @priority m k h =>
    obtain rfl : n = m := by simpa using hn
    exact ⟨k, h⟩
  | range h => exact h.exists_number hn
  | group _ ih | not _ ih => exact ih (by simpa using hn)
  | primary _ ih | unary _ ih | conjunction _ ih => exact ih hn
  | and _ _ ihf ihg | or _ _ ihf ihg =>
    have hmem := List.mem_append.1 hn
    exact hmem.elim ihf fun h => ihg (by simpa using h)

end TodoLists.Query
