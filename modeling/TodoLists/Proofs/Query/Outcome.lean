import TodoLists.Proofs.Query.Descent
import TodoLists.Proofs.Query.Lexemes
import TodoLists.Proofs.Query.Limits
import TodoLists.Proofs.Text.LetterCase

/-!
# What the descent reads and where it stops

Each function of the descent, on any tokens, either reads a derivation of its category off their
front or fails at a place before which nothing is wrong yet. Both are said at once by `Meets`, so
one induction along the descent shows both. The one thing that is found too late is a range between
a status and a priority: it is refused only when it is closed, and another failure may come first.
-/

namespace TodoLists.Query

/-- The number that the parser reads from a numeral. -/
def reads (numeral : List Char) (n : Int) : Prop := Text.readInt? numeral = some n

/-! ### Outcomes -/

section Outcomes

variable {α β : Type}

/-- Something of which `P` holds begins with the lexemes. -/
def Viable (P : List Lexeme → α → Prop) (ls : List Lexeme) : Prop :=
  ∃ more a, (∀ l ∈ more, l.IsCut) ∧ P (ls ++ more) a

/-- The lexemes before a failure go on to something of which `P` holds, or they mix the limits of a
range. -/
def StopsAfter (P : List Lexeme → α → Prop) (ls : List Lexeme) : Prop :=
  Viable P ls ∨ MixesLimits ls

/-- Behind the tokens that are done, the tokens up to what is left give a value as `P` says, or the
tokens before the failure are as `E` says. -/
def Meets (P : List Lexeme → α → Prop) (E : List Lexeme → Prop) (stop : Nat)
    (done ts : List Token) : Except ParseError (α × List Token) → Prop
  | .ok (a, rest) => ∃ used, ts = used ++ rest ∧ P ((done ++ used).map Token.lexeme) a
  | .error e => ∃ before after, done ++ ts = before ++ after ∧
      e.position = positionOf stop after ∧ E (before.map Token.lexeme)

variable {P : List Lexeme → α → Prop} {Q : List Lexeme → β → Prop} {D E : List Lexeme → Prop}
  {stop : Nat} {done ts : List Token}

theorem Viable.of_append {ls : List Lexeme} (more : List Lexeme) {a : α} (h : P (ls ++ more) a)
    (hmore : ∀ l ∈ more, l.IsCut) : Viable P ls := ⟨more, a, hmore, h⟩

theorem Viable.of_derives {ls : List Lexeme} {a : α} (h : P ls a) : Viable P ls :=
  ⟨[], a, by simp, by rwa [List.append_nil]⟩

theorem MixesLimits.append_left {ls : List Lexeme} (h : MixesLimits ls) (xs : List Lexeme) :
    MixesLimits (xs ++ ls) := by
  obtain ⟨before, a, b, hclash, rfl⟩ := h
  exact ⟨xs ++ before, a, b, hclash, (List.append_assoc ..).symm⟩

/-- Where the beginning of a part stops, the beginning of the whole stops. -/
theorem StopsAfter.lift {xs ls : List Lexeme} (h : StopsAfter P ls)
    (hwhole : ∀ ms a, P ms a → Viable Q (xs ++ ms)) : StopsAfter Q (xs ++ ls) := by
  rcases h with ⟨more, a, hmore, ha⟩ | hmixes
  · obtain ⟨rest, b, hrest, hb⟩ := hwhole _ a ha
    rw [← List.append_assoc, List.append_assoc] at hb
    refine Or.inl ⟨more ++ rest, b, ?_, hb⟩
    intro l hl
    exact (List.mem_append.1 hl).elim (hmore l) (hrest l)
  · exact Or.inr (hmixes.append_left xs)

theorem Meets.ok {a : α} (h : P (done.map Token.lexeme) a) :
    Meets P E stop done ts (.ok (a, ts)) :=
  ⟨[], rfl, by rwa [List.append_nil]⟩

theorem Meets.error {cause : SyntaxCause} (h : E (done.map Token.lexeme)) :
    Meets P E stop done ts (.error ⟨cause, positionOf stop ts⟩) :=
  ⟨done, ts, rfl, rfl, h⟩

/-- Tokens that have been read are tokens that are done. -/
theorem Meets.of_done {used : List Token} {x : Except ParseError (α × List Token)}
    (h : Meets P E stop (done ++ used) ts x) : Meets P E stop done (used ++ ts) x := by
  rcases x with e | ⟨a, rest⟩
  · obtain ⟨before, after, hsplit, hposition, hbefore⟩ := h
    exact ⟨before, after, by rw [← hsplit, List.append_assoc], hposition, hbefore⟩
  · obtain ⟨more, rfl, ha⟩ := h
    exact ⟨used ++ more, (List.append_assoc ..).symm, by rwa [← List.append_assoc]⟩

theorem Meets.of_cons {t : Token} {x : Except ParseError (α × List Token)}
    (h : Meets P E stop (done ++ [t]) ts x) : Meets P E stop done (t :: ts) x := h.of_done

theorem Meets.bind {x : Except ParseError (α × List Token)}
    {k : α × List Token → Except ParseError (β × List Token)} (hx : Meets P D stop [] ts x)
    (herror : ∀ ls, D ls → E (done.map Token.lexeme ++ ls))
    (hk : ∀ used rest a, ts = used ++ rest → P (used.map Token.lexeme) a →
      Meets Q E stop (done ++ used) rest (k (a, rest))) :
    Meets Q E stop done ts (x.bind k) := by
  rcases x with e | ⟨a, rest⟩
  · obtain ⟨before, after, hsplit, hposition, hbefore⟩ := hx
    refine ⟨done ++ before, after, ?_, hposition, ?_⟩
    · rw [List.append_assoc, ← hsplit, List.nil_append]
    · rw [List.map_append]
      exact herror _ hbefore
  · obtain ⟨used, rfl, ha⟩ := hx
    exact (hk used rest a rfl ha).of_done

theorem Meets.map {x : Except ParseError (α × List Token)} {g : α → β}
    (hx : Meets P D stop [] ts x) (herror : ∀ ls, D ls → E (done.map Token.lexeme ++ ls))
    (hvalue : ∀ ls a, P ls a → Q (done.map Token.lexeme ++ ls) (g a)) :
    Meets Q E stop done ts (x.map fun y => (g y.1, y.2)) := by
  have hbind : x.map (fun y => (g y.1, y.2)) = x.bind fun y => .ok (g y.1, y.2) := by
    cases x <;> rfl
  rw [hbind]
  refine hx.bind herror fun used rest a _ ha => .ok ?_
  rw [List.map_append]
  exact hvalue _ a ha

theorem Meets.weaken {P' : List Lexeme → α → Prop} {x : Except ParseError (α × List Token)}
    (h : Meets P D stop done ts x) (hvalue : ∀ ls a, P ls a → P' ls a)
    (herror : ∀ ls, D ls → E ls) : Meets P' E stop done ts x := by
  rcases x with e | ⟨a, rest⟩
  · obtain ⟨before, after, hsplit, hposition, hbefore⟩ := h
    exact ⟨before, after, hsplit, hposition, herror _ hbefore⟩
  · obtain ⟨used, hsplit, ha⟩ := h
    exact ⟨used, hsplit, hvalue _ a ha⟩

/-- The result of reading one token, which may fail at this token. -/
theorem Meets.located {γ : Type} {t : Token} {x : Except SyntaxCause γ} {g : γ → α}
    (herror : E (done.map Token.lexeme))
    (hvalue : ∀ c, x = .ok c → P (done.map Token.lexeme ++ [t.lexeme]) (g c)) :
    Meets P E stop done (t :: ts) ((located t.position x).map fun c => (g c, ts)) := by
  cases x with
  | error cause => exact ⟨done, t :: ts, rfl, rfl, herror⟩
  | ok c =>
    refine ⟨[t], rfl, ?_⟩
    rw [List.map_append]
    exact hvalue c rfl

end Outcomes

/-! ### Ranges -/

section Ranges

variable {stop : Nat} {t : Token} {ts : List Token}

theorem ofWord_of_statusOf {w : List Char} {s : Status} (h : statusOf w = .ok s) :
    Status.ofWord w = .ok s := by
  unfold statusOf at h
  split at h
  · cases h
  · cases hw : Status.ofWord w <;> rw [hw] at h <;> cases h
    rfl

theorem reads_of_priorityOf {n : List Char} {k : Int} (h : priorityOf n = .ok k) : reads n k := by
  unfold priorityOf at h
  cases hn : Text.readInt? n <;> rw [hn] at h <;> cases h
  exact hn

theorem isUnboundedWord_iff {w : List Char} :
    isUnboundedWord w = true ↔ w.map Char.toLower = "inf".toList := by
  rw [isUnboundedWord, beq_iff_eq, Text.lowercase_eq_inf_iff]

theorem readLimit_meets :
    Meets (DerivesLimit reads) (· = []) stop [] ts (readLimit stop ts) := by
  cases ts with
  | nil =>
    rw [readLimit_nil]
    exact .error rfl
  | cons t rest =>
    cases hl : t.lexeme with
    | status w =>
      rw [readLimit_status hl]
      refine .located rfl fun s hs => ?_
      rw [hl]
      exact .status (ofWord_of_statusOf hs)
    | priority n =>
      rw [readLimit_priority hl]
      refine .located rfl fun k hk => ?_
      rw [hl]
      exact .priority (reads_of_priorityOf hk)
    | word w =>
      rw [readLimit_word hl]
      split
      · rename_i hw
        refine ⟨[t], rfl, ?_⟩
        simp only [List.nil_append, List.map_cons, List.map_nil, hl]
        exact .unbounded (isUnboundedWord_iff.1 hw)
      · exact .error rfl
    | dots | rparen | rbracket =>
      rw [readLimit_omitted (by rw [hl]; rfl)]
      exact .ok .omitted
    | arrow | lparen | lbracket | and | not | tag =>
      rw [readLimit_other] <;> first | exact .error rfl | simp [hl, Lexeme.endsLimit]

theorem readExact_meets {l : Lexeme} {cause : SyntaxCause} :
    Meets (fun ls (_ : Unit) => ls = [l]) (· = []) stop [] ts (readExact stop l cause ts) := by
  cases ts with
  | nil =>
    rw [readExact_nil]
    exact .error rfl
  | cons t rest =>
    rw [readExact_cons]
    split
    · rename_i hl
      refine ⟨[t], rfl, ?_⟩
      rw [← hl]
      rfl
    · exact .error rfl

theorem readCloser_meets :
    Meets (fun ls i => ∃ l, Closes l i ∧ ls = [l]) (· = []) stop [] ts (readCloser stop ts) := by
  cases ts with
  | nil =>
    rw [readCloser_nil]
    exact .error rfl
  | cons t rest =>
    rw [readCloser_cons]
    split
    · rename_i hl
      exact ⟨[t], rfl, t.lexeme, by rw [hl]; exact .round, rfl⟩
    · split
      · rename_i hl
        exact ⟨[t], rfl, t.lexeme, by rw [hl]; exact .square, rfl⟩
      · exact .error rfl

theorem Opens.isCut {l : Lexeme} {i : Bool} (h : Opens l i) : l.IsCut := by
  cases h <;> trivial

theorem Opens.isSquare_eq {l : Lexeme} {i : Bool} (h : Opens l i) :
    decide (l = .lbracket) = i := by
  cases h <;> rfl

/-- Two limits are of one kind, or they are a status and a priority. -/
theorem sameKind_or_clash {low high : List Lexeme} {a b : Option Value}
    (hlow : DerivesLimit reads low a) (hhigh : DerivesLimit reads high b) :
    (∀ x ∈ a, ∀ y ∈ b, x.sameKind y = true) ∨
      ∃ l m, low = [l] ∧ high = [m] ∧ Clash l m ∧ ∀ i j, range? i j a b = none := by
  cases hlow with
  | omitted | unbounded => exact Or.inl nofun
  | status =>
    cases hhigh with
    | omitted | unbounded => exact Or.inl nofun
    | status => exact Or.inl fun _ hx _ hy => by cases hx; cases hy; rfl
    | priority => exact Or.inr ⟨_, _, rfl, rfl, .statusFirst _ _, fun _ _ => rfl⟩
  | priority =>
    cases hhigh with
    | omitted | unbounded => exact Or.inl nofun
    | status => exact Or.inr ⟨_, _, rfl, rfl, .priorityFirst _ _, fun _ _ => rfl⟩
    | priority => exact Or.inl fun _ hx _ hy => by cases hx; cases hy; rfl

/-- The lexemes of a range. -/
def IsRange (ls : List Lexeme) (r : AnyRange) : Prop := DerivesRange reads ls r.toFilter

/-- Two limits of one kind make a range. -/
theorem exists_range {opener closer : Lexeme} {i j : Bool} {low high : List Lexeme}
    {a b : Option Value} (hopen : Opens opener i) (hlow : DerivesLimit reads low a)
    (hhigh : DerivesLimit reads high b) (hclose : Closes closer j)
    (hkind : ∀ x ∈ a, ∀ y ∈ b, x.sameKind y = true) :
    ∃ r, range? i j a b = some r ∧
      IsRange (opener :: (low ++ .dots :: (high ++ [closer]))) r := by
  rcases a with _ | (s | n)
  · rcases b with _ | (s' | n')
    · exact ⟨_, rfl, .statuses (a := none) (b := none) hopen hlow hhigh hclose⟩
    · exact ⟨_, rfl, .statuses (a := none) (b := some s') hopen hlow hhigh hclose⟩
    · exact ⟨_, rfl, .priorities (a := none) (b := some n') hopen hlow hhigh hclose (Or.inr nofun)⟩
  · rcases b with _ | (s' | n')
    · exact ⟨_, rfl, .statuses (a := some s) (b := none) hopen hlow hhigh hclose⟩
    · exact ⟨_, rfl, .statuses (a := some s) (b := some s') hopen hlow hhigh hclose⟩
    · exact absurd (hkind _ rfl _ rfl) Bool.false_ne_true
  · rcases b with _ | (s' | n')
    · exact ⟨_, rfl, .priorities (a := some n) (b := none) hopen hlow hhigh hclose (Or.inl nofun)⟩
    · exact absurd (hkind _ rfl _ rfl) Bool.false_ne_true
    · exact ⟨_, rfl,
        .priorities (a := some n) (b := some n') hopen hlow hhigh hclose (Or.inl nofun)⟩

/-- A range goes on behind its lower limit, whatever that is. -/
theorem isRange_of_low {opener : Lexeme} {i : Bool} {low : List Lexeme} {a : Option Value}
    (hopen : Opens opener i) (hlow : DerivesLimit reads low a) :
    ∃ r, IsRange (opener :: (low ++ [.dots, .rbracket])) r := by
  obtain ⟨r, -, hr⟩ := exists_range hopen hlow .omitted .square (fun _ _ _ hy => by cases hy)
  exact ⟨r, hr⟩

theorem readRange_meets {i : Bool} (hopen : Opens t.lexeme i) :
    Meets IsRange (StopsAfter IsRange) stop [t] ts (readRange stop t ts) := by
  rw [readRange_eq]
  refine readLimit_meets.bind ?_ fun lows ts₁ low _ hlow => ?_
  · rintro _ rfl
    obtain ⟨r, hr⟩ := isRange_of_low hopen .omitted
    exact Or.inl (.of_append [.dots, .rbracket] hr (by simp [Lexeme.IsCut]))
  obtain ⟨r₀, hr₀⟩ := isRange_of_low hopen hlow
  refine readExact_meets.bind ?_ fun dots ts₂ _ _ hdots => ?_
  · rintro _ rfl
    refine Or.inl (.of_append [.dots, .rbracket] (a := r₀) ?_ (by simp [Lexeme.IsCut]))
    simpa using hr₀
  refine readLimit_meets.bind ?_ fun highs ts₃ high _ hhigh => ?_
  · rintro _ rfl
    refine Or.inl (.of_append [.rbracket] (a := r₀) ?_ (by simp [Lexeme.IsCut]))
    simpa [hdots] using hr₀
  rcases sameKind_or_clash hlow hhigh with hkind | ⟨l, m, hl, hm, hclash, hnone⟩
  · refine readCloser_meets.bind ?_ fun closers ts₄ j _ hclose => ?_
    · rintro _ rfl
      obtain ⟨r, -, hr⟩ := exists_range hopen hlow hhigh .square hkind
      refine Or.inl (.of_append [.rbracket] (a := r) ?_ (by simp [Lexeme.IsCut]))
      simpa [hdots] using hr
    · obtain ⟨closer, hcloser, hclose⟩ := hclose
      obtain ⟨r, hrange, hr⟩ := exists_range hopen hlow hhigh hcloser hkind
      simp only [joinLimits, hopen.isSquare_eq, hrange]
      refine .ok ?_
      simpa [hdots, hclose] using hr
  · refine readCloser_meets.bind ?_ fun closers ts₄ j _ hclose => ?_
    · -- the missing bracket is noticed first
      rintro _ rfl
      refine Or.inr ⟨[t.lexeme], l, m, hclash, ?_⟩
      simp [hl, hm, hdots]
    · obtain ⟨r, hr⟩ := isRange_of_low (a := none) hopen .omitted
      simp only [joinLimits, hnone]
      refine ⟨[], _, rfl, rfl, Or.inl ?_⟩
      exact .of_append [t.lexeme, .dots, .rbracket] hr
        (by simpa [Lexeme.IsCut] using hopen.isCut)

end Ranges

/-! ### Filters -/

section Filters

variable {stop : Nat} {t : Token} {ts done : List Token}

/-- The descent reads a filter of a category. -/
def Reads (c : Category) (stop : Nat) (done ts : List Token) :
    Except ParseError (Filter × List Token) → Prop :=
  Meets (Derives reads c) (StopsAfter (Derives reads c)) stop done ts

theorem tagOf_eq_ok {w : List Char} {n : String} (h : tagOf w = .ok n) :
    w ≠ [] ∧ n = String.ofList w := by
  unfold tagOf at h
  split at h <;> cases h
  exact ⟨‹_›, rfl⟩

/-- A filter of any category can come next. -/
theorem viable_nil (c : Category) : Viable (Derives reads c) [] := by
  have hword : IsWord ['a'] := by decide
  have hname : Derives reads .primary [.word ['a']] (.name (String.ofList ['a'])) := .word ['a']
  refine ⟨[.word ['a']], .name (String.ofList ['a']), by simpa [Lexeme.IsCut] using hword, ?_⟩
  cases c with
  | primary => exact hname
  | unary => exact .primary hname
  | conjunction => exact .unary (.primary hname)
  | disjunction => exact .conjunction (.unary (.primary hname))

theorem stopsAfter_nil (c : Category) : StopsAfter (Derives reads c) [] := Or.inl (viable_nil c)

theorem readPrimary_range_reads (h : opensRange t ts = true) :
    Reads .primary stop [] (t :: ts) (readPrimary stop (t :: ts)) := by
  have hopen : ∃ i, Opens t.lexeme i := by
    simp only [opensRange, Bool.or_eq_true, Bool.and_eq_true, decide_eq_true_eq] at h
    rcases h with hopen | ⟨hopen, -⟩
    · exact ⟨true, by rw [hopen]; exact .square⟩
    · exact ⟨false, by rw [hopen]; exact .round⟩
  obtain ⟨i, hopen⟩ := hopen
  rw [readPrimary_range h]
  refine Meets.map (Meets.of_cons (readRange_meets hopen)) ?_ ?_
  · intro ls hls
    exact hls.lift fun ms r hr => .of_derives (.range hr)
  · intro ls r hr
    exact .range hr

theorem readPrimary_group_reads (hopen : t.lexeme = .lparen) (hdots : dotsAhead 1 ts = false)
    (ih : Reads .disjunction stop [] ts (readOr stop ts)) :
    Reads .primary stop [] (t :: ts) (readPrimary stop (t :: ts)) := by
  have hgroup : ∀ ls f, Derives reads .disjunction ls f →
      Derives reads .primary ([t].map Token.lexeme ++ ls ++ [.rparen]) f := by
    intro ls f h
    simpa [hopen] using Derives.group h
  rw [readPrimary_group hopen hdots]
  refine Meets.of_cons (ih.bind ?_ fun used rest f _ hf => ?_)
  · intro ls hls
    exact hls.lift fun ms f hf => .of_append [.rparen] (hgroup ms f hf) (by simp [Lexeme.IsCut])
  · refine Meets.map (g := fun _ => f) readExact_meets ?_ ?_
    · rintro _ rfl
      refine Or.inl (.of_append [.rparen] (a := f) ?_ (by simp [Lexeme.IsCut]))
      simpa using hgroup _ f hf
    · rintro _ _ rfl
      simpa using hgroup _ f hf

theorem readUnary_not_reads {p : Nat} (ih : Reads .unary stop [] ts (readUnary stop ts)) :
    Reads .unary stop [] (⟨.not, p⟩ :: ts) (readUnary stop (⟨.not, p⟩ :: ts)) := by
  rw [readUnary_not]
  refine Meets.of_cons (Meets.map ih ?_ ?_)
  · intro ls hls
    exact hls.lift fun ms f hf => .of_derives (.not hf)
  · intro ls f hf
    exact .not hf

/-- What has been read of a conjunction or of a disjunction is done, and the rest is read behind
it. -/
def ReadsRest (c : Category) (stop : Nat) (f : Filter) (ts : List Token)
    (x : Except ParseError (Filter × List Token)) : Prop :=
  ∀ done, Derives reads c (done.map Token.lexeme) f → Reads c stop done ts x

theorem length_lt_of_derives {c : Category} {used rest : List Token} {f : Filter}
    (hts : ts = used ++ rest) (h : Derives reads c (used.map Token.lexeme) f) :
    rest.length < ts.length := by
  have hused : used ≠ [] := fun hnil => h.ne_nil (by rw [hnil, List.map_nil])
  have hpos := List.length_pos_iff.2 hused
  rw [hts, List.length_append]
  omega

theorem readAnd_reads (ih : Reads .unary stop [] ts (readUnary stop ts))
    (ihRest : ∀ f rest, rest.length < ts.length →
      ReadsRest .conjunction stop f rest (readAndRest stop f rest)) :
    Reads .conjunction stop [] ts (readAnd stop ts) := by
  rw [readAnd_eq]
  refine ih.bind ?_ fun used rest f hts hf => ?_
  · intro ls hls
    exact hls.lift fun ms f hf => .of_derives (.unary hf)
  · exact ihRest f rest (length_lt_of_derives hts hf) _ (.unary hf)

theorem readAndRest_and_reads {f : Filter} {p : Nat}
    (ih : Reads .unary stop [] ts (readUnary stop ts))
    (ihRest : ∀ g rest, rest.length < ts.length →
      ReadsRest .conjunction stop (f.both g) rest (readAndRest stop (f.both g) rest)) :
    ReadsRest .conjunction stop f (⟨.and, p⟩ :: ts) (readAndRest stop f (⟨.and, p⟩ :: ts)) := by
  intro done hdone
  have hand : ∀ ls g, Derives reads .unary ls g →
      Derives reads .conjunction ((done ++ [(⟨.and, p⟩ : Token)]).map Token.lexeme ++ ls)
        (f.both g) := by
    intro ls g hg
    simpa using Derives.and hdone hg
  rw [readAndRest_and]
  refine Meets.of_cons (ih.bind ?_ fun used rest g hts hg => ?_)
  · intro ls hls
    exact hls.lift fun ms g hg => .of_derives (hand ms g hg)
  · refine ihRest g rest (length_lt_of_derives hts hg) _ ?_
    rw [List.map_append]
    exact hand _ g hg

theorem readOr_reads (ih : Reads .conjunction stop [] ts (readAnd stop ts))
    (ihRest : ∀ f rest, rest.length < ts.length →
      ReadsRest .disjunction stop f rest (readOrRest stop f rest)) :
    Reads .disjunction stop [] ts (readOr stop ts) := by
  rw [readOr_eq]
  refine ih.bind ?_ fun used rest f hts hf => ?_
  · intro ls hls
    exact hls.lift fun ms f hf => .of_derives (.conjunction hf)
  · exact ihRest f rest (length_lt_of_derives hts hf) _ (.conjunction hf)

theorem readOrRest_term_reads {f : Filter} (hterm : startsTerm ts = true)
    (ih : Reads .conjunction stop [] ts (readAnd stop ts))
    (ihRest : ∀ g rest, rest.length < ts.length →
      ReadsRest .disjunction stop (f.either g) rest (readOrRest stop (f.either g) rest)) :
    ReadsRest .disjunction stop f ts (readOrRest stop f ts) := by
  intro done hdone
  rw [readOrRest_term hterm]
  refine ih.bind ?_ fun used rest g hts hg => ?_
  · intro ls hls
    exact hls.lift fun ms g hg => .of_derives (.or hdone hg)
  · refine ihRest g rest (length_lt_of_derives hts hg) _ ?_
    rw [List.map_append]
    exact .or hdone hg

/-- One step of the descent for each rule. -/
theorem descent_reads (stop : Nat) :
    (∀ ts, Reads .primary stop [] ts (readPrimary stop ts)) ∧
    (∀ ts, Reads .disjunction stop [] ts (readOr stop ts)) ∧
    (∀ f ts, ReadsRest .disjunction stop f ts (readOrRest stop f ts)) ∧
    (∀ ts, Reads .conjunction stop [] ts (readAnd stop ts)) ∧
    (∀ f ts, ReadsRest .conjunction stop f ts (readAndRest stop f ts)) ∧
    (∀ ts, Reads .unary stop [] ts (readUnary stop ts)) := by
  refine parsePrimary.mutual_induct _ _ _ _ _ _ ?_ ?_ ?_ ?_ ?_ ?_ ?_ ?_ ?_ ?_ ?_ ?_ ?_ ?_ ?_ ?_ ?_
  -- a primary
  · rw [readPrimary_nil]
    exact .error (stopsAfter_nil _)
  · intro t rest w hl
    rw [readPrimary_word hl]
    refine ⟨[t], rfl, ?_⟩
    simp only [List.nil_append, List.map_cons, List.map_nil, hl]
    exact .word w
  · intro t rest w hl
    rw [readPrimary_tag hl]
    refine .located (stopsAfter_nil _) fun n hn => ?_
    obtain ⟨hne, rfl⟩ := tagOf_eq_ok hn
    rw [hl]
    exact .tag hne
  · intro t rest w hl
    rw [readPrimary_status hl]
    refine .located (stopsAfter_nil _) fun s hs => ?_
    rw [hl]
    exact .status (ofWord_of_statusOf hs)
  · intro t rest n hl
    rw [readPrimary_priority hl]
    refine .located (stopsAfter_nil _) fun k hk => ?_
    rw [hl]
    exact .priority (reads_of_priorityOf hk)
  · intro t rest hl
    exact readPrimary_range_reads (by simp [opensRange, hl])
  · intro t rest hl hdots
    exact readPrimary_range_reads (by simp [opensRange, hl, hdots])
  · intro t rest hl hdots ih
    exact readPrimary_group_reads hl (by simpa using hdots) ih
  · intro t rest hword htag hstatus hpriority hsquare hround
    rw [readPrimary_other hword htag hstatus hpriority hsquare hround]
    exact .error (stopsAfter_nil _)
  -- a disjunction
  · intro ts ih ihRest
    exact readOr_reads ih ihRest
  · intro f ts hterm ih ihRest
    exact readOrRest_term_reads hterm ih ihRest
  · intro f ts hterm done hdone
    rw [readOrRest_stop (by simpa using hterm)]
    exact .ok hdone
  -- a conjunction
  · intro ts ih ihRest
    exact readAnd_reads ih ihRest
  · intro f p rest ih ihRest
    exact readAndRest_and_reads ih ihRest
  · intro f ts hts done hdone
    rw [readAndRest_of_ne hts]
    exact .ok hdone
  -- a negation
  · intro p rest ih
    exact readUnary_not_reads ih
  · intro ts hts ih
    rw [readUnary_of_ne hts]
    refine ih.weaken (fun _ _ h => .primary h) fun ls hls => ?_
    show StopsAfter _ ([] ++ ls)
    exact hls.lift fun ms f h => .of_derives (.primary h)

end Filters

end TodoLists.Query
