import TodoLists.Proofs.Desk.Blanks
import TodoLists.Proofs.Filter.Flattening
import TodoLists.Proofs.Filter.RoundTrip

/-!
# Texts put together

Texts of filters make the text of a filter when they are put side by side, joined by `&`, negated,
or enclosed in parentheses, and it is the filter that is put together in the same way from what each
of them is read as. The parser folds a disjunction from the left and sees no parts, so that two of them
side by side are one depends on `either` splicing both. A text in parentheses stays a group whatever
ranges it holds.

The words `all` and `none` are left out: alone they are keywords, and inside another text they are
names.
-/

namespace TodoLists

namespace Query

/-- The text is one of the words that are keywords, perhaps with blanks around it. -/
def isKeywordText (s : List Char) : Bool := Filter.isKeyword (String.ofList (Text.strip s))

/-! ### Keywords -/

/-- A text with a word for its only token is this word with blanks around it. -/
theorem strip_of_lexemes_eq_word {s w : List Char} (h : lexemes s = [.word w]) :
    Text.strip s = w := by
  induction s using cut_induction with
  | nil =>
    rw [lexemes_nil] at h
    exact absurd h.symm (List.cons_ne_nil _ _)
  | blank c cs hb ih =>
    rw [lexemes_blank hb] at h
    have hblank : Text.allBlank [c] = true := by rw [Text.allBlank, List.all_cons, hb]; rfl
    rw [← List.singleton_append, Text.strip_blank_append hblank, ih h]
  | lexeme c tail rest l hb hl htext _ =>
    rw [lexemes_lexeme hb hl htext, List.cons.injEq] at h
    obtain ⟨rfl, hrest⟩ := h
    have hword : IsWord w := hl.isCut
    obtain rfl : w = c :: tail := htext
    have hplain : ∀ x ∈ c :: tail, Text.isBlank x = false := fun x hx => (hword.plain x hx).1
    rw [← List.cons_append, Text.strip_append_blank _ (lexemes_eq_nil_iff.1 hrest), Text.strip,
      Text.trim_eq_self hplain]

theorem lexemes_ne_keyword {s : List Char} (h : isKeywordText s = false) {w : String}
    (hw : Filter.isKeyword w = true) : lexemes s ≠ [.word w.toList] := by
  intro hword
  rw [isKeywordText, strip_of_lexemes_eq_word hword, String.ofList_toList, hw] at h
  exact Bool.noConfusion h

/-! ### One text -/

/-- A text that is no keyword is a filter exactly when its tokens are a disjunction. -/
theorem parseFilter_eq_ok_iff_derives {s : String} (hkeyword : isKeywordText s.toList = false)
    {f : Filter} :
    parseFilter s = .ok f ↔ Derives reads .disjunction (lexemes s.toList) f := by
  have hall := lexemes_ne_keyword hkeyword (w := "all") rfl
  have hnone := lexemes_ne_keyword hkeyword (w := "none") rfl
  rw [parseFilter, onText_eq_ok_iff, parseFilterChars_eq_ok_iff]
  constructor
  · intro h
    generalize lexemes s.toList = ls at h hall hnone
    cases h with
    | all => exact absurd rfl hall
    | none => exact absurd rfl hnone
    | filter _ _ h => exact h
  · exact .filter hall hnone

/-- A derivation of more than a single word is no keyword, so the text is read as it derives. -/
theorem parseFilter_of_derives {s : String} {c : Category} {ls : List Lexeme} {f : Filter}
    (hs : lexemes s.toList = ls) (hword : ∀ w, ls ≠ [.word w]) (h : Derives reads c ls f) :
    parseFilter s = .ok f := by
  rw [parseFilter, onText_eq_ok_iff, parseFilterChars_eq_ok_iff, hs]
  exact .filter (hword _) (hword _) (Filter.derives_disjunction h)

/-! ### Two texts -/

/-- Two disjunctions side by side are one, for the second is taken up conjunction by conjunction. -/
theorem Derives.append {number : List Char → Int → Prop} {ls ms : List Lexeme} {f g : Filter}
    (hf : Derives number .disjunction ls f) (hg : Derives number .disjunction ms g) :
    Derives number .disjunction (ls ++ ms) (f.either g) := by
  generalize hc : Category.disjunction = c at hg
  induction hg with
  | word | tag | status | priority | range | group | primary | not | unary | and => cases hc
  | conjunction h => exact .or hf h
  | or _ hg ih =>
    rw [← List.append_assoc, ← Filter.either_assoc]
    exact .or (ih hc) hg

variable {s t : String}

theorem toList_parenthesized (s : String) :
    ("(" ++ s ++ ")").toList = Filter.parenthesized s.toList := by
  rw [String.toList_append, String.toList_append]
  rfl

theorem lexemes_beside (s t : String) :
    lexemes (s ++ " " ++ t).toList = lexemes s.toList ++ lexemes t.toList := by
  rw [String.toList_append, String.toList_append, List.append_assoc]
  exact lexemes_append_space s.toList t.toList

theorem lexemes_joined (s t : String) :
    lexemes ("(" ++ s ++ ") & (" ++ t ++ ")").toList =
      lexemes (Filter.parenthesized s.toList) ++
        .and :: lexemes (Filter.parenthesized t.toList) := by
  have hand := Filter.lexemes_separator (l := .and) trivial (Filter.parenthesized s.toList)
    (Filter.parenthesized t.toList)
  rw [List.singleton_append] at hand
  rw [← hand]
  simp [Filter.parenthesized, Lexeme.text]

theorem lexemes_negated (s : String) :
    lexemes ("!(" ++ s ++ ")").toList = .not :: lexemes (Filter.parenthesized s.toList) := by
  rw [← lexemes_sign (c := '!') rfl, String.toList_append, String.toList_append]
  rfl

section

variable {f g : Filter} (hs : parseFilter s = .ok f) (hs' : isKeywordText s.toList = false)

include hs hs'

theorem parseFilter_beside (ht : parseFilter t = .ok g) (ht' : isKeywordText t.toList = false) :
    parseFilter (s ++ " " ++ t) = .ok (f.either g) := by
  have hf := (parseFilter_eq_ok_iff_derives hs').1 hs
  have hg := (parseFilter_eq_ok_iff_derives ht').1 ht
  refine parseFilter_of_derives (lexemes_beside s t) ?_ (hf.append hg)
  intro w h
  have hlength := congrArg List.length h
  have hfirst := List.length_pos_iff.2 hf.ne_nil
  have hsecond := List.length_pos_iff.2 hg.ne_nil
  rw [List.length_append, List.length_singleton] at hlength
  omega

theorem parseFilter_joined (ht : parseFilter t = .ok g) (ht' : isKeywordText t.toList = false) :
    parseFilter ("(" ++ s ++ ") & (" ++ t ++ ")") = .ok (f.both g) := by
  have hf := Filter.derives_parenthesized ((parseFilter_eq_ok_iff_derives hs').1 hs)
  have hg := Filter.derives_parenthesized ((parseFilter_eq_ok_iff_derives ht').1 ht)
  refine parseFilter_of_derives (lexemes_joined s t) ?_ (.and (.unary (.primary hf)) (.primary hg))
  intro w h
  rw [Filter.lexemes_parenthesized, List.cons_append, List.cons.injEq] at h
  exact Lexeme.noConfusion h.1

theorem parseFilter_negated : parseFilter ("!(" ++ s ++ ")") = .ok (.not f) := by
  have hf := Filter.derives_parenthesized ((parseFilter_eq_ok_iff_derives hs').1 hs)
  refine parseFilter_of_derives (lexemes_negated s) ?_ (.not (.primary hf))
  intro w h
  exact Lexeme.noConfusion (List.cons.inj h).1

theorem parseFilter_parenthesized : parseFilter ("(" ++ s ++ ")") = .ok f := by
  have hf := Filter.derives_parenthesized ((parseFilter_eq_ok_iff_derives hs').1 hs)
  refine parseFilter_of_derives (congrArg lexemes (toList_parenthesized s)) ?_ hf
  intro w h
  rw [Filter.lexemes_parenthesized] at h
  exact Lexeme.noConfusion (List.cons.inj h).1

/-- Texts that are put together are read as the filters put together. -/
theorem parseFilter_composes (ht : parseFilter t = .ok g) (ht' : isKeywordText t.toList = false) :
    parseFilter (s ++ " " ++ t) = .ok (f.either g) ∧
    parseFilter ("(" ++ s ++ ") & (" ++ t ++ ")") = .ok (f.both g) ∧
    parseFilter ("!(" ++ s ++ ")") = .ok (.not f) ∧
    parseFilter ("(" ++ s ++ ")") = .ok f :=
  ⟨parseFilter_beside hs hs' ht ht', parseFilter_joined hs hs' ht ht', parseFilter_negated hs hs',
    parseFilter_parenthesized hs hs'⟩

end

/-- A range that opens like a group, and a name that is spelt like a keyword. -/
theorem parseFilter_composes_errands :
    let s := "(%Waiting ... inf] #home"
    let t := "milk !(all)"
    let f : Filter := .or [.status ⟨.excluding .waiting, .unbounded⟩, .tag "home"]
    let g : Filter := .or [.name "milk", .not (.name "all")]
    (parseFilter s = .ok f ∧ isKeywordText s.toList = false) ∧
    (parseFilter t = .ok g ∧ isKeywordText t.toList = false) ∧
    parseFilter (s ++ " " ++ t) = .ok (.or [.status ⟨.excluding .waiting, .unbounded⟩,
      .tag "home", .name "milk", .not (.name "all")]) ∧
    parseFilter ("(" ++ s ++ ") & (" ++ t ++ ")") = .ok (.and [f, g]) ∧
    parseFilter ("!(" ++ s ++ ")") = .ok (.not f) ∧ parseFilter ("(" ++ s ++ ")") = .ok f := by
  intro s t f g
  have hname : ∀ n, IsWord n.toList → (Filter.name n).Regular := fun n => .name
  have hf : f.Regular := by
    refine .or (by decide) (by simp [Filter.isOr]) ?_
    simpa using ⟨Filter.Regular.status _, Filter.Regular.tag (by decide)⟩
  have hg : g.Regular := by
    refine .or (by decide) (by simp [Filter.isOr]) ?_
    simpa using ⟨hname "milk" (by decide), Filter.Regular.not (hname "all" (by decide))⟩
  have hs : parseFilter s = .ok f := by
    have hprint : String.ofList f.print = s := by decide +kernel
    rw [← hprint]
    exact Filter.parseFilter_print (Or.inr (Or.inr hf)) rfl
  have ht : parseFilter t = .ok g := by
    have hprint : String.ofList g.print = t := by decide +kernel
    rw [← hprint]
    exact Filter.parseFilter_print (Or.inr (Or.inr hg)) rfl
  have hs' : isKeywordText s.toList = false := by decide
  have ht' : isKeywordText t.toList = false := by decide
  exact ⟨⟨hs, hs'⟩, ⟨ht, ht'⟩, parseFilter_composes hs hs' ht ht'⟩

end Query

end TodoLists
