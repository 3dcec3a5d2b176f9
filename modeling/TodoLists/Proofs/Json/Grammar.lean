import TodoLists.Proofs.Json.Numbers
import TodoLists.Proofs.Json.Texts

/-!
# How values stand in texts

A relation for each of the three parts of a text: a value, the elements of an array after its
bracket, and the members of an object after its brace. It says which value stands at the beginning
of a text, blanks apart, and what is left. The reader finds exactly these values, so what holds of
all values that can be read is shown by induction on how they stand in a text.
-/

namespace TodoLists.Json

/-- The text begins with the character, blanks apart, and goes on with `r`. -/
def Starts (c : Char) (s r : List Char) : Prop := skipSpace s = c :: r

/-- A result of the reader without the proof that it took something. -/
def plain {α : Type} {s : List Char} (x : Except ReadError (α × Shorter s)) :
    Except ReadError (α × List Char) :=
  x.map fun p => (p.1, p.2.1)

/-- A text or name whose opening quote has been taken. -/
def ReadsText (s : List Char) (t : LooseText) (rest : List Char) : Prop :=
  plain (readText s) = .ok (t, rest)

def ReadsAtom (s : List Char) (v : Json) (rest : List Char) : Prop :=
  plain (readAtom s) = .ok (v, rest)

mutual

/-- A value stands at the beginning of the text. -/
inductive ReadsValue : List Char → Json → List Char → Prop where
  | text {s r rest : List Char} {t : LooseText} (hs : Starts '"' s r) (h : ReadsText r t rest) :
      ReadsValue s (str t) rest
  | emptyArray {s r rest : List Char} (hs : Starts '[' s r) (h : Starts ']' r rest) :
      ReadsValue s (arr []) rest
  | array {s r rest : List Char} {es : List Json} (hs : Starts '[' s r)
      (h : ReadsElements r es rest) : ReadsValue s (arr es) rest
  | emptyObject {s r rest : List Char} (hs : Starts '{' s r) (h : Starts '}' r rest) :
      ReadsValue s (obj []) rest
  | object {s r rest : List Char} {ms : List (LooseText × Json)} (hs : Starts '{' s r)
      (h : ReadsMembers r ms rest) : ReadsValue s (ofMembers ms) rest
  | atom {c : Char} {s r rest : List Char} {v : Json} (hs : Starts c s r)
      (hc : c ≠ '"' ∧ c ≠ '[' ∧ c ≠ '{') (h : ReadsAtom (c :: r) v rest) : ReadsValue s v rest

/-- Elements up to the closing bracket, at least one. -/
inductive ReadsElements : List Char → List Json → List Char → Prop where
  | last {s s₁ rest : List Char} {v : Json} (hv : ReadsValue s v s₁) (h : Starts ']' s₁ rest) :
      ReadsElements s [v] rest
  | cons {s s₁ s₂ rest : List Char} {v : Json} {vs : List Json} (hv : ReadsValue s v s₁)
      (hcomma : Starts ',' s₁ s₂) (h : ReadsElements s₂ vs rest) : ReadsElements s (v :: vs) rest

/-- Members up to the closing brace, at least one. -/
inductive ReadsMembers : List Char → List (LooseText × Json) → List Char → Prop where
  | last {s s₁ s₂ s₃ s₄ rest : List Char} {name : LooseText} {v : Json} (hs : Starts '"' s s₁)
      (hname : ReadsText s₁ name s₂) (hcolon : Starts ':' s₂ s₃) (hv : ReadsValue s₃ v s₄)
      (h : Starts '}' s₄ rest) : ReadsMembers s [(name, v)] rest
  | cons {s s₁ s₂ s₃ s₄ s₅ rest : List Char} {name : LooseText} {v : Json}
      {ms : List (LooseText × Json)} (hs : Starts '"' s s₁) (hname : ReadsText s₁ name s₂)
      (hcolon : Starts ':' s₂ s₃) (hv : ReadsValue s₃ v s₄) (hcomma : Starts ',' s₄ s₅)
      (h : ReadsMembers s₅ ms rest) : ReadsMembers s ((name, v) :: ms) rest

end

/-! ### Single characters -/

theorem Starts.length_lt {c : Char} {s r : List Char} (h : Starts c s r) : r.length < s.length := by
  have := length_skipSpace_le s
  rw [h, List.length_cons] at this
  omega

theorem Starts.char_eq {c d : Char} {s r r' : List Char} (h : Starts c s r) (h' : Starts d s r') :
    c = d :=
  (List.cons.inj (h.symm.trans h')).1

theorem Starts.not_starts {c d : Char} {s r : List Char} (h : Starts c s r) (hne : d ≠ c) :
    ∀ r', ¬ Starts d s r' :=
  fun _ h' => hne (h'.char_eq h)

theorem expect_of_starts {c : Char} {s r : List Char} (h : Starts c s r) :
    expect c s = .ok ⟨r, h.length_lt⟩ := by
  unfold expect
  split
  · next x r' hs =>
    obtain ⟨rfl, rfl⟩ := List.cons.inj (h.symm.trans hs)
    rw [if_pos rfl]
  · next hs => exact absurd (h.symm.trans hs) (List.cons_ne_nil c r)

theorem starts_of_expect {c : Char} {s r : List Char} {h : r.length < s.length}
    (he : expect c s = .ok ⟨r, h⟩) : Starts c s r := by
  unfold expect at he
  split at he
  · next x r' hs =>
    split at he
    · next hx =>
      cases he
      exact hx ▸ hs
    · cases he
  · cases he

theorem expect_of_not_starts {c : Char} {s : List Char} (h : ∀ r, ¬ Starts c s r) :
    ∃ e, expect c s = .error e := by
  cases he : expect c s with
  | error e => exact ⟨e, rfl⟩
  | ok r => exact absurd (starts_of_expect he) (h r.1)

/-! ### Beginnings -/

theorem not_readsAtom_bracket {r rest : List Char} {v : Json} : ¬ ReadsAtom (']' :: r) v rest := by
  have hword : readWord? (']' :: r) = none := by
    simp [readWord?, afterWord?]
  intro h
  unfold ReadsAtom readAtom at h
  split at h
  · next hsome =>
    rw [hword] at hsome
    cases hsome
  · have hnumber : readNumber (']' :: r) = .error .malformed := rfl
    rw [hnumber] at h
    cases h

theorem ReadsValue.not_starts_bracket {s rest : List Char} {v : Json} (h : ReadsValue s v rest) :
    ∀ r, ¬ Starts ']' s r := by
  cases h with
  | text hs | emptyArray hs | array hs | emptyObject hs | object hs =>
    exact hs.not_starts (by decide)
  | atom hs hc h =>
    refine hs.not_starts ?_
    rintro rfl
    exact not_readsAtom_bracket h

theorem ReadsElements.not_starts_bracket {s rest : List Char} {vs : List Json}
    (h : ReadsElements s vs rest) : ∀ r, ¬ Starts ']' s r := by
  cases h with
  | last hv | cons hv => exact hv.not_starts_bracket

theorem ReadsMembers.starts_quote {s rest : List Char} {ms : List (LooseText × Json)}
    (h : ReadsMembers s ms rest) : ∃ r, Starts '"' s r := by
  cases h with
  | last hs | cons hs => exact ⟨_, hs⟩

/-! ### The reader without its proofs -/

theorem plain_readValue {c : Char} {s r : List Char} (hs : Starts c s r) :
    plain (readValue s) =
      if c = '"' then (plain (readText r)).map fun p => (str p.1, p.2)
      else if c = '[' then
        match expect ']' r with
        | .ok rest => .ok (arr [], rest.1)
        | .error _ => (plain (readElements r)).map fun p => (arr p.1, p.2)
      else if c = '{' then
        match expect '}' r with
        | .ok rest => .ok (obj [], rest.1)
        | .error _ => (plain (readMembers r)).map fun p => (ofMembers p.1, p.2)
      else plain (readAtom (c :: r)) := by
  rw [readValue]
  split
  · next he => exact absurd (hs.symm.trans he) (List.cons_ne_nil _ _)
  · next c' r' he =>
    obtain ⟨rfl, rfl⟩ := List.cons.inj (hs.symm.trans he)
    split
    · cases readText r <;> rfl
    split
    · cases expect ']' r with
      | ok rest => rfl
      | error e => cases readElements r <;> rfl
    split
    · cases expect '}' r with
      | ok rest => rfl
      | error e => cases readMembers r <;> rfl
    · cases readAtom (c :: r) <;> rfl

theorem plain_readElements (s : List Char) :
    plain (readElements s) = (plain (readValue s)).bind fun p =>
      match expect ']' p.2 with
      | .ok rest => .ok ([p.1], rest.1)
      | .error _ => (expect ',' p.2).bind fun s₂ =>
        (plain (readElements s₂.1)).map fun q => (p.1 :: q.1, q.2) := by
  rw [readElements]
  cases readValue s with
  | error e => rfl
  | ok p =>
    obtain ⟨v, s₁, h₁⟩ := p
    simp only [plain, Except.map, Except.bind, bind]
    cases expect ']' s₁ with
    | ok rest => rfl
    | error e =>
      simp only
      cases expect ',' s₁ with
      | error e => rfl
      | ok s₂ =>
        simp only
        cases readElements s₂.1 <;> rfl

theorem plain_readMembers (s : List Char) :
    plain (readMembers s) = (expect '"' s).bind fun s₁ => (plain (readText s₁.1)).bind fun n =>
      (expect ':' n.2).bind fun s₃ => (plain (readValue s₃.1)).bind fun p =>
        match expect '}' p.2 with
        | .ok rest => .ok ([(n.1, p.1)], rest.1)
        | .error _ => (expect ',' p.2).bind fun s₅ =>
          (plain (readMembers s₅.1)).map fun q => ((n.1, p.1) :: q.1, q.2) := by
  rw [readMembers]
  cases expect '"' s with
  | error e => rfl
  | ok s₁ =>
    simp only [bind, Except.bind]
    cases readText s₁.1 with
    | error e => rfl
    | ok n =>
      obtain ⟨name, s₂, h₂⟩ := n
      simp only [plain, Except.map]
      cases expect ':' s₂ with
      | error e => rfl
      | ok s₃ =>
        simp only
        cases readValue s₃.1 with
        | error e => rfl
        | ok p =>
          obtain ⟨v, s₄, h₄⟩ := p
          simp only
          cases expect '}' s₄ with
          | ok rest => rfl
          | error e =>
            simp only
            cases expect ',' s₄ with
            | error e => rfl
            | ok s₅ =>
              simp only
              cases readMembers s₅.1 <;> rfl

/-! ### The reader finds what stands in a text -/

mutual

theorem ReadsValue.eq_ok {s rest : List Char} {v : Json} :
    ReadsValue s v rest → plain (readValue s) = .ok (v, rest)
  | .text hs h => by
    rw [plain_readValue hs, if_pos rfl, h]
    rfl
  | .emptyArray hs h => by
    rw [plain_readValue hs, if_neg (by decide), if_pos rfl, expect_of_starts h]
  | .array hs h => by
    obtain ⟨e, he⟩ := expect_of_not_starts h.not_starts_bracket
    rw [plain_readValue hs, if_neg (by decide), if_pos rfl, he, h.eq_ok]
    rfl
  | .emptyObject hs h => by
    rw [plain_readValue hs, if_neg (by decide), if_neg (by decide), if_pos rfl, expect_of_starts h]
  | .object hs h => by
    obtain ⟨_, hquote⟩ := h.starts_quote
    obtain ⟨e, he⟩ := expect_of_not_starts (hquote.not_starts (d := '}') (by decide))
    rw [plain_readValue hs, if_neg (by decide), if_neg (by decide), if_pos rfl, he, h.eq_ok]
    rfl
  | .atom hs hc h => by
    rw [plain_readValue hs, if_neg hc.1, if_neg hc.2.1, if_neg hc.2.2]
    exact h

theorem ReadsElements.eq_ok {s rest : List Char} {vs : List Json} :
    ReadsElements s vs rest → plain (readElements s) = .ok (vs, rest)
  | .last hv h => by
    simp only [plain_readElements, hv.eq_ok, Except.bind, expect_of_starts h]
  | .cons hv hcomma h => by
    obtain ⟨e, he⟩ := expect_of_not_starts (hcomma.not_starts (d := ']') (by decide))
    simp only [plain_readElements, hv.eq_ok, Except.bind, he, expect_of_starts hcomma, h.eq_ok,
      Except.map]

theorem ReadsMembers.eq_ok {s rest : List Char} {ms : List (LooseText × Json)} :
    ReadsMembers s ms rest → plain (readMembers s) = .ok (ms, rest)
  | .last hs hname hcolon hv h => by
    rw [ReadsText] at hname
    simp only [plain_readMembers, expect_of_starts hs, Except.bind, hname,
      expect_of_starts hcolon, hv.eq_ok, expect_of_starts h]
  | .cons hs hname hcolon hv hcomma h => by
    obtain ⟨e, he⟩ := expect_of_not_starts (hcomma.not_starts (d := '}') (by decide))
    rw [ReadsText] at hname
    simp only [plain_readMembers, expect_of_starts hs, Except.bind, hname,
      expect_of_starts hcolon, hv.eq_ok, he, expect_of_starts hcomma, h.eq_ok, Except.map]

end

/-! ### What the reader finds stands in the text -/

theorem bind_eq_ok {α β : Type} {x : Except ReadError α} {f : α → Except ReadError β} {b : β}
    (h : x.bind f = .ok b) : ∃ a, x = .ok a ∧ f a = .ok b := by
  cases x with
  | error e => cases h
  | ok a => exact ⟨a, rfl, h⟩

theorem map_eq_ok {α β : Type} {x : Except ReadError α} {f : α → β} {b : β}
    (h : x.map f = .ok b) : ∃ a, x = .ok a ∧ f a = b := by
  cases x with
  | error e => cases h
  | ok a => exact ⟨a, rfl, Except.ok.inj h⟩

/-- What is said about the parts of all shorter texts. -/
structure ReadsShorter (n : Nat) : Prop where
  elements : ∀ s, s.length < n → ∀ vs rest,
    plain (readElements s) = .ok (vs, rest) → ReadsElements s vs rest
  members : ∀ s, s.length < n → ∀ ms rest,
    plain (readMembers s) = .ok (ms, rest) → ReadsMembers s ms rest

theorem readsValue_of_shorter {s rest : List Char} {v : Json} (ih : ReadsShorter s.length)
    (h : plain (readValue s) = .ok (v, rest)) : ReadsValue s v rest := by
  cases hs : skipSpace s with
  | nil =>
    rw [readValue] at h
    split at h
    · cases h
    · next c r he => exact absurd (hs.symm.trans he) (List.cons_ne_nil c r).symm
  | cons c r =>
    have hs : Starts c s r := hs
    rw [plain_readValue hs] at h
    split at h
    · next hc =>
      obtain ⟨⟨t, rest'⟩, ht, heq⟩ := map_eq_ok h
      cases heq
      exact .text (hc ▸ hs) ht
    split at h
    · next hc =>
      split at h
      · next r' he =>
        cases h
        exact .emptyArray (hc ▸ hs) (starts_of_expect he)
      · next e he =>
        obtain ⟨⟨vs, rest'⟩, hvs, heq⟩ := map_eq_ok h
        cases heq
        exact .array (hc ▸ hs) (ih.elements r hs.length_lt _ _ hvs)
    split at h
    · next hc =>
      split at h
      · next r' he =>
        cases h
        exact .emptyObject (hc ▸ hs) (starts_of_expect he)
      · next e he =>
        obtain ⟨⟨ms, rest'⟩, hms, heq⟩ := map_eq_ok h
        cases heq
        exact .object (hc ▸ hs) (ih.members r hs.length_lt _ _ hms)
    · next hquote hbracket hbrace => exact .atom hs ⟨hquote, hbracket, hbrace⟩ h

theorem length_lt_of_plain {α : Type} {s rest : List Char} {a : α}
    {x : Except ReadError (α × Shorter s)} (h : plain x = .ok (a, rest)) :
    rest.length < s.length := by
  obtain ⟨⟨a', r⟩, -, heq⟩ := map_eq_ok h
  cases heq
  exact r.2

theorem readsElements_of_shorter {s rest : List Char} {vs : List Json}
    (ih : ReadsShorter s.length) (h : plain (readElements s) = .ok (vs, rest)) :
    ReadsElements s vs rest := by
  rw [plain_readElements] at h
  obtain ⟨⟨v, s₁⟩, hv, h⟩ := bind_eq_ok h
  have h₁ := length_lt_of_plain hv
  have hv := readsValue_of_shorter ih hv
  simp only at h
  split at h
  · next r he =>
    cases h
    exact .last hv (starts_of_expect he)
  · obtain ⟨⟨s₂, h₂⟩, hcomma, h⟩ := bind_eq_ok h
    obtain ⟨⟨vs', rest'⟩, hvs, heq⟩ := map_eq_ok h
    cases heq
    exact .cons hv (starts_of_expect hcomma) (ih.elements s₂ (Nat.lt_trans h₂ h₁) _ _ hvs)

theorem readsMembers_of_shorter {s rest : List Char} {ms : List (LooseText × Json)}
    (ih : ReadsShorter s.length) (h : plain (readMembers s) = .ok (ms, rest)) :
    ReadsMembers s ms rest := by
  rw [plain_readMembers] at h
  obtain ⟨⟨s₁, h₁⟩, hs, h⟩ := bind_eq_ok h
  obtain ⟨⟨name, s₂⟩, hname, h⟩ := bind_eq_ok h
  obtain ⟨⟨s₃, h₃⟩, hcolon, h⟩ := bind_eq_ok h
  obtain ⟨⟨v, s₄⟩, hv, h⟩ := bind_eq_ok h
  have h₂ : s₂.length < s₁.length := length_lt_of_plain hname
  have h₃ : s₃.length < s₂.length := h₃
  have h₄ : s₄.length < s₃.length := length_lt_of_plain hv
  have hlt : s₃.length ≤ s.length := by omega
  have hv : ReadsValue s₃ v s₄ := readsValue_of_shorter
    ⟨fun t ht => ih.elements t (Nat.lt_of_lt_of_le ht hlt),
      fun t ht => ih.members t (Nat.lt_of_lt_of_le ht hlt)⟩ hv
  simp only at h
  split at h
  · next r he =>
    cases h
    exact .last (starts_of_expect hs) hname (starts_of_expect hcolon) hv (starts_of_expect he)
  · obtain ⟨⟨s₅, h₅⟩, hcomma, h⟩ := bind_eq_ok h
    obtain ⟨⟨ms', rest'⟩, hms, heq⟩ := map_eq_ok h
    cases heq
    exact .cons (starts_of_expect hs) hname (starts_of_expect hcolon) hv (starts_of_expect hcomma)
      (ih.members s₅ (by omega) _ _ hms)

theorem readsShorter (n : Nat) : ReadsShorter n := by
  induction n with
  | zero => exact ⟨fun _ h => absurd h (Nat.not_lt_zero _), fun _ h => absurd h (Nat.not_lt_zero _)⟩
  | succ n ih =>
    have hmono : ∀ s : List Char, s.length < n + 1 → ReadsShorter s.length := fun s hs =>
      ⟨fun t ht => ih.elements t (by omega), fun t ht => ih.members t (by omega)⟩
    exact ⟨fun s hs _ _ h => readsElements_of_shorter (hmono s hs) h,
      fun s hs _ _ h => readsMembers_of_shorter (hmono s hs) h⟩

/-- The reader finds exactly the values that stand at the beginning of a text. -/
theorem plain_readValue_eq_ok_iff {s rest : List Char} {v : Json} :
    plain (readValue s) = .ok (v, rest) ↔ ReadsValue s v rest :=
  ⟨readsValue_of_shorter (readsShorter _), ReadsValue.eq_ok⟩

/-- A whole text stands for a value when nothing but blanks follows the value. -/
theorem read_eq_ok_iff {text : String} {v : Json} :
    read text = .ok v ↔ ∃ rest, ReadsValue text.toList v rest ∧ skipSpace rest = [] := by
  simp only [← plain_readValue_eq_ok_iff, read]
  cases readValue text.toList with
  | error e => exact ⟨nofun, fun ⟨_, h, _⟩ => nomatch h⟩
  | ok p =>
    obtain ⟨v', rest, hrest⟩ := p
    simp only [bind, Except.bind, plain, Except.map]
    constructor
    · intro h
      split at h
      · next hskip =>
        cases h
        exact ⟨rest, rfl, hskip⟩
      · cases h
    · rintro ⟨rest', heq, hskip⟩
      cases heq
      rw [if_pos hskip]
      rfl

end TodoLists.Json
