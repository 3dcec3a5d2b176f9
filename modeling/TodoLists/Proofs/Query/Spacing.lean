import TodoLists.Proofs.Query.Lexemes
import TodoLists.Proofs.Text.Strip
import TodoLists.Query.Listing

/-!
# Tokens and the blanks between them

Every character of a text that is not blank belongs to a token, no character belongs to two, and the
tokens are listed as they come. How many blanks stand between two tokens, and which, makes no
difference to the tokens as long as there is one: a word or a numeral ends before a blank whatever
comes after it, and so a token that is followed by a blank is the token that its text is on its own.
-/

namespace TodoLists.Query

/-- The tokens are those of the text: they come in order and apart, each has its value for the text
at its position, what no token reaches is blank, and the last one is the end of the text. -/
structure LaidOut (s : List Char) (es : List Listed) : Prop where
  increasing : es.Pairwise fun e e' => e.position < e'.position
  apart : es.Pairwise fun e e' => e.stop ≤ e'.position
  value_eq : ∀ e ∈ es, (s.drop e.position).take e.value.length = e.value
  between : ∀ i (hi : i < s.length), (∀ e ∈ es, i < e.position ∨ e.stop ≤ i) →
    Text.isBlank s[i] = true
  last : es.getLast? = some (.ending s.length)

/-- A token without its position. -/
def Listed.shown (e : Listed) : String × List Char := (e.kind, e.value)

/-- Texts one after another, each with a gap in front of it. -/
def spread (gaps values : List (List Char)) : List Char :=
  (List.zipWith (· ++ ·) gaps values).flatten

/-- Gaps for a number of tokens, the last of which is the end: blanks, and not none between two
neighbours. -/
structure AreGaps (gaps : List (List Char)) (count : Nat) : Prop where
  length_eq : gaps.length = count
  blank : ∀ g ∈ gaps, Text.allBlank g = true
  inner_ne_nil : ∀ g ∈ gaps.tail.dropLast, g ≠ []

/-! ### Where tokens stand -/

/-- The tokens of a text that starts at a position, by blanks and tokens. -/
inductive Tiles : Nat → List Char → List Listed → Prop where
  | ending (p : Nat) : Tiles p [] [.ending p]
  | blank {p : Nat} {c : Char} {s : List Char} {es : List Listed} (hb : Text.isBlank c = true)
      (h : Tiles (p + 1) s es) : Tiles p (c :: s) es
  | token {e : Listed} {s : List Char} {es : List Listed} (hne : e.value ≠ [])
      (h : Tiles e.stop s es) : Tiles e.position (e.value ++ s) (e :: es)

theorem tiles_tokensFrom (p : Nat) (s : List Char) :
    Tiles p s (listing (p + s.length) (tokensFrom p s)) := by
  induction s using cut_induction generalizing p with
  | nil =>
    rw [tokensFrom]
    exact .ending p
  | blank c cs hb ih =>
    rw [tokensFrom_blank hb, List.length_cons, ← Nat.add_assoc, Nat.add_right_comm]
    exact .blank hb (ih (p + 1))
  | lexeme c tail rest l hb hl htext ih =>
    have hlength : p + (c :: (tail ++ rest)).length = p + l.text.length + rest.length := by
      rw [htext, ← List.cons_append, List.length_append, Nat.add_assoc]
    have hne : l.text ≠ [] := htext ▸ List.cons_ne_nil c tail
    rw [tokensFrom_lexeme hb hl htext, hlength, ← List.cons_append, ← htext]
    exact .token (e := Token.listed ⟨l, p⟩) hne (ih _)

namespace Tiles

variable {p : Nat} {s : List Char} {es : List Listed}

theorem le_position (h : Tiles p s es) : ∀ e ∈ es, p ≤ e.position := by
  induction h with
  | ending p => exact List.forall_mem_singleton.2 (Nat.le_refl p)
  | blank _ _ ih => exact fun e he => Nat.le_of_succ_le (ih e he)
  | @token e _ _ _ _ ih =>
    have hstop : e.position ≤ e.stop := Nat.le_add_right _ _
    exact List.forall_mem_cons.2 ⟨Nat.le_refl _, fun e' he' => hstop.trans (ih e' he')⟩

theorem apart (h : Tiles p s es) : es.Pairwise fun e e' => e.stop ≤ e'.position := by
  induction h with
  | ending => exact List.pairwise_singleton _ _
  | blank _ _ ih => exact ih
  | token _ h ih => exact List.pairwise_cons.2 ⟨h.le_position, ih⟩

theorem increasing (h : Tiles p s es) : es.Pairwise fun e e' => e.position < e'.position := by
  induction h with
  | ending => exact List.pairwise_singleton _ _
  | blank _ _ ih => exact ih
  | token hne h ih =>
    have hpos := List.length_pos_iff.2 hne
    refine List.pairwise_cons.2 ⟨fun e' he' => ?_, ih⟩
    exact Nat.lt_of_lt_of_le (Nat.lt_add_of_pos_right hpos) (h.le_position e' he')

theorem value_eq (h : Tiles p s es) :
    ∀ e ∈ es, (s.drop (e.position - p)).take e.value.length = e.value := by
  induction h with
  | ending => exact List.forall_mem_singleton.2 rfl
  | @blank p c s es _ h ih =>
    intro e he
    have hplace := h.le_position e he
    have hnext : e.position - p = e.position - (p + 1) + 1 := by omega
    rw [hnext, List.drop_succ_cons]
    exact ih e he
  | @token e s es _ h ih =>
    refine List.forall_mem_cons.2 ⟨by rw [Nat.sub_self, List.drop_zero, List.take_left], ?_⟩
    intro e' he'
    have hplace := h.le_position e' he'
    rw [Listed.stop] at hplace
    -- what is dropped goes at least to the end of the first token
    rw [List.drop_append, List.drop_eq_nil_of_le (by omega), List.nil_append, Nat.sub_sub]
    exact ih e' he'

theorem between (h : Tiles p s es) (i : Nat) (hi : i < s.length)
    (hout : ∀ e ∈ es, p + i < e.position ∨ e.stop ≤ p + i) : Text.isBlank s[i] = true := by
  induction h generalizing i with
  | ending => exact absurd hi (Nat.not_lt_zero i)
  | @blank p c s es hb _ ih =>
    cases i with
    | zero => exact hb
    | succ i =>
      refine ih i (Nat.lt_of_succ_lt_succ hi) fun e he => ?_
      rw [Nat.add_assoc, Nat.add_comm 1]
      exact hout e he
  | @token e s es _ _ ih =>
    obtain ⟨hfirst, hrest⟩ := List.forall_mem_cons.1 hout
    -- the place is not in the first token, so it is behind it
    have hle : e.value.length ≤ i := by
      rw [Listed.stop] at hfirst
      omega
    rw [List.getElem_append_right hle]
    refine ih (i - e.value.length) _ fun e' he' => ?_
    have hplace : e.stop + (i - e.value.length) = e.position + i := by
      rw [Listed.stop]
      omega
    rw [hplace]
    exact hrest e' he'

theorem last (h : Tiles p s es) : es.getLast? = some (.ending (p + s.length)) := by
  induction h with
  | ending => rfl
  | blank _ _ ih => rw [ih, List.length_cons, Nat.add_right_comm, Nat.add_assoc]
  | token _ _ ih =>
    rw [List.getLast?_cons, ih, List.length_append, ← Nat.add_assoc]
    rfl

theorem laidOut (h : Tiles 0 s es) : LaidOut s es where
  increasing := h.increasing
  apart := h.apart
  value_eq := h.value_eq
  between i hi hout := h.between i hi (by simpa only [Nat.zero_add] using hout)
  last := by simpa only [Nat.zero_add] using h.last

end Tiles

/-! ### Blanks around a text -/

section

variable {a b : List Char}

theorem isDetached_of_allBlank (hb : Text.allBlank b = true) : isDetached b = true := by
  cases b with
  | nil => rfl
  | cons c b => rw [isDetached, Text.allBlank_iff.1 hb c List.mem_cons_self, Bool.true_or]

theorem isDetached_blank_append (hb : Text.allBlank b = true) (hne : b ≠ []) (s : List Char) :
    isDetached (b ++ s) = true := by
  have hdetached := isDetached_of_allBlank hb
  obtain ⟨c, b, rfl⟩ := List.exists_cons_of_ne_nil hne
  exact hdetached

theorem lexemes_blank_append (ha : Text.allBlank a = true) (s : List Char) :
    lexemes (a ++ s) = lexemes s := by
  induction a with
  | nil => rfl
  | cons c a ih =>
    rw [Text.allBlank, List.all_cons, Bool.and_eq_true] at ha
    rw [List.cons_append, lexemes_blank ha.1, ih ha.2]

theorem lexemes_append_blank (s : List Char) (hb : Text.allBlank b = true) :
    lexemes (s ++ b) = lexemes s := by
  rw [lexemes_append (isDetached_of_allBlank hb), lexemes_eq_nil_iff.2 hb, List.append_nil]

theorem lexemes_strip (s : List Char) : lexemes (Text.strip s) = lexemes s := by
  obtain ⟨a, b, ha, hb, hs⟩ := Text.exists_strip s
  conv_rhs => rw [hs, lexemes_blank_append ha, lexemes_append_blank _ hb]

end

/-! ### Other gaps -/

theorem spread_cons_cons (g v : List Char) (gaps values : List (List Char)) :
    spread (g :: gaps) (v :: values) = g ++ (v ++ spread gaps values) := by
  rw [spread, List.zipWith_cons_cons, List.flatten_cons, List.append_assoc, spread]

namespace AreGaps

variable {g : List Char} {gaps : List (List Char)} {count : Nat}

theorem tail (h : AreGaps (g :: gaps) (count + 1)) : AreGaps gaps count where
  length_eq := Nat.succ_injective h.length_eq
  blank := (List.forall_mem_cons.1 h.blank).2
  inner_ne_nil x hx := by
    rw [← List.tail_dropLast] at hx
    exact h.inner_ne_nil x (List.mem_of_mem_tail hx)

/-- What comes behind the first token is detached from it. -/
theorem isDetached_spread {values : List (List Char)}
    (h : AreGaps (g :: gaps) (values.length + 2)) :
    isDetached (spread gaps (values ++ [[]])) = true := by
  obtain ⟨g', gaps, rfl⟩ := List.exists_cons_of_length_eq_add_one h.tail.length_eq
  have hblank := h.tail.blank g' List.mem_cons_self
  cases values with
  | nil =>
    -- the gap in front of the end may be empty
    obtain rfl : gaps = [] := List.length_eq_zero_iff.1 h.tail.tail.length_eq
    rw [List.nil_append, spread_cons_cons]
    cases g' with
    | nil => rfl
    | cons c g' => exact isDetached_blank_append hblank (List.cons_ne_nil c g') _
  | cons v values =>
    have hne : g' ≠ [] := by
      obtain ⟨g'', gaps, rfl⟩ := List.exists_cons_of_length_eq_add_one h.tail.tail.length_eq
      exact h.inner_ne_nil g' List.mem_cons_self
    rw [List.cons_append, spread_cons_cons]
    exact isDetached_blank_append hblank hne _

end AreGaps

/-- The texts of lexemes with gaps between them have these lexemes again. -/
theorem lexemes_spread {ls : List Lexeme} (hcut : ∀ l ∈ ls, l.IsCut) {gaps : List (List Char)}
    (h : AreGaps gaps (ls.length + 1)) :
    lexemes (spread gaps (ls.map Lexeme.text ++ [[]])) = ls := by
  induction ls generalizing gaps with
  | nil =>
    obtain ⟨g, rfl⟩ := List.length_eq_one_iff.1 h.length_eq
    have hg := h.blank g List.mem_cons_self
    simpa [spread] using lexemes_eq_nil_iff.2 hg
  | cons l ls ih =>
    obtain ⟨hl, hls⟩ := List.forall_mem_cons.1 hcut
    obtain ⟨g, gaps, rfl⟩ := List.exists_cons_of_length_eq_add_one h.length_eq
    have hg := h.blank g List.mem_cons_self
    have hdetached : isDetached (spread gaps (ls.map Lexeme.text ++ [[]])) = true :=
      AreGaps.isDetached_spread (by rwa [List.length_map])
    rw [List.map_cons, List.cons_append, spread_cons_cons, lexemes_blank_append hg,
      lexemes_append hdetached, lexemes_text hl, ih hls h.tail,
      List.singleton_append]

/-! ### Listing -/

theorem listTokens_of_not_blank {text : String} (h : Text.allBlank text.toList = false) :
    listTokens text = .ok (listing text.toList.length (tokens text.toList)) := by
  rw [listTokens, onText, listChars, tokenize, h]
  rfl

theorem map_value_listing (stop : Nat) (s : List Char) :
    (listing stop (tokens s)).map Listed.value = (lexemes s).map Lexeme.text ++ [[]] := by
  rw [listing, List.map_append, List.map_map, lexemes, List.map_map]
  rfl

theorem map_shown_listing (stop : Nat) (s : List Char) :
    (listing stop (tokens s)).map Listed.shown =
      (lexemes s).map (fun l => (l.kind, l.text)) ++ [("end", [])] := by
  rw [listing, List.map_append, List.map_map, lexemes, List.map_map]
  rfl

/-- A text that is not blank is cut into tokens without loss, and its tokens with any other blanks
between them make a text with the same tokens. -/
theorem listTokens_lossless {text : String} (h : Text.allBlank text.toList = false) :
    ∃ es, listTokens text = .ok es ∧ LaidOut text.toList es ∧
      ∀ gaps, AreGaps gaps es.length →
        ∃ es', listTokens (String.ofList (spread gaps (es.map Listed.value))) = .ok es' ∧
          es'.map Listed.shown = es.map Listed.shown := by
  have htiles := tiles_tokensFrom 0 text.toList
  rw [Nat.zero_add] at htiles
  refine ⟨_, listTokens_of_not_blank h, htiles.laidOut, fun gaps hgaps => ?_⟩
  have hlength := congrArg List.length (map_value_listing text.toList.length text.toList)
  rw [List.length_map, List.length_append, List.length_map, List.length_singleton] at hlength
  rw [hlength] at hgaps
  have hlexemes := lexemes_spread (fun _ hl => isCut_of_mem_lexemes hl) hgaps
  rw [← String.toList_ofList (l := spread _ _)] at hlexemes
  rw [map_value_listing]
  refine ⟨_, listTokens_of_not_blank ?_, ?_⟩
  · rw [allBlank_eq_false_iff, hlexemes, ← allBlank_eq_false_iff]
    exact h
  · rw [map_shown_listing, hlexemes, map_shown_listing]

/-- Four dots are `...` and a word, and a numeral ends at the first character that is no digit. -/
theorem listTokens_lossless_dots :
    Text.allBlank "a....=>^+5x".toList = false ∧
    ∃ es, listTokens "a....=>^+5x" = .ok es ∧ LaidOut "a....=>^+5x".toList es ∧
      es.map Listed.shown = [("word", ['a']), ("dots", ['.', '.', '.']), ("word", ['.']),
        ("arrow", ['=', '>']), ("priority", ['^', '+', '5']), ("word", ['x']), ("end", [])] ∧
      ∃ es', listTokens "a\t... .  =>\u00a0^+5\u001fx " = .ok es' ∧
        es'.map Listed.shown = es.map Listed.shown := by
  have hblank : Text.allBlank "a....=>^+5x".toList = false := by decide
  have hlist : listTokens "a....=>^+5x" = .ok [⟨"word", ['a'], 0⟩, ⟨"dots", ['.', '.', '.'], 1⟩,
      ⟨"word", ['.'], 4⟩, ⟨"arrow", ['=', '>'], 5⟩, ⟨"priority", ['^', '+', '5'], 7⟩,
      ⟨"word", ['x'], 10⟩, ⟨"end", [], 11⟩] := by decide +kernel
  obtain ⟨es, hes, hlaid, hgaps⟩ := listTokens_lossless hblank
  obtain rfl := Except.ok.inj (hlist.symm.trans hes)
  refine ⟨hblank, _, hlist, hlaid, rfl, ?_⟩
  exact hgaps [[], ['\t'], [' '], [' ', ' '], ['\u00a0'], ['\u001f'], [' ']]
    ⟨rfl, by decide, by decide⟩

end TodoLists.Query
