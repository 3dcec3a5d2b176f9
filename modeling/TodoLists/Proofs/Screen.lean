import TodoLists.Screen
import TodoLists.Proofs.Fault
import TodoLists.Proofs.Json.Numbers
import TodoLists.Proofs.Markup

/-!
# What a screen can show

Everything that the program shows is put together from texts of its own, from numbers and from
escaped texts, so that every screen can show it, however it takes names of styles. The exceptions
are paths and names of lists that are shown without being escaped, and these matter only if a
closing bracket is in them.
-/

namespace TodoLists

namespace Markup

/-! ### Plain texts and styles -/

/-- A text that neither holds a bracket nor makes text of one behind it. -/
def IsPlain (s : List Char) : Prop := ∀ c ∈ s, c ≠ '[' ∧ c ≠ ']' ∧ c ≠ '\\'

instance : DecidablePred IsPlain := List.decidableBAll fun c => c ≠ '[' ∧ c ≠ ']' ∧ c ≠ '\\'

theorem isPlain_append {s t : List Char} : IsPlain (s ++ t) ↔ IsPlain s ∧ IsPlain t :=
  List.forall_mem_append

theorem IsPlain.begins_nothing {s : List Char} (h : IsPlain s) : ∀ c ∈ s, c ≠ '[' ∧ c ≠ '\\' :=
  fun c hc => ⟨(h c hc).1, (h c hc).2.2⟩

theorem isPlain_toDigits (n : Nat) : IsPlain (Nat.toDigits 10 n) := by
  intro c hc
  have hdigit := Json.isAsciiDigit_of_mem_toDigits c hc
  refine ⟨?_, ?_, ?_⟩ <;> rintro rfl <;> exact absurd hdigit (by decide)

theorem isPlain_repr (n : Nat) : IsPlain n.repr.toList := by
  rw [Nat.toList_repr]
  exact isPlain_toDigits n

theorem isPlain_print (id : ItemId) : IsPlain id.print := by
  refine List.forall_mem_cons.2 ⟨by decide, ?_⟩
  cases id.value with
  | ofNat n =>
    rw [Int.ofNat_eq_natCast, Text.ofInt_natCast]
    exact isPlain_toDigits n
  | negSucc n =>
    rw [Text.ofInt_negSucc]
    exact List.forall_mem_cons.2 ⟨by decide, isPlain_toDigits _⟩

theorem isPlain_intercalate {separator : String} (hseparator : IsPlain separator.toList) :
    ∀ {parts : List String}, (∀ part ∈ parts, IsPlain part.toList) →
      IsPlain (separator.intercalate parts).toList
  | [], _ => by simp [IsPlain]
  | [part], h => by simpa using h
  | part :: next :: rest, h => by
    obtain ⟨hpart, hrest⟩ := List.forall_mem_cons.1 h
    rw [String.intercalate_cons_cons, String.toList_append, String.toList_append]
    exact isPlain_append.2 ⟨isPlain_append.2 ⟨hpart, hseparator⟩,
      isPlain_intercalate hseparator hrest⟩

theorem isPlain_name (s : Status) : IsPlain s.name.toList := by cases s <;> decide

/-- The styles that the program uses. -/
def styles : List String :=
  ["green", "yellow", "red", "blue", "magenta", "dim", "bold", "bold red", "bold green", "bold cyan"]

theorem isStyle_of_mem {w : String} (h : w ∈ styles) : Reading.IsStyle w.toList := by
  have hall : ∀ w ∈ styles, w.toList.head?.any startsTag = true ∧ IsPlain w.toList ∧
      w.toList.head? ≠ some '/' ∧ '=' ∉ w.toList ∧ Text.strip w.toList = w.toList := by decide
  obtain ⟨hstart, hplain, hopens, hbare, htrimmed⟩ := hall w h
  exact ⟨⟨hstart, fun c hc => ⟨(hplain c hc).1, (hplain c hc).2.1⟩⟩, hopens, hbare, htrimmed⟩

/-- Of plain texts and an escaped one there is nothing left to see at the tag behind them. -/
theorem tagsAfter_escape_plain {a b : List Char} (ha : IsPlain a) (hb : IsPlain b) (hne : b ≠ [])
    (x : String) (rest : List Char) :
    tagsAfter 0 (a ++ ((escape x).toList ++ (b ++ '[' :: rest))) = tagsAfter 0 ('[' :: rest) := by
  have hends : EndsNoTag (b ++ '[' :: rest) :=
    (endsNoTag_bracket rest).append_left fun hmem => (hb _ hmem).2.1 rfl
  obtain ⟨k, hk⟩ := exists_tagsAfter_escape hends x
  rw [tagsAfter_plain ha.begins_nothing, hk]
  cases b with
  | nil => exact absurd rfl hne
  | cons c b =>
    -- The first plain character is behind the backslashes that the escaped text may end with.
    obtain ⟨hc, hb⟩ := List.forall_mem_cons.1 hb
    rw [List.cons_append, tagsAfter_cons hc.1 hc.2.2, tagsAfter_plain (IsPlain.begins_nothing hb)]

namespace Harmless

variable {s t : List Char}

theorem plain (h : IsPlain s) : Harmless s := of_not_mem fun hmem => (h _ hmem).2.1 rfl

theorem append_plain (hs : Harmless s) (ht : IsPlain t) : Harmless (s ++ t) :=
  hs.append fun hmem => (ht _ hmem).2.1 rfl

theorem between {a b : List Char} (ha : IsPlain a) (hs : Harmless s) (hb : IsPlain b) :
    Harmless (a ++ (s ++ b)) :=
  (hs.append_plain hb).plain_append ha.begins_nothing

end Harmless

end Markup

namespace Screen

open Markup

variable (screen : Screen)

/-! ### Lines -/

theorem canRead_of_harmless {text : String} (h : Harmless text.toList) :
    screen.canRead text = true := by
  cases screen with
  | plain => rfl
  | styled r => exact h.canRead r

theorem canRead_of_opening {text : String} (h : ¬ ['[', '/'] <:+: text.toList) :
    screen.canRead text = true := by
  cases screen with
  | plain => rfl
  | styled r => exact r.canRead_of_opening h

theorem shows_line {text : String} : screen.shows (.line text) = screen.canRead text :=
  Bool.and_true _

theorem shows_question (text : String) : screen.shows (.question text) = true := rfl

/-- A line with one style from its beginning to its end. -/
theorem shows_styled (w : String) (hw : w ∈ styles) {s : List Char} (hs : Harmless s)
    {text : String}
    (htext : text.toList = '[' :: (w.toList ++ ']' :: (s ++ '[' :: ('/' :: w.toList ++ [']'])))) :
    screen.shows (.line text) = true := by
  rw [shows_line]
  refine canRead_of_harmless screen ?_
  rw [htext]
  exact hs.styled (isStyle_of_mem hw) .nil

theorem shows_noMatch (query : String) :
    screen.shows (.line s!"[yellow]No items match: {escape query}[/yellow]") = true :=
  screen.shows_styled "yellow" (by decide)
    (.between (a := "No items match: ".toList) (by decide) (.escaped query) (b := []) (by decide))
    (by simp [toString])

/-- A line that starts with something styled and goes on with an escaped text. -/
theorem shows_headed (w head middle x ending : String)
    (h : w ∈ styles ∧ IsPlain head.toList ∧ IsPlain middle.toList ∧ IsPlain ending.toList)
    {text : String} (htext : text.toList = '[' :: (w.toList ++ ']' :: (head.toList ++ '[' ::
      ('/' :: w.toList ++ ']' :: (middle.toList ++ ((escape x).toList ++ ending.toList)))))) :
    screen.shows (.line text) = true := by
  obtain ⟨hw, hhead, hmiddle, hending⟩ := h
  rw [shows_line]
  refine canRead_of_harmless screen ?_
  rw [htext]
  exact (Harmless.plain hhead).styled (isStyle_of_mem hw)
    (.between hmiddle (.escaped x) hending)

/-! ### Tables of items -/

theorem harmless_status (s : Status) :
    Harmless (s!"[{Display.style s}]{s.name}[/{Display.style s}]").toList := by
  have hstyle : Display.style s ∈ styles := by cases s <;> decide
  have h := (Harmless.plain (isPlain_name s)).styled (isStyle_of_mem hstyle) .nil
  simpa [toString] using h

/-- Every cell of an item's row can be read. -/
theorem canRead_of_row {e : ItemId × Item} {cells : List String} (h : Display.row e = .ok cells) :
    ∀ cell ∈ cells, screen.canRead cell = true := by
  obtain ⟨name, -, h⟩ := exists_of_bind_eq_ok h
  obtain ⟨tags, -, h⟩ := exists_of_bind_eq_ok h
  obtain ⟨description, -, h⟩ := exists_of_bind_eq_ok h
  cases h
  have hid : Harmless (String.ofList e.1.print).toList := by
    rw [String.toList_ofList]
    exact .plain (isPlain_print e.1)
  simp only [List.forall_mem_cons]
  exact ⟨canRead_of_harmless _ hid, canRead_of_harmless _ (.escaped _),
    canRead_of_harmless _ (harmless_status _), canRead_of_harmless _ (.escaped _),
    canRead_of_harmless _ (.escaped _), List.forall_mem_nil _⟩

/-- A table of items is shown if its title can be read. -/
theorem shows_items {title : String} (htitle : screen.canRead title = true)
    {es : List (ItemId × Item)} {table : Table} (h : Display.items title es = .ok table) :
    screen.shows (.table table) = true := by
  obtain ⟨rows, hrows, h⟩ := exists_of_bind_eq_ok h
  cases h
  have hcolumns : ∀ column ∈ ["ID", "Name", "Status", "Tags", "Description"],
      IsPlain column.toList := by decide
  have hcells := forall_of_mapM_eq_ok hrows fun e _ cells he => canRead_of_row screen he
  rw [shows, List.all_eq_true]
  refine List.forall_mem_cons.2 ⟨htitle, List.forall_mem_append.2 ⟨fun column hcolumn => ?_, ?_⟩⟩
  · exact canRead_of_harmless _ (.plain (hcolumns column hcolumn))
  · intro cell hcell
    obtain ⟨cells, hrow, hcell⟩ := List.mem_flatten.1 hcell
    exact hcells cells hrow cell hcell

end Screen

end TodoLists
