import TodoLists.Display
import TodoLists.Proofs.Fault
import TodoLists.Proofs.ListFile.Storable

/-!
# Rows of items

What the row of an item consists of is said here by the item alone: its id, its name, its status in
the colour of the status, its tags from the smallest on and the beginning of its description. Such a
row exists for every item whose texts are texts, and no two ids begin their rows alike.
-/

namespace TodoLists.Display

/-- A status as it stands in a row. -/
def statusCell : Status → String
  | .waiting => "[yellow]Waiting[/yellow]"
  | .queuing => "[blue]Queuing[/blue]"
  | .working => "[magenta]Working[/magenta]"
  | .completed => "[green]Completed[/green]"

/-- The cells are the row of the item under its id. -/
def IsRow (e : ItemId × Item) (cells : List String) : Prop :=
  ∃ (name description : LooseText) (tags : List LooseText),
    e.2.name = .str name ∧ e.2.description = .str description ∧ e.2.tags.Lists tags ∧
    cells = ["@" ++ toString e.1.value, Markup.escape name.shown, statusCell e.2.status,
      Markup.escape (", ".intercalate (tags.map fun t => "#" ++ t.shown)),
      Markup.escape (String.ofList (description.shown.toList.take 60))]

theorem ofList_print (id : ItemId) : String.ofList id.print = "@" ++ toString id.value := by
  rw [← String.toList_inj, String.toList_ofList, String.toList_append]
  rfl

theorem tagText_map_str (ts : List LooseText) :
    tagText (ts.map .str) = ", ".intercalate (ts.map fun t => "#" ++ t.shown) := by
  rw [tagText, List.map_map]
  rfl

theorem exists_row {e : ItemId × Item} (h : e.2.HasLooseTexts) :
    ∃ cells, row e = .ok cells ∧ IsRow e cells := by
  obtain ⟨name, hname, -⟩ := h.name
  obtain ⟨description, hdescription, -⟩ := h.description
  obtain ⟨tags, htags, hlists⟩ := h.tags.exists_lists
  have hstatus : s!"[{style e.2.status}]{e.2.status.name}[/{style e.2.status}]" =
      statusCell e.2.status := by
    cases e.2.status <;> rfl
  refine ⟨_, ?_, name, description, tags, hname, hdescription, hlists, rfl⟩
  rw [row, hname, hdescription, tagsInOrder, htags]
  simp only [textOf, hstatus, ← ofList_print, ← tagText_map_str]
  rfl

/-- The row begins with the id. -/
theorem IsRow.head?_eq {e : ItemId × Item} {cells : List String} (h : IsRow e cells) :
    cells.head? = some ("@" ++ toString e.1.value) := by
  obtain ⟨_, _, _, -, -, -, rfl⟩ := h
  rfl

/-- Rows of items with different ids can be told apart by their first cells. -/
theorem nodup_head? {es : List (ItemId × Item)} {rows : List (List String)}
    (h : List.Forall₂ IsRow es rows) (hids : (es.map Prod.fst).Nodup) :
    (rows.map List.head?).Nodup := by
  have hcells : rows.map List.head? = es.map fun e => some ("@" ++ toString e.1.value) := by
    induction h with
    | nil => rfl
    | cons hrow _ ih =>
      rw [List.map_cons, List.map_cons, hrow.head?_eq, ih (List.nodup_cons.1 hids).2]
  rw [hcells]
  refine List.pairwise_map.2 ((List.pairwise_map.1 hids).imp fun {e f} hne heq => hne ?_)
  have hnumeral : toString e.1.value = toString f.1.value := by simpa using heq
  have hvalue : e.1.value = f.1.value := Text.ofInt_injective (congrArg String.toList hnumeral)
  exact congrArg ItemId.mk hvalue

/-- The table has a row for each item, in order. -/
theorem exists_items {es : List (ItemId × Item)} (h : ∀ e ∈ es, e.2.HasLooseTexts)
    (title : String) : ∃ table, items title es = .ok table ∧ table.title = title ∧
      table.columns = ["ID", "Name", "Status", "Tags", "Description"] ∧
      List.Forall₂ IsRow es table.rows := by
  have hrows : ∃ rows, es.mapM row = .ok rows ∧ List.Forall₂ IsRow es rows := by
    induction es with
    | nil => exact ⟨[], rfl, .nil⟩
    | cons e es ih =>
      obtain ⟨he, hes⟩ := List.forall_mem_cons.1 h
      obtain ⟨cells, hcells, hrow⟩ := exists_row he
      obtain ⟨rows, hrows, hall⟩ := ih hes
      refine ⟨cells :: rows, ?_, .cons hrow hall⟩
      rw [List.mapM_cons, hcells, hrows]
      rfl
  obtain ⟨rows, hrows, hall⟩ := hrows
  refine ⟨⟨title, ["ID", "Name", "Status", "Tags", "Description"], rows⟩, ?_, rfl, rfl, hall⟩
  rw [items, hrows]
  rfl

end TodoLists.Display
