import TodoLists.Config
import TodoLists.Item
import TodoLists.Item.Id
import TodoLists.Markup

/-!
# What is shown

The program shows lines, tables, yes-or-no questions and prompts. A table of items has a row for
each item; everything in a row that comes from outside is escaped. Only texts can be shown as a name
or a description.
-/

namespace TodoLists

structure Table where
  title : String
  columns : List String
  rows : List (List String)
  deriving DecidableEq, Repr

inductive Output where
  | line (text : String)
  | table (table : Table)
  | question (text : String)
  | prompt (text : String)
  deriving DecidableEq, Repr

namespace Display

def style : Status → String
  | .waiting => "yellow"
  | .queuing => "blue"
  | .working => "magenta"
  | .completed => "green"

/-- How many characters of a description a row shows. -/
def descriptionWidth : Nat := 60

def textOf (v : Json) : Except Fault String :=
  match v with
  | .str s => .ok s.shown
  | _ => .error (.unforeseen .notAText)

def tagsInOrder (t : Tags) : Except Fault (List Json) :=
  match t.inOrder? with
  | some vs => .ok vs
  | none => .error (.unforeseen .unordered)

/-- The tags, each with its sign, separated by commas. -/
def tagText (tags : List Json) : String :=
  ", ".intercalate (tags.map fun t => "#" ++ Config.spell t)

def row (e : ItemId × Item) : Except Fault (List String) := do
  let name ← textOf e.2.name
  let tags ← tagsInOrder e.2.tags
  let description ← textOf e.2.description
  let s := e.2.status
  return [String.ofList e.1.print, Markup.escape name,
    s!"[{style s}]{s.name}[/{style s}]", Markup.escape (tagText tags),
    Markup.escape (String.ofList (description.toList.take descriptionWidth))]

/-- The table of some items. -/
def items (title : String) (es : List (ItemId × Item)) : Except Fault Table := do
  return ⟨title, ["ID", "Name", "Status", "Tags", "Description"], ← es.mapM row⟩

end Display

end TodoLists
