import TodoLists.Item.Tags
import TodoLists.Status

/-!
# Items

What a list holds about one thing to do. Names and descriptions are texts wherever this program
writes them; a list file may hold any other JSON value in their place, and it is kept as it stands.
Such a name equals no name that is asked for.
-/

namespace TodoLists

structure Item where
  name : Json
  description : Json
  status : Status
  tags : Tags
  deriving BEq

namespace Item

/-- An item as this program makes them. -/
def ofTexts (name description : String) (status : Status) (tags : List String) : Item :=
  ⟨.str name, .str description, status, .ofTexts tags⟩

/-- The item's name, description and tags are texts of characters. -/
structure HasTexts (i : Item) : Prop where
  name : ∃ s : String, i.name = .str s
  description : ∃ s : String, i.description = .str s
  tags : i.tags.others = []

def isNamed (i : Item) (n : String) : Bool :=
  match i.name with
  | .str s => s == .ofString n
  | _ => false

def hasTag (i : Item) (t : String) : Bool := i.tags.has t

def setName (i : Item) (n : String) : Item := { i with name := .str n }

def setDescription (i : Item) (d : String) : Item := { i with description := .str d }

def setStatus (i : Item) (s : Status) : Item := { i with status := s }

def setTag (i : Item) (t : String) (present : Bool) : Item :=
  { i with tags := i.tags.set t present }

end Item

end TodoLists
