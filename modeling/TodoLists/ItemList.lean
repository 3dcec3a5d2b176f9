import TodoLists.Filter
import TodoLists.Item.Draft
import TodoLists.Item.Id

/-!
# Lists of items

A list holds items in the order in which they were added, each with its id. Ids that this program
gives out are distinct; where a list file repeats an id, looking it up finds its first item.
-/

namespace TodoLists

structure ItemList where
  entries : List (ItemId × Item)
  deriving BEq

namespace ItemList

def empty : ItemList := ⟨[]⟩

def ids (l : ItemList) : List ItemId := l.entries.map (·.1)

/-- Every item has texts for its name, description and tags. -/
def HasTexts (l : ItemList) : Prop := ∀ e ∈ l.entries, e.2.HasTexts

def length (l : ItemList) : Nat := l.entries.length

def get? (l : ItemList) (id : ItemId) : Option Item :=
  (l.entries.find? fun e => e.1 == id).map (·.2)

/-- Adds an item at the end, under the first number of the supply that is not an id of the list. -/
def add (l : ItemList) (d : Draft) (supply : Supply) : ItemId × ItemList × Supply :=
  let (n, supply') := supply.next (l.ids.map ItemId.value)
  (⟨n⟩, ⟨l.entries ++ [(⟨n⟩, d.toItem)]⟩, supply')

def remove (l : ItemList) (id : ItemId) : ItemList := ⟨l.entries.filter fun e => e.1 != id⟩

def modifyFirst (id : ItemId) (f : Item → Item) : List (ItemId × Item) → List (ItemId × Item)
  | [] => []
  | e :: es => if e.1 = id then (e.1, f e.2) :: es else e :: modifyFirst id f es

/-- Changes the item that the id leads to; without one nothing changes. -/
def modify (l : ItemList) (id : ItemId) (f : Item → Item) : ItemList :=
  ⟨modifyFirst id f l.entries⟩

/-- The ids of the pairs whose items match, in order. -/
def matching? (f : Filter) : List (ItemId × Item) → Except Unsupported (List ItemId)
  | [] => .ok []
  | e :: es => do
    let found ← f.matches? e.2
    let rest ← matching? f es
    return if found then e.1 :: rest else rest

/-- The ids of the items that a filter matches, unless it holds a priority. -/
def select (l : ItemList) (f : Filter) : Except Unsupported (List ItemId) := do
  f.checkSupported
  matching? f l.entries

/-- Removes each id in turn. -/
def removeAll (l : ItemList) (ids : List ItemId) : ItemList := ids.foldl remove l

/-- Changes the items of all ids in turn. -/
def modifyAll (l : ItemList) (ids : List ItemId) (f : Item → Item) : ItemList :=
  ids.foldl (fun l id => l.modify id f) l

@[simp] theorem ids_remove (l : ItemList) (id : ItemId) :
    (l.remove id).ids = l.ids.filter (· != id) := by
  simp [ids, remove, List.filter_map]; rfl

theorem map_fst_modifyFirst (id : ItemId) (f : Item → Item) (es : List (ItemId × Item)) :
    (modifyFirst id f es).map (·.1) = es.map (·.1) := by
  induction es with
  | nil => rfl
  | cons e es ih => by_cases h : e.1 = id <;> simp [modifyFirst, h, ih]

@[simp] theorem ids_modify (l : ItemList) (id : ItemId) (f : Item → Item) :
    (l.modify id f).ids = l.ids := map_fst_modifyFirst id f l.entries

end ItemList

end TodoLists
