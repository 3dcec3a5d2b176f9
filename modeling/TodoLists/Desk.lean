import TodoLists.ListFile
import TodoLists.Query.Select

/-!
# Working on a list

A desk holds one open list, the disk that its file is on, and the supply of ids. Every change is
written to the file before it is reported as done. A change that could not be written stays on the
desk.
-/

namespace TodoLists

/-- A list loaded from its file. -/
structure OpenList where
  name : String
  path : Path
  items : ItemList

structure Desk where
  list : OpenList
  disk : Disk
  supply : Supply

namespace Desk

def items (d : Desk) : ItemList := d.list.items

def withItems (d : Desk) (l : ItemList) : Desk := { d with list := { d.list with items := l } }

/-- Puts the list of a file on a desk. -/
def load (name : String) (path : Path) (disk : Disk) (supply : Supply) : Except Fault Desk := do
  return ⟨⟨name, path, ← ListFile.load disk path⟩, disk, supply⟩

def save (d : Desk) : Except Fault Unit × Desk :=
  let (r, disk) := ListFile.save d.disk d.list.path d.items
  (r, { d with disk := disk })

/-- Writes the file and gives an answer. -/
def saving {α : Type} (d : Desk) (answer : α) : Except Fault α × Desk :=
  let (r, d') := d.save
  (r.map fun _ => answer, d')

/-- The items that a query finds, in query order or sorted. -/
def select (d : Desk) (query : String) (o : SortOrder) : Except Fault (List (ItemId × Item)) := do
  let q ← (Query.parseQuery query).mapError Fault.query
  d.items.selectSorted q o

/-- The ids that a query finds, each once. -/
def matchingIds (d : Desk) (query : String) : Except Fault (List ItemId) := do
  let q ← (Query.parseQuery query).mapError Fault.query
  let ids ← (q.select d.items).mapError Fault.unsupported
  return ids.eraseDups

/-- Adds an item from a line of quick entry. -/
def add (d : Desk) (line : String) : Except Fault ItemId × Desk :=
  let draft := Draft.ofLine line.toList
  if draft.name = "" then (.error (.invalid .namelessItem), d)
  else
    let (id, items, supply) := d.items.add draft d.supply
    { d.withItems items with supply := supply }.saving id

/-- Changes the items that a query finds and reports their ids. When there are none, nothing is
written. -/
def change (d : Desk) (query : String) (f : ItemList → List ItemId → ItemList) :
    Except Fault (List ItemId) × Desk :=
  match d.matchingIds query with
  | .error e => (.error e, d)
  | .ok [] => (.ok [], d)
  | .ok ids => (d.withItems (f d.items ids)).saving ids

def remove (d : Desk) (query : String) : Except Fault (List ItemId) × Desk :=
  d.change query ItemList.removeAll

def setStatus (d : Desk) (query : String) (s : Status) : Except Fault (List ItemId) × Desk :=
  d.change query fun l ids => l.modifyAll ids (·.setStatus s)

def setTag (d : Desk) (query tag : String) (present : Bool) :
    Except Fault (List ItemId) × Desk :=
  d.change query fun l ids => l.modifyAll ids (·.setTag tag present)

end Desk

end TodoLists
