import TodoLists.Fault
import TodoLists.ItemList
import TodoLists.Query.Parser
import TodoLists.SortOrder

/-!
# Selecting items

What a query finds in a list, in the order of its stages or sorted. Whether a query or a sort order
can be evaluated is settled before any item is looked at.
-/

namespace TodoLists

namespace Query

def selectStages (l : ItemList) : List Filter → Except Unsupported (List ItemId)
  | [] => .ok []
  | f :: fs => do return (← l.select f) ++ (← selectStages l fs)

/-- The ids that the stages find, stage by stage. -/
def select (q : Query) (l : ItemList) : Except Unsupported (List ItemId) := do
  q.checkSupported
  selectStages l q.stageList

end Query

def Unsortable.toFault : Unsortable → Fault
  | byPriority => .unsupported .sortByPriority
  | names => .unforeseen .unordered

namespace ItemList

/-- The items that ids lead to, each with its id. -/
def lookUp (l : ItemList) (ids : List ItemId) : List (ItemId × Item) :=
  ids.filterMap fun id => (l.get? id).map fun i => (id, i)

/-- The items that a query finds, sorted. Without sort keys they stay in the order of the query. -/
def selectSorted (l : ItemList) (q : Query) (o : SortOrder) :
    Except Fault (List (ItemId × Item)) := do
  o.checkSupported.mapError Unsortable.toFault
  let ids ← (q.select l).mapError Fault.unsupported
  let pairs := l.lookUp ids
  if o.keys = [] then return pairs else (o.sort pairs).mapError Unsortable.toFault

end ItemList

end TodoLists
