import TodoLists.Filter.Printer
import TodoLists.InvalidInput

/-!
# Queries

A query is one or more stages. Stages do not narrow each other: each is asked of the whole list, and
what they find is put together in the order of the stages, so an item may be found more than once.
-/

namespace TodoLists

structure Query where
  first : Filter
  rest : List Filter
  deriving BEq, Repr

namespace Query

def of (f : Filter) : Query := ⟨f, []⟩

def stageList (q : Query) : List Filter := q.first :: q.rest

/-- The query with one more stage at the end. -/
def andThen (q : Query) (f : Filter) : Query := { q with rest := q.rest ++ [f] }

@[simp] theorem stageList_andThen (q : Query) (f : Filter) :
    (q.andThen f).stageList = q.stageList ++ [f] := by simp [stageList, andThen]

def ofStages : List Filter → Except InvalidInput Query
  | [] => .error .emptyQuery
  | f :: fs => .ok ⟨f, fs⟩

def print (q : Query) : List Char := Filter.joinWith " => ".toList (q.stageList.map Filter.print)

/-- The text of a query that can be printed. -/
def print? (q : Query) : Option (List Char) :=
  if Filter.allWritable q.stageList then some q.print else none

def checkSupported (q : Query) : Except Unsupported Unit := Filter.checkAllSupported q.stageList

end Query

end TodoLists
