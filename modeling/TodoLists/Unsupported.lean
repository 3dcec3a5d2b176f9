/-!
# What cannot be asked yet

Priorities are part of the query notation, but items carry none, so nothing can be filtered or
sorted by them.
-/

namespace TodoLists

inductive Unsupported where
  | filterByPriority
  | sortByPriority
  deriving DecidableEq, Repr

def Unsupported.message : Unsupported → String
  | filterByPriority => "filtering by priority is not implemented"
  | sortByPriority => "sorting by priority is not implemented"

end TodoLists
