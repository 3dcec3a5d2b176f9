import TodoLists.Status

/-!
# Invalid input

What can be wrong with a single value that is typed in, queries apart.
-/

namespace TodoLists

inductive InvalidInput where
  | status (e : Status.WordError)
  | itemId (numeral : List Char)
  | sortKey (key : List Char)
  | emptyQuery
  | namelessItem
  | usage (form : String)
  deriving DecidableEq, Repr

def InvalidInput.message : InvalidInput → String
  | status e => e.message
  | itemId t => s!"invalid item id '{String.ofList t}'"
  | sortKey k =>
    s!"unknown sort key '{String.ofList k}' (expected one of: name, status, priority)"
  | emptyQuery => "a query needs at least one stage"
  | namelessItem => "an item needs a name"
  | usage form => s!"usage: {form}"

end TodoLists
