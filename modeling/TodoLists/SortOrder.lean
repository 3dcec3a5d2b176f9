import TodoLists.InvalidInput
import TodoLists.Item.Id
import TodoLists.Item
import TodoLists.Text.Cut
import TodoLists.Unsupported

/-!
# Sort orders

A sort order is a row of keys; the first key on which two items differ decides. Items that no key
tells apart keep their order. Names of different kinds have no order.
-/

namespace TodoLists

inductive SortKey where
  | name
  | status
  | priority
  deriving DecidableEq, Repr

/-- Why items cannot be put in order. -/
inductive Unsortable where
  | byPriority
  | names
  deriving DecidableEq, Repr

namespace SortKey

def word : SortKey → String
  | name => "name"
  | status => "status"
  | priority => "priority"

def ofWord? (w : List Char) : Option SortKey :=
  [name, status, priority].find? fun k => k.word.toList == w

def compare (a b : Item) : SortKey → Except Unsortable Ordering
  | name =>
    match a.name.order? b.name with
    | some o => .ok o
    | none => .error .names
  | status => .ok (Ord.compare a.status.rank b.status.rank)
  | priority => .error .byPriority

end SortKey

structure SortOrder where
  keys : List SortKey
  deriving DecidableEq, Repr

namespace SortOrder

def none : SortOrder := ⟨[]⟩

/-- Reads key names separated by commas; empty ones are skipped. -/
def read (s : List Char) : Except InvalidInput SortOrder := do
  let words := ((Text.pieces ',' s).map fun p => Text.lowercase (Text.strip p)).filter (· != [])
  let keys ← words.mapM fun w =>
    match SortKey.ofWord? w with
    | some k => Except.ok k
    | Option.none => .error (.sortKey w)
  return ⟨keys⟩

def compareBy (a b : Item) : List SortKey → Except Unsortable Ordering
  | [] => .ok .eq
  | k :: ks => do
    match ← k.compare a b with
    | .eq => compareBy a b ks
    | o => return o

def compare (o : SortOrder) (a b : Item) : Except Unsortable Ordering := compareBy a b o.keys

def checkSupported (o : SortOrder) : Except Unsortable Unit :=
  if o.keys.contains .priority then .error .byPriority else .ok ()

/-- The first item may stand before the second. -/
def mayPrecede (o : SortOrder) (a b : Item) : Bool :=
  match o.compare a b with
  | .ok r => r.isLE
  | .error _ => true

/-- The pairs in order, provided any two of them can be compared. -/
def sort (o : SortOrder) (pairs : List (ItemId × Item)) :
    Except Unsortable (List (ItemId × Item)) := do
  o.checkSupported
  if pairs.Pairwise fun x y => (o.compare x.2 y.2).isOk then
    return pairs.mergeSort fun x y => o.mayPrecede x.2 y.2
  else throw .names

end SortOrder

end TodoLists
