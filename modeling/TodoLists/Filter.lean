import TodoLists.Item
import TodoLists.Range
import TodoLists.Unsupported

/-!
# Filters

A filter is a tree of conditions on one item. Joining two filters with `both` or `either` splices
operands of the same kind, so trees built by these two never hold a conjunction directly inside a
conjunction, or a disjunction inside a disjunction, unless a part was built that way by hand.

A priority cannot be evaluated. Matching looks at the parts of a conjunction or disjunction from the
left and stops where the outcome is settled, so it may or may not run into one; `checkSupported`
looks at the whole tree.
-/

namespace TodoLists

inductive Filter where
  | all
  | none
  | status (range : Range Status)
  | priority (range : Range Int)
  | tag (tag : String)
  | name (name : String)
  | and (parts : List Filter)
  | or (parts : List Filter)
  | not (part : Filter)
  deriving BEq, Repr, Inhabited

namespace Filter

/-- The parts of a conjunction, or the filter as the only part. -/
def conjuncts : Filter → List Filter
  | and fs => fs
  | f => [f]

def disjuncts : Filter → List Filter
  | or fs => fs
  | f => [f]

def both (f g : Filter) : Filter := and (f.conjuncts ++ g.conjuncts)

def either (f g : Filter) : Filter := or (f.disjuncts ++ g.disjuncts)

@[simp] theorem conjuncts_both (f g : Filter) :
    (f.both g).conjuncts = f.conjuncts ++ g.conjuncts := rfl

@[simp] theorem disjuncts_either (f g : Filter) :
    (f.either g).disjuncts = f.disjuncts ++ g.disjuncts := rfl

mutual

/-- Whether the item meets the condition, looked at from the left and no further than needed. -/
def matches? (i : Item) : Filter → Except Unsupported Bool
  | all => .ok true
  | none => .ok false
  | status r => .ok (r.contains i.status)
  | priority _ => .error .filterByPriority
  | tag t => .ok (i.hasTag t)
  | name n => .ok (i.isNamed n)
  | and fs => allMatch? i fs
  | or fs => anyMatches? i fs
  | not f => (f.matches? i).map (!·)

def allMatch? (i : Item) : List Filter → Except Unsupported Bool
  | [] => .ok true
  | f :: fs => do if ← f.matches? i then allMatch? i fs else return false

def anyMatches? (i : Item) : List Filter → Except Unsupported Bool
  | [] => .ok false
  | f :: fs => do if ← f.matches? i then return true else anyMatches? i fs

end

mutual

/-- Refuses a filter with a priority anywhere in it. -/
def checkSupported : Filter → Except Unsupported Unit
  | priority _ => .error .filterByPriority
  | and fs => checkAllSupported fs
  | or fs => checkAllSupported fs
  | not f => f.checkSupported
  | _ => .ok ()

def checkAllSupported : List Filter → Except Unsupported Unit
  | [] => .ok ()
  | f :: fs => do
    f.checkSupported
    checkAllSupported fs

end

end Filter

end TodoLists
