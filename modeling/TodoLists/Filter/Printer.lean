import TodoLists.Filter
import TodoLists.Text.Numeral

/-!
# Printing filters

Filters are printed in query notation. A disjunction inside a conjunction and a conjunction inside a
disjunction get parentheses, and so does either of them under a negation. A name that is spelt like
a keyword gets parentheses too, for alone it would be read as the keyword. A filter in which a
priority has too long a numeral cannot be printed at all.
-/

namespace TodoLists.Filter

def parenthesized (s : List Char) : List Char := '(' :: (s ++ [')'])

def printStatus (s : Status) : List Char := '%' :: s.name.toList

def printPriority (n : Int) : List Char := '^' :: Text.ofInt n

def isKeyword (n : String) : Bool := n == "all" || n == "none"

def isAnd : Filter → Bool
  | and _ => true
  | _ => false

def isOr : Filter → Bool
  | or _ => true
  | _ => false

/-- Texts with a separator between neighbours. -/
def joinWith (separator : List Char) : List (List Char) → List Char
  | [] => []
  | [t] => t
  | t :: ts => t ++ separator ++ joinWith separator ts

mutual

def print : Filter → List Char
  | all => "all".toList
  | none => "none".toList
  | status r => r.print printStatus
  | priority r => r.print printPriority
  | tag t => '#' :: t.toList
  | name n => if isKeyword n then parenthesized n.toList else n.toList
  | and fs => joinWith " & ".toList (printConjuncts fs)
  | or fs => joinWith " ".toList (printDisjuncts fs)
  | not f => '!' :: (if f.isAnd || f.isOr then parenthesized f.print else f.print)

def printConjuncts : List Filter → List (List Char)
  | [] => []
  | f :: fs => (if f.isOr then parenthesized f.print else f.print) :: printConjuncts fs

def printDisjuncts : List Filter → List (List Char)
  | [] => []
  | f :: fs => (if f.isAnd then parenthesized f.print else f.print) :: printDisjuncts fs

end

mutual

/-- Every number in the filter can be written. -/
def isWritable : Filter → Bool
  | priority r => r.all Text.isWritable
  | and fs => allWritable fs
  | or fs => allWritable fs
  | not f => f.isWritable
  | _ => true

def allWritable : List Filter → Bool
  | [] => true
  | f :: fs => f.isWritable && allWritable fs

end

/-- The text of a filter that can be printed. -/
def print? (f : Filter) : Option (List Char) := if f.isWritable then some f.print else Option.none

end TodoLists.Filter
