import TodoLists.Display
import TodoLists.ItemList

/-!
# Completion

What is typed in the shell is completed at the cursor: the first word to a command, a word that
begins with `%` to a status, and one that begins with `#` to a tag of the list.
-/

namespace TodoLists.Completion

/-- A text to put in place of the last characters before the cursor. -/
structure Choice where
  text : String
  /-- How many characters it replaces. -/
  replaced : Nat
  deriving DecidableEq, Repr

def endsWithSpace (s : List Char) : Bool := s.getLast? == some ' '

/-- The part of a word that is to be completed; after a space a new word begins. -/
def partialWord (s : List Char) : List Char :=
  if endsWithSpace s then [] else (Text.words s).getLast?.getD []

/-- Texts in order, each once. -/
def sortTexts (ts : List String) : List String := ts.mergeSort fun a b => decide (a ≤ b)

/-- Every tag of the list, in order. -/
def allTags (l : ItemList) : Except Fault (List Json) :=
  Display.tagsInOrder (l.entries.foldl
    (fun tags e => (e.2.tags.textValues ++ e.2.tags.others).foldl Tags.add tags) .empty)

def candidates (commands : List String) (l : ItemList) (s : List Char) :
    Except Fault (List String) :=
  if (Text.words s).length ≤ 1 ∧ ¬endsWithSpace s then .ok (sortTexts commands)
  else match partialWord s with
    | '%' :: _ => .ok (Status.all.map fun a => String.ofList ('%' :: a.lowerName))
    | '#' :: _ => (allTags l).map fun ts => ts.map fun t => "#" ++ Config.spell t
    | _ => .ok []

/-- The choices for the text before the cursor. -/
def choices (commands : List String) (l : ItemList) (s : List Char) :
    Except Fault (List Choice) := do
  let word := partialWord s
  let found := (← candidates commands l s).filter fun c => word.isPrefixOf c.toList
  return found.map fun c => ⟨c, word.length⟩

end TodoLists.Completion
