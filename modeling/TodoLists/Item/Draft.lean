import TodoLists.Item
import TodoLists.Text.Blank
import TodoLists.Text.Cut

/-!
# Quick entry

A new item is typed as one line. Every `#` with the characters after it, up to a blank, a colon or
the next `#`, is a tag and is taken out. What is left is the name up to the first colon, and the
description after it, each with its blanks squeezed.
-/

namespace TodoLists

/-- A description of an item that is not in a list yet. -/
structure Draft where
  name : String
  description : String
  status : Status
  tags : List String
  deriving DecidableEq, Repr

namespace Draft

def isTagChar (c : Char) : Bool := !Text.isBlank c && c != ':' && c != '#'

/-- The tags of a line, empty ones included, and the line without them. -/
def takeTags : List Char → List (List Char) × List Char
  | [] => ([], [])
  | c :: cs =>
    if c = '#' then
      let (tags, rest) := takeTags (cs.dropWhile isTagChar)
      (cs.takeWhile isTagChar :: tags, rest)
    else
      let (tags, rest) := takeTags cs
      (tags, c :: rest)
termination_by s => s.length
decreasing_by
  · have := (List.dropWhile_suffix (l := cs) isTagChar).length_le
    simp only [List.length_cons]
    omega
  · simp

/-- The tags that a line names, each once, in the order of their first occurrences. -/
def tagsIn (line : List Char) : List String :=
  (((takeTags line).1.filter fun t => !t.isEmpty).map String.ofList).eraseDups

def ofLine (line : List Char) : Draft where
  name := String.ofList (Text.squeeze (Text.cut ':' (takeTags line).2).1)
  description := String.ofList (Text.squeeze ((Text.cut ':' (takeTags line).2).2.getD []))
  status := .default
  tags := tagsIn line

def toItem (d : Draft) : Item := .ofTexts d.name d.description d.status d.tags

end Draft

end TodoLists
