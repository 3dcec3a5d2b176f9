import TodoLists.Text.Blank
import TodoLists.Text.Cut
import TodoLists.Text.Lowercase

/-!
# Markup

Printed texts may style parts of themselves with tags in square brackets, such as `[red]`, which a
closing tag ends, such as `[/red]`. A text with a closing tag for which no tag is open cannot be
printed. So a text that comes from outside is escaped first: a backslash goes before everything in
it that would be taken for a tag, backslashes standing before that being doubled, and a single
backslash at its end is doubled too.
-/

namespace TodoLists.Markup

/-- A character that can follow the opening bracket of a tag. -/
def startsTag (c : Char) : Bool :=
  ('a' ≤ c && c ≤ 'z') || c == '#' || c == '/' || c == '@'

/-- What stands inside a tag whose opening bracket comes right before the text, if it is one. -/
def tagBody? : List Char → Option (List Char)
  | [] => none
  | c :: cs =>
    let body := cs.takeWhile fun x => x != '[' && x != ']'
    if startsTag c && (cs.drop body.length).head? == some ']' then some (c :: body) else none

/-- Escapes a text that comes after some backslashes. -/
def escapeAfter (backslashes : Nat) : List Char → List Char
  | [] => List.replicate backslashes '\\'
  | c :: cs =>
    if c = '\\' then escapeAfter (backslashes + 1) cs
    else if c = '[' then
      match tagBody? cs with
      | some body =>
        List.replicate (2 * backslashes + 1) '\\' ++ '[' :: (body ++ [']']) ++
          escapeAfter 0 (cs.drop (body.length + 1))
      | none => List.replicate backslashes '\\' ++ c :: escapeAfter 0 cs
    else List.replicate backslashes '\\' ++ c :: escapeAfter 0 cs
termination_by s => s.length
decreasing_by all_goals simp only [List.length_cons, List.length_drop]; omega

/-- Doubles a backslash that ends a text alone. -/
def closeBackslash (s : List Char) : List Char :=
  match s.reverse with
  | '\\' :: '\\' :: _ => s
  | '\\' :: _ => s ++ ['\\']
  | _ => s

def escape (s : String) : String := String.ofList (closeBackslash (escapeAfter 0 s.toList))

/-- The text without its tags, taken up after some backslashes. Of the backslashes before what looks
like a tag every second one goes, and an odd one keeps the tag as text. -/
def plainAfter (backslashes : Nat) : List Char → List Char
  | [] => List.replicate backslashes '\\'
  | c :: cs =>
    if c = '\\' then plainAfter (backslashes + 1) cs
    else if c = '[' then
      match tagBody? cs with
      | some body =>
        List.replicate (backslashes / 2) '\\' ++
          (if backslashes % 2 = 1 then '[' :: (body ++ [']']) else []) ++
          plainAfter 0 (cs.drop (body.length + 1))
      | none => List.replicate backslashes '\\' ++ c :: plainAfter 0 cs
    else List.replicate backslashes '\\' ++ c :: plainAfter 0 cs
termination_by s => s.length
decreasing_by all_goals simp only [List.length_cons, List.length_drop]; omega

/-- What is left to read when no style is shown. -/
def plain (s : String) : String := String.ofList (plainAfter 0 s.toList)

/-! ### Reading tags -/

/-- What stands inside the tags of a text, taken up after some backslashes. An odd number of
backslashes makes text of the tag behind them. -/
def tagsAfter (backslashes : Nat) : List Char → List (List Char)
  | [] => []
  | c :: cs =>
    if c = '\\' then tagsAfter (backslashes + 1) cs
    else if c = '[' then
      match tagBody? cs with
      | some body =>
        (if backslashes % 2 = 1 then [] else [body]) ++ tagsAfter 0 (cs.drop (body.length + 1))
      | none => tagsAfter 0 cs
    else tagsAfter 0 cs
termination_by s => s.length
decreasing_by all_goals simp only [List.length_cons, List.length_drop]; omega

/-- A tag that was opened. It may have parameters behind an equals sign. -/
structure Tag where
  name : List Char
  parameters : List Char
  deriving DecidableEq, Repr

/-- How tags are taken. A closing tag belongs to an open one when their names come to the same
style. A tag whose name begins with an at sign holds an action in its parameters, if it has any, and
they have to be one when it is closed. -/
structure Reading where
  style : List Char → List Char
  isAction : List Char → Bool

namespace Reading

/-- Names come to the same style if they differ in letter case and in blanks around them only, and
whatever parameters there are make an action. -/
def byName : Reading := ⟨fun name => Text.lowercase (Text.strip name), fun _ => true⟩

/-- The closing tag with this name belongs to the open tag. Without a name it closes any tag. -/
def closes (r : Reading) (name : List Char) (t : Tag) : Bool :=
  name.isEmpty || t.name == r.style name

/-- An action in the tag is one. -/
def canClose (r : Reading) (t : Tag) : Bool :=
  t.name.head? != some '@' || t.parameters.isEmpty || r.isAction t.parameters

/-- The open tags, the latest first, after one more tag was read. A closing tag ends the latest one
that it belongs to. -/
def step (r : Reading) (opened : List Tag) (body : List Char) : Option (List Tag) :=
  match Text.cut '=' body with
  | ('/' :: name, _) => do
    let name := Text.strip name
    let t ← opened.find? (r.closes name)
    if r.canClose t then some (opened.eraseP (r.closes name)) else none
  | (name, parameters) => some (⟨r.style name, parameters.getD []⟩ :: opened)

/-- Every closing tag in the text has a tag to close. Tags may stay open. -/
def canRead (r : Reading) (s : String) : Bool := ((tagsAfter 0 s.toList).foldlM r.step []).isSome

end Reading

end TodoLists.Markup
