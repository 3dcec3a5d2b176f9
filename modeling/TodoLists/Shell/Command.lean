import TodoLists.Text.Blank
import TodoLists.Text.Cut

/-!
# Commands of the shell

A command line is a word, up to the first space, and the arguments after it.
-/

namespace TodoLists.Shell

inductive Command where
  | list
  | add
  | status
  | tag
  | untag
  | remove
  | sort
  | help
  | leave
  deriving DecidableEq, Repr

namespace Command

/-- Every word that stands for a command. -/
def words : List (String × Command) :=
  [("ls", list), ("add", add), ("status", status), ("tag", tag), ("untag", untag),
    ("rm", remove), ("sort", sort), ("help", help), ("?", help), ("exit", leave), ("quit", leave)]

def ofWord? (w : List Char) : Option Command :=
  (words.find? fun c => c.1.toList == w).map (·.2)

theorem ofWord?_eq_leave_iff {w : List Char} :
    ofWord? w = some leave ↔ w = "exit".toList ∨ w = "quit".toList := by
  constructor
  · intro h
    obtain ⟨⟨word, c⟩, hfind, rfl⟩ := Option.map_eq_some_iff.1 h
    have hword : word.toList = w := by simpa using List.find?_some hfind
    have hmem := List.mem_of_find?_eq_some hfind
    simp only [words, List.mem_cons, Prod.mk.injEq, reduceCtorEq, and_false, and_true, false_or,
      List.not_mem_nil, or_false] at hmem
    rcases hmem with rfl | rfl
    · exact .inl hword.symm
    · exact .inr hword.symm
  · rintro (rfl | rfl) <;> decide +kernel

end Command

/-- The first word of a line, and the rest without blanks at its ends. -/
def splitLine (line : List Char) : List Char × List Char :=
  let (word, rest) := Text.cut ' ' (Text.strip line)
  (word, Text.strip (rest.getD []))

/-- The first argument and the others, when there are some. -/
def splitFirst? (args : List Char) : Option (List Char × List Char) :=
  let (first, rest) := Text.cut ' ' args
  let others := Text.strip (rest.getD [])
  if first = [] ∨ others = [] then none else some (first, others)

/-- What the shell says about its commands. -/
def helpText : List String := [
  "[bold]Commands:[/bold]",
  "  ls [query]                Show matching items",
  "  add <text>                Add '#tag name: description'",
  "  status <status> <query>   Set status of matching items",
  "  tag <tag> <query>         Tag matching items",
  "  untag <tag> <query>       Untag matching items",
  "  rm <query>                Remove matching items",
  "  sort [keys]               Show or set sort, e.g. 'status,name'",
  "  exit, quit                Leave the shell",
  "",
  "[bold]Queries:[/bold]",
  "  name  #tag  %status  ! (not)  & (and)  a b (or)  ( ... )",
  "  (%waiting ... %completed]  [%queue ... inf]  a => b (stages)"]

end TodoLists.Shell
