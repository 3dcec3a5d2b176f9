import TodoLists.Text.Cut

/-!
# Options

What is typed after the name of a program or command consists of options and arguments. An option is
written `--list x`, `--list=x`, `-l x` or `-lx`, one without a value `--yes` or `-y`, and several
short ones may share a dash. After `--` everything is an argument, and a dash alone is one too.
Options stand anywhere among the arguments of a command, but have to come before those of a group of
commands.
-/

namespace TodoLists.CommandLine

/-- An option that a command understands. -/
structure OptionForm where
  long : String
  short : Option Char
  takesValue : Bool
  deriving DecidableEq, Repr

/-- The options, each with its value, and the arguments. -/
structure Given where
  options : List (OptionForm × String)
  arguments : List String
  deriving DecidableEq, Repr

namespace OptionForm

def isLong (name : List Char) (o : OptionForm) : Bool := '-' :: '-' :: o.long.toList == name

def isShort (c : Char) (o : OptionForm) : Bool := o.short == some c

end OptionForm

/-- What an option was given as, and how many of the following words belong to it. -/
abbrev Taken : Type := List (OptionForm × String) × Nat

/-- The next word as the value of an option. -/
def takeNext? (o : OptionForm) (rest : List String) : Option Taken :=
  rest.head?.map fun v => ([(o, v)], 1)

/-- An option written in full, with the value after the equals sign if there is one. -/
def readLong? (o : OptionForm) (value : Option (List Char)) (rest : List String) : Option Taken :=
  match o.takesValue, value with
  | true, some v => some ([(o, String.ofList v)], 0)
  | true, none => takeNext? o rest
  | false, some _ => none
  | false, none => some ([(o, "")], 0)

/-- The short options behind a dash. What follows one that takes a value is its value. -/
def readShort? (forms : List OptionForm) (rest : List String) : List Char → Option Taken
  | [] => some ([], 0)
  | c :: cs => do
    let o ← forms.find? (·.isShort c)
    if o.takesValue then
      if cs = [] then takeNext? o rest else some ([(o, String.ofList cs)], 0)
    else
      let (more, n) ← readShort? forms rest cs
      some ((o, "") :: more, n)

/-- A word that begins with a dash. -/
def readOption? (forms : List OptionForm) (word : List Char) (rest : List String) : Option Taken :=
  let (name, value) := Text.cut '=' word
  match forms.find? (·.isLong name) with
  | some o => readLong? o value rest
  | none => if word.take 2 = ['-', '-'] then none else readShort? forms rest (word.drop 1)

def isOption : List Char → Bool
  | '-' :: _ :: _ => true
  | _ => false

/-- Reads all words. When options may not stand among the arguments, the first argument ends them.
-/
def Given.read? (forms : List OptionForm) (mixed : Bool) : List String → Option Given
  | [] => some ⟨[], []⟩
  | word :: rest => do
    if word = "--" then some ⟨[], rest⟩
    else if isOption word.toList then
      let (options, n) ← readOption? forms word.toList rest
      let others ← Given.read? forms mixed (rest.drop n)
      some ⟨options ++ others.options, others.arguments⟩
    else if mixed then
      let others ← Given.read? forms mixed rest
      some { others with arguments := word :: others.arguments }
    else some ⟨[], word :: rest⟩
termination_by words => words.length
decreasing_by all_goals simp only [List.length_drop, List.length_cons]; omega

namespace Given

def has (g : Given) (o : OptionForm) : Bool := g.options.any fun p => p.1 == o

/-- The value that an option was given last. -/
def value? (g : Given) (o : OptionForm) : Option String :=
  (g.options.reverse.find? fun p => p.1 == o).map (·.2)

end Given

end TodoLists.CommandLine
