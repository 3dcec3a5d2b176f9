import TodoLists.CommandLine.Options
import TodoLists.Disk.Name

/-!
# Commands

What the program is asked to do. Reading happens in two steps, because the program sets itself up
between them: first the options of the program and which command comes next, then everything that
belongs to the command.
-/

namespace TodoLists.CommandLine

/-- Why nothing is done: the words make no command, help was asked for, or a path is one that no
file can have. -/
inductive Refusal where
  | usage
  | help
  | badPath
  deriving DecidableEq, Repr

inductive Command where
  | add (words : List String) (list : Option String)
  | list (query : String) (sort list : Option String)
  | status (word query : String) (list : Option String)
  | tag (tag query : String) (remove : Bool) (list : Option String)
  | remove (query : String) (yes : Bool) (list : Option String)
  | shell (list : Option String)
  | newList (name : String) (path : Option Path)
  | forgetList (name : String) (yes : Bool)
  | showLists
  | useList (name : String)
  deriving DecidableEq, Repr

def helpOption : OptionForm := ⟨"help", none, false⟩
def installCompletionOption : OptionForm := ⟨"install-completion", none, false⟩
def showCompletionOption : OptionForm := ⟨"show-completion", none, false⟩
def verboseOption : OptionForm := ⟨"verbose", some 'v', false⟩
def listOption : OptionForm := ⟨"list", some 'l', true⟩
def sortOption : OptionForm := ⟨"sort", some 's', true⟩
def removeOption : OptionForm := ⟨"remove", some 'r', false⟩
def yesOption : OptionForm := ⟨"yes", some 'y', false⟩
def pathOption : OptionForm := ⟨"path", some 'p', true⟩

/-- The options that ask for help, be it with the program or with completing its words in a shell of
the system. -/
def helpOptions : List OptionForm := [helpOption, installCompletionOption, showCompletionOption]

/-- Reads options, among them the one that asks for help. -/
def readGiven (forms : List OptionForm) (mixed : Bool) (words : List String) :
    Except Refusal Given :=
  match Given.read? (helpOption :: forms) mixed words with
  | none => .error .usage
  | some g => if helpOptions.any g.has then .error .help else .ok g

/-- Reads a command with the given options. -/
def readCommand (forms : List OptionForm) (words : List String)
    (make : Given → List String → Option Command) : Except Refusal Command := do
  let g ← readGiven forms true words
  match make g g.arguments with
  | some c => return c
  | none => throw .usage

/-- Reads the options of a group of commands and the name of one of them. A name that is none may
still be an option that asks for help. -/
def readGroup {α : Type} (forms : List OptionForm) (names : List (String × α))
    (words : List String) : Except Refusal (Given × α × List String) := do
  let g ← readGiven forms false words
  match g.arguments with
  | [] => throw .usage
  | name :: rest =>
    match names.find? fun n => n.1 == name with
    | some n => return (g, n.2, rest)
    | none => do
      let _ ← readGiven forms false (name :: rest)
      throw .usage

/-! ### The commands of the registry -/

inductive RegistryTopic where
  | new
  | remove
  | list
  | use
  deriving DecidableEq, Repr

def registryTopics : List (String × RegistryTopic) :=
  [("new", .new), ("rm", .remove), ("ls", .list), ("use", .use)]

def readRegistryCommand (words : List String) : Except Refusal Command := do
  let (_, topic, rest) ← readGroup [] registryTopics words
  match topic with
  | .new => do
    let g ← readGiven [pathOption] true rest
    let path := (g.value? pathOption).map Path.ofString
    if path.any Path.holdsNul then throw .badPath
    match g.arguments with
    | [name] => return .newList name path
    | _ => throw .usage
  | .remove => readCommand [yesOption] rest fun g arguments =>
      match arguments with
      | [name] => some (.forgetList name (g.has yesOption))
      | _ => none
  | .list => readCommand [] rest fun _ arguments =>
      match arguments with
      | [] => some .showLists
      | _ => none
  | .use => readCommand [] rest fun _ arguments =>
      match arguments with
      | [name] => some (.useList name)
      | _ => none

/-! ### All commands -/

inductive Topic where
  | lists
  | add
  | list
  | status
  | tag
  | remove
  | shell
  deriving DecidableEq, Repr

def topics : List (String × Topic) :=
  [("lists", .lists), ("add", .add), ("ls", .list), ("status", .status), ("tag", .tag),
    ("rm", .remove), ("shell", .shell)]

/-- Reads what belongs to a command. -/
def Command.read (words : List String) : Topic → Except Refusal Command
  | .lists => readRegistryCommand words
  | .add => readCommand [listOption] words fun g arguments =>
      if arguments = [] then none else some (.add arguments (g.value? listOption))
  | .list => readCommand [listOption, sortOption] words fun g arguments =>
      match arguments with
      | [] => some (.list "all" (g.value? sortOption) (g.value? listOption))
      | [query] => some (.list query (g.value? sortOption) (g.value? listOption))
      | _ => none
  | .status => readCommand [listOption] words fun g arguments =>
      match arguments with
      | [word, query] => some (.status word query (g.value? listOption))
      | _ => none
  | .tag => readCommand [removeOption, listOption] words fun g arguments =>
      match arguments with
      | [name, query] => some (.tag name query (g.has removeOption) (g.value? listOption))
      | _ => none
  | .remove => readCommand [listOption, yesOption] words fun g arguments =>
      match arguments with
      | [query] => some (.remove query (g.has yesOption) (g.value? listOption))
      | _ => none
  | .shell => readCommand [listOption] words fun g arguments =>
      match arguments with
      | [] => some (.shell (g.value? listOption))
      | _ => none

/-- The options of the program, and which command comes next. -/
structure Invocation where
  verbose : Bool
  topic : Topic
  rest : List String
  deriving DecidableEq, Repr

def Invocation.read (words : List String) : Except Refusal Invocation := do
  let forms := [verboseOption, installCompletionOption, showCompletionOption]
  let (g, topic, rest) ← readGroup forms topics words
  return ⟨g.has verboseOption, topic, rest⟩

end TodoLists.CommandLine
