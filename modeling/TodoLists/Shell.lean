import TodoLists.Desk
import TodoLists.Screen
import TodoLists.Shell.Command

/-!
# The shell

The shell works on one list with one command line after another. A command either fails, and then
says nothing, or says something; which faults are then reported to the user, and how, is settled in
one place. Faults that nothing foresees end the shell, and so does something to say that the screen
cannot show.
-/

namespace TodoLists

structure Shell where
  desk : Desk
  sort : SortOrder
  running : Bool
  screen : Screen

namespace Shell

/-- A shell that starts on a desk. -/
def start (desk : Desk) (screen : Screen := .plain) : Shell := ⟨desk, .none, true, screen⟩

/-- What comes of a command: what it says, or the fault, and the shell after it. -/
abbrev Answer : Type := Except Fault (List Output) × Shell

/-- The answer of a command that works on the desk. -/
def onDesk {α : Type} (s : Shell) (done : Except Fault α × Desk) (say : α → String) : Answer :=
  (done.1.map fun a => [.line (say a)], { s with desk := done.2 })

def fail (s : Shell) (e : InvalidInput) : Answer := (.error (.invalid e), s)

def list (s : Shell) (args : List Char) : Except Fault (List Output) := do
  let query := if args = [] then "all" else String.ofList args
  let found ← s.desk.select query s.sort
  if found = [] then
    return [.line s!"[yellow]No items match: {Markup.escape query}[/yellow]"]
  else return [.table (← Display.items query found)]

def add (s : Shell) (args : List Char) : Answer :=
  s.onDesk (s.desk.add (String.ofList args)) fun id =>
    s!"[green]Added {String.ofList id.print}[/green]"

def setStatus (s : Shell) (args : List Char) : Answer :=
  match splitFirst? args with
  | none => s.fail (.usage "status <status> <query>")
  | some (word, query) =>
    match Status.ofWord (Text.dropLeading '%' word) with
    | .error e => s.fail (.status e)
    | .ok a => s.onDesk (s.desk.setStatus (String.ofList query) a) fun ids =>
        s!"[green]Set {ids.length} item(s) to {a.name}[/green]"

def setTag (s : Shell) (args : List Char) (present : Bool) : Answer :=
  let (command, report) := if present then ("tag", "Tagged") else ("untag", "Untagged")
  match splitFirst? args with
  | none => s.fail (.usage s!"{command} <tag> <query>")
  | some (tag, query) =>
    let tag := String.ofList (Text.dropLeading '#' tag)
    s.onDesk (s.desk.setTag (String.ofList query) tag present) fun ids =>
      s!"[green]{report} {ids.length} item(s)[/green]"

def remove (s : Shell) (args : List Char) : Answer :=
  if args = [] then s.fail (.usage "rm <query>")
  else s.onDesk (s.desk.remove (String.ofList args)) fun ids =>
    s!"[green]Removed {ids.length} item(s)[/green]"

def describeSort (o : SortOrder) : String :=
  if o.keys = [] then "Sort: (list order)"
  else "Sort: " ++ ",".intercalate (o.keys.map SortKey.word)

/-- Shows the sort order, after it is set when keys are given. -/
def setSort (s : Shell) (args : List Char) : Answer :=
  if args = [] then (.ok [.line (describeSort s.sort)], s)
  else match SortOrder.read args with
    | .error e => s.fail e
    | .ok o => (.ok [.line (describeSort o)], { s with sort := o })

/-- Carries a command out. -/
def perform (s : Shell) (args : List Char) : Command → Answer
  | .list => (s.list args, s)
  | .add => s.add args
  | .status => s.setStatus args
  | .tag => s.setTag args true
  | .untag => s.setTag args false
  | .remove => s.remove args
  | .sort => s.setSort args
  | .help => (.ok (helpText.map .line), s)
  | .leave => (.ok [], { s with running := false })

/-- The line that reports a fault to the user; a fault that nothing foresees has none. -/
def report? (explain : Cause → String) (f : Fault) : Option String :=
  let text := Markup.escape (f.message explain)
  match f with
  | .invalid _ => some s!"[red]Invalid input:[/red] {text}"
  | .unforeseen c => if c.isBadValue then some s!"[red]Invalid input:[/red] {text}" else none
  | _ => some s!"[red]Error:[/red] {text}"

/-- Turns a fault into its report. -/
def reporting (explain : Cause → String) : Answer → Answer
  | (.ok out, s) => (.ok out, s)
  | (.error f, s) =>
    match report? explain f with
    | some text => (.ok [.line text], s)
    | none => (.error f, s)

/-- What there is to say has to be shown. -/
def showing : Answer → Answer
  | (.ok out, s) =>
    if out.all s.screen.shows then (.ok out, s) else (.error (.unforeseen .badMarkup), s)
  | (.error f, s) => (.error f, s)

/-- What a command line comes to before anything of it is shown. -/
def answer (explain : Cause → String) (s : Shell) (line : String) : Answer :=
  let (word, args) := splitLine line.toList
  if word = [] then (.ok [], s)
  else match Command.ofWord? word with
    | none =>
      let word := Markup.escape (String.ofList word)
      (.ok [.line s!"[red]Unknown command:[/red] {word}. Type 'help' for available commands."], s)
    | some c => reporting explain (s.perform args c)

/-- Executes a command line. -/
def execute (explain : Cause → String) (s : Shell) (line : String) : Answer :=
  showing (s.answer explain line)

/-! ### The dialogue -/

/-- What the shell gets when it asks for a line. -/
inductive Entry where
  | line (text : String)
  | interrupt
  deriving DecidableEq, Repr

/-- A line that is the interrupt character alone is an interrupt. -/
def Entry.ofLine (text : String) : Entry := if text = "\x03" then interrupt else line text

/-- How a dialogue went: what was shown, the fault that ended it early, and the shell after it. -/
structure Dialogue where
  output : List Output
  fault : Option Fault
  shell : Shell

/-- The dialogue with something shown before it. -/
def Dialogue.after (out : List Output) (d : Dialogue) : Dialogue :=
  { d with output := out ++ d.output }

def title : String := "[bold cyan]todoq shell[/bold cyan]"

def greeting (s : Shell) : List String :=
  [title,
    s!"List: {Markup.escape s.desk.list.name} ({s.desk.list.path})",
    "Type 'help' for available commands, 'exit' to quit.\n"]

def promptText (s : Shell) : String := s!"todoq:{s.desk.list.name} > "

/-- Asks for lines and executes them until one leaves the shell or there are no more. -/
def converse (explain : Cause → String) (s : Shell) (entries : List Entry) : Dialogue :=
  if s.running then
    let prompt := Output.prompt s.promptText
    match entries with
    | [] => ⟨[prompt], none, s⟩
    | .interrupt :: rest =>
      (converse explain s rest).after
        [prompt, .line "\nUse 'exit' or 'quit' to exit the shell."]
    | .line text :: rest =>
      match s.execute explain text with
      | (.ok out, s') => (converse explain s' rest).after (prompt :: out)
      | (.error f, s') => ⟨[prompt], some f, s'⟩
  else ⟨[], none, s⟩

/-- The whole dialogue, from the greeting on. It ends before the first line of the greeting that the
screen cannot show. -/
def run (explain : Cause → String) (s : Shell) (entries : List Entry) : Dialogue :=
  let greeting := s.greeting.map Output.line
  if greeting.all s.screen.shows then (converse explain s entries).after greeting
  else ⟨greeting.takeWhile s.screen.shows, some (.unforeseen .badMarkup), s⟩

end Shell

end TodoLists
