import TodoLists.CommandLine.Command
import TodoLists.CommandLine.Items

/-!
# The command line

A run of the program reads its options and which command comes next, loads the configuration to set
itself up, reads the rest of the command and carries it out. The exit code is 0 when all went well
or help was asked for, 1 when a fault was reported or a path is one that no file can have, and 2
when the words make no command.
-/

namespace TodoLists

namespace CommandLine

open Console

def Refusal.code : Refusal → Nat
  | usage => 2
  | help => 0
  | badPath => 1

/-- The lines that report a fault. -/
def report (explain : Cause → String) (f : Fault) : List String :=
  let text := Markup.escape (f.message explain)
  let invalid := s!"[bold red]Error:[/bold red] Invalid input: {text}"
  match f with
  | .query _ => [s!"[bold red]Syntax error:[/bold red] {text}"]
  | .unsupported _ => [s!"[bold red]Not implemented:[/bold red] {text}"]
  | .noListSelected =>
    [s!"[bold red]Error:[/bold red] {text}",
      "[yellow]Tip: pass --list NAME or run 'todoq lists use NAME'[/yellow]"]
  | .listFile .. => [s!"[bold red]Error:[/bold red] {text}"]
  | .configFile .. => [s!"[bold red]Error:[/bold red] {text}"]
  | .invalid _ => [invalid]
  | .listExists _ => [invalid]
  | .noSuchList _ => [invalid]
  | .unforeseen c =>
    if c.isBadValue then [invalid] else [s!"[bold red]Unexpected error:[/bold red] {text}"]

/-- Sets the program up as the configuration and its own options say. -/
def setUp (e : Environment) (verbose : Bool) : Action Unit := do
  let config ← loadConfig e
  if !config.options.color.isTruthy then modify fun c => { c with colorOff := true }
  if verbose || config.options.verbose.isTruthy then
    say "[bold green]Verbose mode enabled.[/bold green]"

def perform (e : Environment) : Command → Action Unit
  | .add words list => addItem e words list
  | .list query sort list => listItems e query sort list
  | .status word query list => setStatus e word query list
  | .tag tag query remove list => setTag e tag query remove list
  | .remove query yes list => removeItems e query yes list
  | .shell list => openShell e list
  | .newList name path => newList e name path
  | .forgetList name yes => forgetList e name yes
  | .showLists => showLists e
  | .useList name => useList e name

/-- Runs an action. Gives the exit code, once a fault has been reported as far as the screen can show
it. -/
def conclude (explain : Cause → String) (a : Action Unit) (c : Console) : Nat × Console :=
  match a.run.run c with
  | (.ok (), c') => (0, c')
  | (.error f, c') =>
    let lines := (report explain f).map Output.line
    (1, { c' with shown := c'.shown ++ lines.takeWhile c'.screen.shows })

/-- Runs the program on the words of a command line. Gives the exit code. -/
def run (e : Environment) (words : List String) (c : Console) : Nat × Console :=
  match Invocation.read words with
  | .error r => (r.code, c)
  | .ok i =>
    let (code, c') := conclude e.explain (setUp e i.verbose) c
    if code ≠ 0 then (code, c')
    else match Command.read i.rest i.topic with
      | .error r => (r.code, c')
      | .ok command => conclude e.explain (perform e command) c'

end CommandLine

end TodoLists
