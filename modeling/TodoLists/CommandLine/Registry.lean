import TodoLists.Config.File
import TodoLists.Console

/-!
# Commands on the registry of lists

Each command loads the configuration, and one that changes it writes it back before it reports that
it is done.
-/

namespace TodoLists.CommandLine

open Console

def loadConfig (e : Environment) : Action Config := do ofExcept (Config.load e (← get).disk)

def saveConfig (e : Environment) (c : Config) : Action Path := onDisk (c.save e)

/-- The path that a new list is asked to have, or else one in the folder for lists. -/
def newListPath (e : Environment) (d : Disk) (name : String) (path : Option Path) : Path :=
  path.getD (e.listsFolder d / .ofString (name ++ ".json"))

/-- The path from the root, with the home folder put in where one is asked for. -/
def fullPath (e : Environment) (d : Disk) (p : Path) : Except Cause Path :=
  match p.expandHome? e.home e.accounts with
  | none =>
    let account : Path := ⟨.here, p.parts.take 1⟩
    .error (if account.holdsNul then .file .holdsNul else .noHome)
  | some full => if full.holdsNul then .error (.file .holdsNul) else .ok (full.resolve d.folder)

/-- Registers a list under the full form of its path. -/
def newList (e : Environment) (name : String) (path : Option Path) : Action Unit := do
  let config ← loadConfig e
  let disk := (← get).disk
  let path := newListPath e disk name path
  let full ← ofExcept ((fullPath e disk path).mapError Fault.unforeseen)
  let config ← ofExcept (config.addList name full)
  let _ ← saveConfig e config
  say s!"[green]✓ Created list '{Markup.escape name}' at {path}[/green]"

def cancelled : String := "[red]Operation cancelled[/red]"

/-- Goes on with an action when it is agreed to. -/
def ifAgreed (agreed : Bool) (question : String) (act : Action Unit) : Action Unit := do
  let goOn ← if agreed then pure true else confirm question
  if goOn then act else say cancelled

def forgetList (e : Environment) (name : String) (yes : Bool) : Action Unit := do
  if !yes then say "[yellow]This forgets the list. Its file is kept on disk.[/yellow]"
  ifAgreed yes "Continue?" do
    let config ← loadConfig e
    let (path, config) ← ofExcept (config.removeList name)
    let _ ← saveConfig e config
    say s!"[green]✓ Removed list '{Markup.escape name}' (file kept at {path})[/green]"

/-- The row of a registered list, marked when it is the current one. -/
def listRow (c : Config) (name : LooseText) (path : Json) : Except Fault (List String) := do
  let path ← match path with
    | .null => Except.ok ""
    | v => Display.textOf v
  return [if c.current.sameKey (.str name) then "*" else "", Markup.escape name.shown, path]

/-- The registered lists in the order of their names, which have to be texts. -/
def listTable (c : Config) : Except Fault Table := do
  let lists ← c.lists.mapM fun l =>
    match l.1 with
    | .str name => .ok (name, l.2)
    | _ => .error (.unforeseen .notAText)
  let sorted := lists.mergeSort fun a b => (compare a.1 b.1).isLE
  return ⟨"Lists", ["", "Name", "Path"], ← sorted.mapM fun l => listRow c l.1 l.2⟩

def showLists (e : Environment) : Action Unit := do
  let config ← loadConfig e
  if config.lists = [] then
    say "[yellow]No lists yet. Create one with 'todoq lists new NAME'[/yellow]"
  else
    put (.table (← ofExcept (listTable config)))
    say s!"\n[dim]Config: {e.configPath (← get).disk}[/dim]"

def useList (e : Environment) (name : String) : Action Unit := do
  let config ← loadConfig e
  let (current, _) ← ofExcept (config.resolve (some name))
  let _ ← saveConfig e { config with current := current }
  say s!"[green]✓ Now using '{Markup.escape name}'[/green]"

end TodoLists.CommandLine
