import TodoLists.CommandLine.Registry
import TodoLists.Shell

/-!
# Commands on the items of a list

Each command opens the list that it is asked for, or else the current one.
-/

namespace TodoLists.CommandLine

open Console

/-- The desk with the list that is asked for, and the name of the list. -/
def openDesk (config : Config) (list : Option String) : Action (Json × Desk) := do
  let (name, path) ← ofExcept (config.resolve list)
  let c ← get
  let desk ← ofExcept (Desk.load (Config.spell name) path c.disk c.supply)
  return (name, desk)

def openList (e : Environment) (list : Option String) : Action (Json × Desk) := do
  openDesk (← loadConfig e) list

def addItem (e : Environment) (words : List String) (list : Option String) : Action Unit := do
  let (name, desk) ← openList e list
  let id ← commit (desk.add (" ".intercalate words))
  let name ← ofExcept (Display.textOf name)
  say s!"[green]✓ Added {String.ofList id.print} to '{Markup.escape name}'[/green]"

def noMatch (query : String) : String := s!"[yellow]No items match: {Markup.escape query}[/yellow]"

/-- The sort order that is asked for, or else the one of the configuration. -/
def wantedSort (config : Config) (sort : Option String) : Except Fault SortOrder :=
  match (sort.map fun s => .str s).getD config.options.defaultSort with
  | .str keys => (SortOrder.read keys.shown.toList).mapError Fault.invalid
  | _ => .error (.unforeseen .notSortKeys)

def listItems (e : Environment) (query : String) (sort list : Option String) : Action Unit := do
  let config ← loadConfig e
  let (_, desk) ← openDesk config list
  let order ← ofExcept (wantedSort config sort)
  let found ← ofExcept (desk.select query order)
  if found = [] then say (noMatch query)
  else
    put (.table (← ofExcept (Display.items s!"{desk.list.name}: {query}" found)))
    say s!"\n[dim]Showing {found.length} of {desk.items.length} items[/dim]"

def setStatus (e : Environment) (word query : String) (list : Option String) : Action Unit := do
  let target ← ofExcept <|
    (Status.ofWord (Text.dropLeading '%' word.toList)).mapError fun e => .invalid (.status e)
  let (_, desk) ← openList e list
  let ids ← commit (desk.setStatus query target)
  say s!"[green]✓ Set {ids.length} item(s) to {target.name}[/green]"

def setTag (e : Environment) (tag query : String) (remove : Bool) (list : Option String) :
    Action Unit := do
  let tag := String.ofList (Text.dropLeading '#' tag.toList)
  let (_, desk) ← openList e list
  let ids ← commit (desk.setTag query tag !remove)
  let report := if remove then "Removed" else "Added"
  say s!"[green]✓ {report} #{Markup.escape tag} on {ids.length} item(s)[/green]"

/-- Shows the items that a query finds and, when that is agreed to, removes them. -/
def removeItems (e : Environment) (query : String) (yes : Bool) (list : Option String) :
    Action Unit := do
  let (_, desk) ← openList e list
  let ids ← ofExcept (desk.matchingIds query)
  if ids = [] then say (noMatch query)
  else
    put (.table (← ofExcept (Display.items "To be removed" (desk.items.lookUp ids))))
    ifAgreed yes s!"Remove {ids.length} item(s)?" do
      let removed ← commit (desk.remove query)
      say s!"[green]✓ Removed {removed.length} item(s)[/green]"

/-- Takes all of the input for a dialogue with the shell. -/
def openShell (e : Environment) (list : Option String) : Action Unit := do
  let (name, desk) ← openList e list
  if name.text? = none then
    say Shell.title
    throw (.unforeseen .notAText)
  let c ← get
  let dialogue := (Shell.start desk c.screen).run e.explain (c.input.map Shell.Entry.ofLine)
  append dialogue.output
  commit (.ok (), dialogue.shell.desk)
  match dialogue.fault with
  | some f => throw f
  | none => if dialogue.shell.running then noteEnd

end TodoLists.CommandLine
