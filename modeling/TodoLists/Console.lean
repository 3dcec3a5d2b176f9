import TodoLists.Desk
import TodoLists.Screen

/-!
# The console

What a run of the program reads and changes: the disk, the supply of ids and the lines that were
typed, the screen and what it has shown so far. An action gives a result or ends with a fault, as it
does when the screen cannot show something; what it has shown and written up to then stays.
-/

namespace TodoLists

structure Console where
  disk : Disk
  supply : Supply
  /-- The lines that were typed and have not been read yet. -/
  input : List String
  screen : Screen
  /-- In the order in which it was shown. -/
  shown : List Output
  colorOff : Bool
  /-- What had been shown, and the disk, when the first line was asked for that was not typed. -/
  pause : Option (List Output × Disk)

/-- A console on which nothing has been shown yet. -/
def Console.start (disk : Disk) (supply : Supply) (input : List String)
    (screen : Screen := .plain) : Console :=
  ⟨disk, supply, input, screen, [], false, none⟩

abbrev Action (α : Type) : Type := ExceptT Fault (StateM Console) α

namespace Console

/-- What was shown elsewhere is shown here too. -/
def append (out : List Output) : Action Unit := modify fun c => { c with shown := c.shown ++ out }

def put (o : Output) : Action Unit := do
  if (← get).screen.shows o then append [o] else throw (.unforeseen .badMarkup)

def say (text : String) : Action Unit := put (.line text)

/-- A change of the disk. -/
def onDisk {α : Type} (change : Disk → Except Fault α × Disk) : Action α := do
  let done := change (← get).disk
  modify fun c => { c with disk := done.2 }
  ofExcept done.1

/-- What was done on a desk takes effect. -/
def commit {α : Type} (done : Except Fault α × Desk) : Action α := do
  modify fun c => { c with disk := done.2.disk, supply := done.2.supply }
  ofExcept done.1

/-- Notes that a line was asked for that has not been typed. -/
def noteEnd : Action Unit :=
  modify fun c => { c with pause := c.pause <|> some (c.shown, c.disk) }

/-- The answer that a line gives to a yes-or-no question; an empty one is a no. -/
def answer? (line : String) : Option Bool :=
  let word := String.ofList (Text.strip (Text.lowercase line.toList))
  if word = "y" ∨ word = "yes" then some true
  else if word = "n" ∨ word = "no" ∨ word = "" then some false
  else none

/-- The first answer among some lines, and the lines after it. -/
def firstAnswer : List String → Option Bool × List String
  | [] => (none, [])
  | line :: rest =>
    match answer? line with
    | some b => (some b, rest)
    | none => firstAnswer rest

/-- Asks a yes-or-no question until it is answered. -/
def confirm (question : String) : Action Bool := do
  put (.question question)
  let (answer, rest) := firstAnswer (← get).input
  modify fun c => { c with input := rest }
  match answer with
  | some b => return b
  | none => do
    noteEnd
    throw (.unforeseen .inputEnded)

end Console

end TodoLists
