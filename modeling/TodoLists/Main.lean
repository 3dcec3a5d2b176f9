import TodoLists.CommandLine

/-!
# The program

A run is a function of the disk, of the command line and of the lines that have been typed. So the
program takes down what is on the disk at the places it may look at, runs, shows what came out and
carries the changes over to the disk. When it turns out that another line is asked for, it shows
what came out so far, reads the line and runs again from the start.
-/

namespace TodoLists.Main

def nameOf (place : List LooseText) : String := "/" ++ "/".intercalate (place.map (·.shown))

/-- The account in a line of the table of accounts, with its home folder. -/
def account? (line : List Char) : Option (String × Path) :=
  match Text.pieces ':' line with
  | name :: _ :: _ :: _ :: _ :: home :: _ =>
    some (String.ofList name, .ofString (String.ofList home))
  | _ => none

/-- The accounts of the system, none where it keeps no table of them. -/
def accounts : IO (List (String × Path)) := do
  try
    return (Text.lines (← IO.FS.readFile "/etc/passwd").toList).filterMap account?
  catch _ => return []

/-- What is at a place, if there is anything. -/
def look (place : List LooseText) : IO (Option Node) := do
  try
    return some (.file (← IO.FS.readBinFile (nameOf place)))
  catch _ =>
    try
      let _ ← IO.FS.Handle.mk (nameOf place) .read
      return some .folder
    catch _ => return none

/-- Takes down what is at a path and on the way to it. -/
def takeDown (d : Disk) (p : Path) : IO Disk := do
  let place := (p.resolve d.folder).parts
  let mut d := d
  for n in List.range place.length do
    match ← look (place.take (n + 1)) with
    | some node => d := d.put (place.take (n + 1)) node
    | none => pure ()
  return d

/-- The paths that a configuration registers. -/
def registered (e : Environment) (d : Disk) : List Path :=
  match Config.load e d with
  | .ok c => c.lists.filterMap fun l => l.2.text?.map Path.ofText
  | .error _ => []

/-- The part of the disk that a run may look at. -/
def takeDownAll (e : Environment) (folder : List LooseText) : IO Disk := do
  let mut d : Disk := ⟨folder, []⟩
  for p in [⟨.root, folder⟩, e.home / .ofString ".config"] do
    d ← takeDown d p
  d ← takeDown d (e.configPath d)
  for p in registered e d do
    d ← takeDown d p
  return d

/-- Carries the changes between two states over to the disk. -/
def carryOver (before after : Disk) : IO Unit := do
  for (place, node) in after.nodes do
    if before.node? place ≠ some node then
      match node with
      | .folder => IO.FS.createDirAll (nameOf place)
      | .file content => IO.FS.writeBinFile (nameOf place) content

def showOutput : Output → IO Unit
  | .line text => IO.println (Markup.plain text)
  | .table t => do
    IO.println t.title
    IO.println (" | ".intercalate t.columns)
    for row in t.rows do
      IO.println (" | ".intercalate (row.map Markup.plain))
  | .question text => IO.print s!"{text} [y/N]: "
  | .prompt text => IO.print text

/-- Runs on the lines typed so far, reading on while another line is asked for. -/
partial def converse (e : Environment) (words : List String) (disk : Disk) (supply : Supply)
    (typed : List String) (ended : Bool) (shown : Nat) (written : Disk) : IO Nat := do
  let (code, c) := CommandLine.run e words (.start disk supply typed (.styled .byName))
  match if ended then none else c.pause with
  | none => do
    (c.shown.drop shown).forM showOutput
    carryOver written c.disk
    return code
  | some (out, reached) => do
    (out.drop shown).forM showOutput
    (← IO.getStdout).flush
    carryOver written reached
    let line ← (← IO.getStdin).getLine
    let lines := (Text.lines line.toList).map String.ofList
    converse e words disk supply (typed ++ lines) lines.isEmpty out.length reached

/-- How many ids a run can draw before it falls back on counting. -/
def drawnIds : Nat := 1024

end TodoLists.Main

open TodoLists TodoLists.Main in
def main (words : List String) : IO UInt32 := do
  let home := Path.ofString ((← IO.getEnv "HOME").getD "/")
  let e : Environment := ⟨home, ← accounts, ← IO.getEnv "XDG_CONFIG_HOME", Cause.describe⟩
  let folder := (Path.ofString (← IO.currentDir).toString).parts
  let disk ← takeDownAll e folder
  let ids ← (List.range drawnIds).mapM fun _ => IO.rand 0 (Nat.pow 2 64 - 1)
  let code ← converse e words disk (.ofList (ids.map fun n : Nat => (n : Int))) [] false 0 disk
  return code.toUInt32
