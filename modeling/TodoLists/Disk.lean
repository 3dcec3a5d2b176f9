import TodoLists.Disk.Name

/-!
# Files and folders

A disk is a folder to start from and everything that exists, each thing under the names that lead to
it from the root. A path is followed name by name: every name but the last has to be a folder, and
`..` leads back up.
-/

namespace TodoLists

inductive Node where
  | folder
  | file (content : ByteArray)

/-- Files are equal when their bytes are. -/
instance : DecidableEq Node
  | .folder, .folder => isTrue rfl
  | .folder, .file _ => isFalse nofun
  | .file _, .folder => isFalse nofun
  | .file a, .file b =>
    if h : a.data = b.data then isTrue (congrArg Node.file (ByteArray.ext h))
    else isFalse fun e => h (by injection e with e; rw [e])

structure Disk where
  /-- The folder that paths without a root start from. -/
  folder : List LooseText
  nodes : List (List LooseText × Node)

namespace Disk

def node? (d : Disk) (place : List LooseText) : Option Node :=
  if place = [] then some .folder else (d.nodes.find? fun n => n.1 == place).map (·.2)

/-- What is at one place is replaced, or added after everything else. -/
def put (d : Disk) (place : List LooseText) (node : Node) : Disk :=
  { d with nodes :=
      if d.nodes.any fun n => n.1 == place then
        d.nodes.map fun n => if n.1 == place then (place, node) else n
      else d.nodes ++ [(place, node)] }

/-- Follows names from a place. -/
def walk (d : Disk) (here : List LooseText) : List LooseText → Except FileError (List LooseText)
  | [] => .ok here
  | part :: rest =>
    match d.node? here with
    | some .folder =>
      if DiskName.maxNameSize < DiskName.size part then .error .nameTooLong
      else d.walk (if part = Path.up then here.dropLast else here ++ [part]) rest
    | some (.file _) => .error .notFolder
    | none => .error .missing

def locate (d : Disk) (p : Path) : Except FileError (List LooseText) := do
  p.check
  d.walk [] ((p.partsFrom d.folder).map DiskName.normalize)

def at? (d : Disk) (p : Path) : Option Node :=
  match d.locate p with
  | .ok place => d.node? place
  | .error _ => none

/-- Whether something is there, be it a file or a folder. Nothing is where no path leads to; only
what has too long a name cannot be asked for. -/
def has (d : Disk) (p : Path) : Except FileError Bool :=
  match d.locate p with
  | .ok place => .ok (d.node? place).isSome
  | .error .nameTooLong => .error .nameTooLong
  | .error _ => .ok false

def hasFolder (d : Disk) (p : Path) : Bool :=
  match d.at? p with
  | some .folder => true
  | _ => false

def read (d : Disk) (p : Path) : Except FileError ByteArray := do
  match d.node? (← d.locate p) with
  | some (.file content) => return content
  | some .folder => throw .isFolder
  | none => throw .missing

/-- Writes a file, in place of an older one or as a new one in an existing folder. -/
def write (d : Disk) (p : Path) (content : ByteArray) : Except FileError Disk := do
  let place ← d.locate p
  match d.node? place with
  | some .folder => throw .isFolder
  | _ => return d.put place (.file content)

def makeFolder (d : Disk) (p : Path) : Except FileError Disk := do
  let place ← d.locate p
  match d.node? place with
  | some _ => throw .alreadyThere
  | none => return d.put place .folder

/-- Makes a folder unless it is there. -/
def ensureFolder (d : Disk) (p : Path) : Except FileError Disk :=
  match d.makeFolder p with
  | .ok d' => .ok d'
  | .error e => if d.hasFolder p then .ok d else .error e

/-- Makes a folder and those on the way to it, unless they are there. Folders that were made before
something went wrong stay. -/
def ensureFolders (d : Disk) (p : Path) : Except FileError Unit × Disk :=
  match d.makeFolder p with
  | .ok d' => (.ok (), d')
  | .error .missing =>
    if _ : p.parts = [] then (.error .missing, d)
    else
      match d.ensureFolders p.parent with
      | (.error e, d') => (.error e, d')
      | (.ok _, d') =>
        match d'.ensureFolder p with
        | .ok d'' => (.ok (), d'')
        | .error e => (.error e, d')
  | .error e => (if d.hasFolder p then .ok () else .error e, d)
termination_by p.parts.length
decreasing_by
  simp only [Path.parent, List.length_dropLast]
  have := List.length_pos_iff.2 ‹¬p.parts = []›
  omega

end Disk

end TodoLists
