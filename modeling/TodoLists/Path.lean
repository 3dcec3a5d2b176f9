import TodoLists.LooseText

/-!
# Paths

A path is where it starts and the names on the way. Writing a path down and reading it again drops
doubled slashes, names that are a single dot, and a final slash; `..` stays, because only the file
tree can say what it leads to. Two slashes at the start are kept apart from one.
-/

namespace TodoLists

inductive Path.Start where
  | here
  | root
  | doubleRoot
  deriving DecidableEq, Repr

structure Path where
  start : Path.Start
  parts : List LooseText
  deriving DecidableEq, Repr

namespace Path

/-- The code point of the slash. -/
def slash : Nat := 0x2f

def startOf (points : List Nat) : Start :=
  match (points.takeWhile (· == slash)).length with
  | 0 => .here
  | 2 => .doubleRoot
  | _ => .root

def ofText (t : LooseText) : Path where
  start := startOf t.points
  parts := ((t.points.splitOnP (· == slash)).map LooseText.mk).filter fun p =>
    p != .ofString "" && p != .ofString "."

def ofString (s : String) : Path := ofText s

def toText (p : Path) : LooseText :=
  let names := List.intercalate [slash] (p.parts.map (·.points))
  match p.start with
  | .here => if p.parts.isEmpty then "." else ⟨names⟩
  | .root => ⟨slash :: names⟩
  | .doubleRoot => ⟨slash :: slash :: names⟩

instance : ToString Path := ⟨fun p => p.toText.shown⟩

/-- The second path taken from the first; one that starts at the root stands on its own. -/
def join (p q : Path) : Path :=
  match q.start with
  | .here => { p with parts := p.parts ++ q.parts }
  | _ => q

instance : Div Path := ⟨join⟩

def parent (p : Path) : Path := { p with parts := p.parts.dropLast }

/-- The name that leads back up. -/
def up : LooseText := ".."

/-- Names with `..` carried out: it takes the name before it away. -/
def collapse (parts : List LooseText) : List LooseText :=
  parts.foldl (fun done part => if part = up then done.dropLast else done ++ [part]) []

/-- The names from the root on, for a path taken from a folder. -/
def partsFrom (folder : List LooseText) (p : Path) : List LooseText :=
  match p.start with
  | .here => folder ++ p.parts
  | _ => p.parts

/-- The path from the root without any `..`. -/
def resolve (folder : List LooseText) (p : Path) : Path := ⟨.root, collapse (p.partsFrom folder)⟩

/-- Replaces a leading `~` by the home folder, and a leading `~name` by that of an account. -/
def expandHome? (p : Path) (home : Path) (accounts : List (String × Path)) : Option Path :=
  match p.start, p.parts with
  | .here, ⟨0x7e :: name⟩ :: rest =>
    let folder := if name = [] then some home
      else (accounts.find? fun a => LooseText.ofString a.1 == ⟨name⟩).map (·.2)
    folder.map fun h => { h with parts := h.parts ++ rest }
  | _, _ => some p

end Path

end TodoLists
