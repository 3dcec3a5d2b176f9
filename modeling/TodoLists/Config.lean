import TodoLists.Fault
import TodoLists.Json.Scalar

/-!
# Configuration

The registry of lists, each with the path of its file, the current list, and the options of the
command line. What this program registers are texts. A configuration file may hold other values,
which are kept as they stand; a registered name may be any scalar, and is found again under an equal
one.
-/

namespace TodoLists

structure Options where
  verbose : Json
  color : Json
  defaultSort : Json
  deriving BEq, Repr

def Options.default : Options := ⟨.bool false, .bool true, .str ""⟩

structure Config where
  /-- Names and paths in the order of registration. -/
  lists : List (Json × Json)
  /-- The name of the current list, null when there is none. -/
  current : Json
  options : Options
  deriving BEq, Repr

namespace Config

def default : Config := ⟨[], .null, .default⟩

/-- How a value appears inside a message. -/
def spell : Json → String
  | .bool true => "True"
  | .bool false => "False"
  | .null => "None"
  | .float .nan => "nan"
  | .float (.infinite false) => "inf"
  | .float (.infinite true) => "-inf"
  | v => v.keyText.shown

def pathOf? (c : Config) (name : Json) : Option Json :=
  (c.lists.find? fun l => l.1.sameKey name).map (·.2)

def isRegistered (c : Config) (name : String) : Bool := (c.pathOf? (.str name)).isSome

/-- The names that are texts of characters. -/
def names (c : Config) : List String := c.lists.filterMap fun l => l.1.string?

/-- Registers a list; the first one becomes the current one. -/
def addList (c : Config) (name : String) (path : Path) : Except Fault Config :=
  if c.isRegistered name then .error (.listExists name)
  else .ok { c with
    lists := c.lists ++ [(.str name, .str path.toText)]
    current := match c.current with | .null => .str name | v => v }

/-- The path that a name is registered with. -/
def findPath (c : Config) (name : Json) : Except Fault Path :=
  if name.isScalar then
    match c.pathOf? name with
    | none => .error (.noSuchList (spell name))
    | some (.str p) => .ok (.ofText p)
    | some _ => .error (.unforeseen .notAText)
  else .error (.unforeseen .notAScalar)

def listPath (c : Config) (name : String) : Except Fault Path := c.findPath (.str name)

/-- Forgets a list; its file stays. -/
def removeList (c : Config) (name : String) : Except Fault (Path × Config) := do
  let path ← c.listPath name
  return (path, { c with
    lists := c.lists.filter fun l => !l.1.sameKey (.str name)
    current := if c.current.sameKey (.str name) then .null else c.current })

/-- The name that is asked for, or else that of the current list. An empty name asks for nothing. -/
def wanted (c : Config) (name : Option String) : Json :=
  match name with
  | some n => if n = "" then c.current else .str n
  | none => c.current

/-- The list that a command works on and its path. -/
def resolve (c : Config) (name : Option String) : Except Fault (Json × Path) := do
  let n := c.wanted name
  if n.isTruthy then return (n, ← c.findPath n) else throw .noListSelected

end Config

end TodoLists
