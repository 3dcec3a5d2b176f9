import TodoLists.Config
import TodoLists.ListFile

/-!
# The configuration file

The configuration is kept as `config.json` in a folder of its own. The folder is the one that the
environment names, or else `.config` in the home folder when that exists, or else a hidden folder in
the home folder. A file that does not exist means the default configuration.
-/

namespace TodoLists

/-- What the surroundings of the program say. -/
structure Environment where
  home : Path
  /-- The home folders of the accounts, by name. -/
  accounts : List (String × Path)
  /-- The folder for configurations, when one is named. -/
  configHome : Option String
  /-- The wording of underlying causes. -/
  explain : Cause → String

namespace Environment

def configFolder (e : Environment) (d : Disk) : Path :=
  match e.configHome with
  | some x => if x = "" then standard else .ofString x / .ofString "todoq"
  | none => standard
where
  standard :=
    let shared := e.home / .ofString ".config"
    if (d.at? shared).isSome then shared / .ofString "todoq" else e.home / .ofString ".todoq"

def configPath (e : Environment) (d : Disk) : Path := e.configFolder d / .ofString "config.json"

/-- The folder of the files of lists that are registered without a path. -/
def listsFolder (e : Environment) (d : Disk) : Path := e.configFolder d / .ofString "lists"

end Environment

/-! ### Writing -/

def Options.toJson (o : Options) : Json :=
  .obj [("verbose", o.verbose), ("color", o.color), ("default_sort", o.defaultSort)]

def Config.toJson (c : Config) : Json :=
  .obj [("lists", .obj (c.lists.map fun l => (l.1.keyText, l.2))), ("current", c.current),
    ("cli", c.options.toJson)]

/-! ### Reading -/

/-- Sets one option. -/
def Options.set (o : Options) (name : LooseText) (v : Json) : Except Cause Options :=
  if name = .ofString "verbose" then .ok { o with verbose := v }
  else if name = .ofString "color" then .ok { o with color := v }
  else if name = .ofString "default_sort" then .ok { o with defaultSort := v }
  else .error (.unknownOption name.shown)

/-- The options that a member of the file gives, the others being the default ones. -/
def Options.ofJson : Json → Except Cause Options
  | .obj ms => ms.foldlM (fun o m => o.set m.1 m.2) .default
  | _ => .error .notOptions

namespace Config

/-- A pair of a name and a path, given by anything that has two elements. -/
def readPair (v : Json) : Except Cause (Json × Json) :=
  match ListFile.elements? v with
  | none => .error .notPairs
  | some [name, path] => if name.isScalar then .ok (name, path) else .error .notAScalar
  | some _ => .error .notAPair

/-- The pairs with the path of a name replaced, or added at the end. -/
def putPair (name path : Json) : List (Json × Json) → List (Json × Json)
  | [] => [(name, path)]
  | l :: ls => if l.1.sameKey name then (l.1, path) :: ls else l :: putPair name path ls

/-- The registry, given by an object or by a list of pairs. -/
def readLists (v : Json) : Except Cause (List (Json × Json)) := do
  let pairs ← match v with
    | .obj ms => Except.ok (ms.map fun m => (Json.str m.1, m.2))
    | v =>
      match ListFile.elements? v with
      | some es => es.mapM readPair
      | none => .error .notPairs
  return pairs.foldl (fun ls p => putPair p.1 p.2 ls) []

def ofJson : Json → Except Cause Config
  | .obj ms => do
    let lists ← readLists ((Json.member? "lists" ms).getD (.obj []))
    let options ← Options.ofJson ((Json.member? "cli" ms).getD (.obj []))
    return ⟨lists, (Json.member? "current" ms).getD .null, options⟩
  | _ => .error .notAnObject

def decode (content : ByteArray) : Except Cause Config :=
  match String.fromUTF8? content with
  | none => .error .notUtf8
  | some text => do ofJson (← ListFile.parse text)

/-- How a cause found in the configuration file is reported. -/
def loadFault (p : Path) (c : Cause) : Fault :=
  if c.isBadValue then .unforeseen c
  else match c with
    | .notJson => .configFile p .unreadable c
    | c => .configFile p .malformed c

/-- The configuration in a file. -/
def loadFrom (d : Disk) (p : Path) : Except Fault Config :=
  match d.has p with
  | .error e => .error (.unforeseen (.file e))
  | .ok false => .ok .default
  | .ok true =>
    match d.read p with
    | .error e => .error (.configFile p .unreadable (.file e))
    | .ok content => (decode content).mapError (loadFault p)

def load (e : Environment) (d : Disk) : Except Fault Config := loadFrom d (e.configPath d)

/-- How it is reported that the configuration could not be written. -/
def saveFault (p : Path) (e : FileError) : Fault :=
  if e.isBadPath then .unforeseen (.file e) else .configFile p .unwritable (.file e)

/-- Writes the configuration to a file, making the folders on the way. -/
def saveTo (c : Config) (d : Disk) (p : Path) : Except Fault Unit × Disk :=
  match d.ensureFolders p.parent with
  | (.error e, d₁) => (.error (saveFault p e), d₁)
  | (.ok _, d₁) =>
    match d₁.write p c.toJson.write.toUTF8 with
    | .error e => (.error (saveFault p e), d₁)
    | .ok d₂ => (ListFile.written c.toJson, d₂)

/-- Writes the configuration to its file, and gives the path of it. -/
def save (c : Config) (e : Environment) (d : Disk) : Except Fault Path × Disk :=
  let p := e.configPath d
  let (r, d') := c.saveTo d p
  (r.map fun _ => p, d')

end Config

end TodoLists
