import TodoLists.Fault
import TodoLists.ItemList
import TodoLists.Json.Reader
import TodoLists.Json.Writer

/-!
# List files

A list is kept in a JSON file: an object whose member `items` holds one object for each item, with
the members `id`, `name`, `description`, `status` and `tags`. Reading is lenient. Everything but the
id and the name may be left out, an id may be given as any number or numeral, and whatever can be
gone through element by element serves as the items or the tags. A file that does not exist is an
empty list.
-/

namespace TodoLists.ListFile

/-! ### Writing -/

/-- The members of an item, unless its tags have no order. -/
def ofItem? (e : ItemId × Item) : Option Json := do
  let tags ← e.2.tags.inOrder?
  return .obj [("id", .int e.1.value), ("name", e.2.name), ("description", e.2.description),
    ("status", .str e.2.status.name), ("tags", .arr tags)]

def ofList? (l : ItemList) : Option Json := do
  let items ← l.entries.mapM ofItem?
  return .obj [("items", .arr items)]

/-- The text of the file, unless the tags of some item have no order or some id has no numeral. -/
def print? (l : ItemList) : Option String := do
  let v ← ofList? l
  if v.isWritable then some v.write else none

/-- What comes of writing a value: a number with too long a numeral cuts it off. -/
def written (v : Json) : Except Fault Unit :=
  if v.isWritable then .ok () else .error (.unforeseen .numeralTooLong)

/-- How it is reported that a list could not be written. -/
def saveFault (p : Path) (e : FileError) : Fault :=
  if e.isBadPath then .unforeseen (.file e) else .listFile p .unwritable (.file e)

/-- Writes a list to a file, making the folders on the way. The file is opened, and so emptied,
before its text is made. -/
def save (d : Disk) (p : Path) (l : ItemList) : Except Fault Unit × Disk :=
  match d.ensureFolders p.parent with
  | (.error e, d₁) => (.error (saveFault p e), d₁)
  | (.ok _, d₁) =>
    match d₁.write p ByteArray.empty with
    | .error e => (.error (saveFault p e), d₁)
    | .ok d₂ =>
      match ofList? l with
      | none => (.error (.unforeseen .unordered), d₂)
      | some v =>
        match d₂.write p v.write.toUTF8 with
        | .error e => (.error (saveFault p e), d₂)
        | .ok d₃ => (written v, d₃)

/-! ### Reading -/

/-- The elements of a list, the member names of an object, or the characters of a text. -/
def elements? : Json → Option (List Json)
  | .arr es => some es
  | .obj ms => some (ms.map fun m => .str m.1)
  | .str s => some (s.points.map fun n => .str ⟨[n]⟩)
  | _ => none

/-- The elements, or else the cause. -/
def elements (v : Json) : Except Cause (List Json) :=
  match elements? v with
  | some es => .ok es
  | none => .error .notAList

def readId : Json → Except Cause ItemId
  | .int n => .ok ⟨n⟩
  | .bool b => .ok ⟨if b then 1 else 0⟩
  | .str s =>
    match s.toString? >>= fun s => Text.readInt? s.toList with
    | some n => .ok ⟨n⟩
    | none => .error .notAnId
  | .float x =>
    match x with
    | .infinite _ => .error .infiniteId
    | x =>
      match x.truncate? with
      | some n => .ok ⟨n⟩
      | none => .error .notAnId
  | _ => .error .notAnId

def readStatus : Json → Except Cause Status
  | .str s =>
    match s.toString? >>= Status.ofName? with
    | some a => .ok a
    | none => .error .unknownStatus
  | _ => .error .unknownStatus

def readTags (v : Json) : Except Cause Tags := do
  let es ← elements v
  if es.all Json.isScalar then return .ofScalars es else throw .notAScalar

/-- The member of a name, or else the cause. -/
def member (name : String) (ms : List (LooseText × Json)) : Except Cause Json :=
  match Json.member? name ms with
  | some v => .ok v
  | none => .error (.noMember name)

def readEntry : Json → Except Cause (ItemId × Item)
  | .obj ms => do
    let id ← readId (← member "id" ms)
    let name ← member "name" ms
    let status ← readStatus ((Json.member? "status" ms).getD (.str Status.default.name))
    let tags ← readTags ((Json.member? "tags" ms).getD (.arr []))
    return (id, ⟨name, (Json.member? "description" ms).getD (.str ""), status, tags⟩)
  | _ => .error .notAnEntry

def readList : Json → Except Cause ItemList
  | .obj ms => do
    let es ← elements ((Json.member? "items" ms).getD (.arr []))
    return ⟨← es.mapM readEntry⟩
  | _ => .error .notAnObject

/-- The value in the text of a file. -/
def parse (text : String) : Except Cause Json :=
  match Json.read text with
  | .ok v => .ok v
  | .error .malformed => .error .notJson
  | .error .numeralTooLong => .error .numeralTooLong

/-- The list in the bytes of a file. -/
def decode (content : ByteArray) : Except Cause ItemList :=
  match String.fromUTF8? content with
  | none => .error .notUtf8
  | some text => do readList (← parse text)

/-- How a cause found in a list file is reported. -/
def loadFault (p : Path) (c : Cause) : Fault :=
  match c with
  | .notAnObject => .unforeseen c
  | .infiniteId => .unforeseen c
  | .notJson => .listFile p .unreadable c
  | c => .listFile p .malformed c

def load (d : Disk) (p : Path) : Except Fault ItemList :=
  match d.has p with
  | .error e => .error (.unforeseen (.file e))
  | .ok false => .ok .empty
  | .ok true =>
    match d.read p with
    | .error e => .error (.listFile p .unreadable (.file e))
    | .ok content => (decode content).mapError (loadFault p)

end TodoLists.ListFile
