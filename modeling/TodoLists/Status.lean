import TodoLists.Text.Blank
import TodoLists.Text.Lowercase

/-!
# Status

The lifecycle of an item, in order, and the rule that resolves an abbreviated status word: the
longest leading part of the word that begins some status name has to begin exactly one of them, and
whatever follows that part is ignored.
-/

namespace TodoLists

inductive Status where
  | waiting
  | queuing
  | working
  | completed
  deriving DecidableEq, Repr

namespace Status

def all : List Status := [waiting, queuing, working, completed]

theorem mem_all (s : Status) : s ∈ all := by cases s <;> decide

/-- A new item waits. -/
def default : Status := waiting

def rank : Status → Nat
  | waiting => 0
  | queuing => 1
  | working => 2
  | completed => 3

theorem rank_inj {a b : Status} : a.rank = b.rank ↔ a = b := by
  cases a <;> cases b <;> decide

instance : LE Status := ⟨fun a b => a.rank ≤ b.rank⟩
instance : LT Status := ⟨fun a b => a.rank < b.rank⟩
instance : DecidableLE Status := fun a b => inferInstanceAs (Decidable (a.rank ≤ b.rank))
instance : DecidableLT Status := fun a b => inferInstanceAs (Decidable (a.rank < b.rank))

def name : Status → String
  | waiting => "Waiting"
  | queuing => "Queuing"
  | working => "Working"
  | completed => "Completed"

/-- The name as it is completed in queries. -/
def lowerName : Status → List Char
  | waiting => "waiting".toList
  | queuing => "queuing".toList
  | working => "working".toList
  | completed => "completed".toList

/-- The status with exactly this name. -/
def ofName? (s : String) : Option Status := all.find? fun a => a.name == s

theorem ofName?_name (a : Status) : ofName? a.name = some a := by cases a <;> decide

/-- Why a word stands for no status. The words are the cleaned ones. -/
inductive WordError where
  | empty
  | unknown (word : List Char)
  | ambiguous (word : List Char) (candidates : List Status)
  deriving DecidableEq, Repr

def WordError.message : WordError → String
  | empty => "empty status name"
  | unknown w => s!"unknown status '{String.ofList w}'"
  | ambiguous w ss =>
    let names := ", ".intercalate (ss.map Status.name)
    s!"ambiguous status '{String.ofList w}' (could be {names})"

end Status

/-- How many leading characters two texts share. -/
def Text.sharedLength : List Char → List Char → Nat
  | a :: as, b :: bs => if a = b then sharedLength as bs + 1 else 0
  | _, _ => 0

namespace Status

/-- The statuses whose lower-case names share the longest leading part with the word. -/
def closest (word : List Char) : List Status :=
  let best := (all.map fun s => Text.sharedLength word s.lowerName).foldl max 0
  all.filter fun s => Text.sharedLength word s.lowerName = best

/-- Resolves a cleaned word. -/
def ofCleanWord (word : List Char) : Except WordError Status :=
  if word = [] then .error .empty
  else if all.all fun s => Text.sharedLength word s.lowerName = 0 then .error (.unknown word)
  else match closest word with
    | [s] => .ok s
    | ss => .error (.ambiguous word ss)

/-- Resolves a possibly abbreviated word, ignoring case and blanks around it. -/
def ofWord (word : List Char) : Except WordError Status :=
  ofCleanWord (Text.lowercase (Text.strip word))

end Status

end TodoLists
