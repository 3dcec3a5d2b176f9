import TodoLists.Binary64
import TodoLists.LooseText

/-!
# JSON values

The values of list and configuration files. Their texts may hold lone surrogates. An object keeps
its members in the order in which their names first appear; a name that is given again replaces the
value and keeps the place.
-/

namespace TodoLists

inductive Json where
  | null
  | bool (b : Bool)
  | int (n : Int)
  | float (x : Binary64)
  | str (s : LooseText)
  | arr (elements : List Json)
  | obj (members : List (LooseText × Json))
  deriving BEq, Repr, Inhabited

namespace Json

/-- The members with the value of `name` replaced, or added at the end. -/
def putMember (name : LooseText) (value : Json) :
    List (LooseText × Json) → List (LooseText × Json)
  | [] => [(name, value)]
  | (n, v) :: rest =>
    if n = name then (n, value) :: rest else (n, v) :: putMember name value rest

/-- The object whose members are given in order, later ones replacing earlier ones. -/
def ofMembers (members : List (LooseText × Json)) : Json :=
  obj (members.foldl (fun ms m => putMember m.1 m.2 ms) [])

def member? (name : String) (members : List (LooseText × Json)) : Option Json :=
  (members.find? fun m => m.1 == .ofString name).map (·.2)

def text? : Json → Option LooseText
  | str s => some s
  | _ => none

/-- The text as characters. -/
def string? (v : Json) : Option String := v.text? >>= LooseText.toString?

/-- Null, false, zero and whatever is empty count as false. -/
def isTruthy : Json → Bool
  | null => false
  | bool b => b
  | int n => n != 0
  | float x => !x.isZero
  | str s => !s.isEmpty
  | arr es => !es.isEmpty
  | obj ms => !ms.isEmpty

theorem putMember_of_not_mem {name : LooseText} {value : Json} {ms : List (LooseText × Json)}
    (h : name ∉ ms.map (·.1)) : putMember name value ms = ms ++ [(name, value)] := by
  induction ms with
  | nil => rfl
  | cons m ms ih =>
    simp only [List.map_cons, List.mem_cons, not_or] at h
    simp [putMember, Ne.symm h.1, ih h.2]

end Json

end TodoLists
