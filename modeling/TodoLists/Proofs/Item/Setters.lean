import TodoLists.Item.Draft
import TodoLists.Proofs.Item.Tags

/-!
# Setting the fields of an item

An item is changed field by field. What a setter does is said without regard to how it is done: one
field has the new value and the others are as they were, and of the tags only the one that is named
can come or go. So when much was set on an item, each field has what it was given last, and what was
never set is as the description had it.
-/

namespace TodoLists

/-! ### New items -/

theorem TextSet.mem_foldl_insert {ts : List String} {s : TextSet} {t : String} :
    t ∈ ts.foldl (fun s t => s.insert t) s ↔ t ∈ s ∨ t ∈ ts := by
  induction ts generalizing s with
  | nil => simp
  | cons u ts ih => simp [ih, or_left_comm, or_assoc]

theorem Draft.hasTag_toItem {d : Draft} {t : String} :
    d.toItem.hasTag t = true ↔ t ∈ d.tags := by
  rw [Item.hasTag, Tags.has, decide_eq_true_iff]
  exact TextSet.mem_foldl_insert.trans (by simp)

/-! ### Setters -/

/-- A change of one field of an item. -/
inductive Setter where
  | name (n : String)
  | description (d : String)
  | status (s : Status)
  | tag (t : String) (present : Bool)
  deriving DecidableEq, Repr

namespace Setter

def apply (i : Item) : Setter → Item
  | name n => i.setName n
  | description d => i.setDescription d
  | status s => i.setStatus s
  | tag t present => i.setTag t present

/-- The second item is what the setter makes of the first. -/
def Makes (i j : Item) : Setter → Prop
  | name n =>
    j.name = .str n ∧ j.description = i.description ∧ j.status = i.status ∧ j.tags = i.tags
  | description d =>
    j.name = i.name ∧ j.description = .str d ∧ j.status = i.status ∧ j.tags = i.tags
  | status s =>
    j.name = i.name ∧ j.description = i.description ∧ j.status = s ∧ j.tags = i.tags
  | tag t present =>
    j.name = i.name ∧ j.description = i.description ∧ j.status = i.status ∧
      j.tags.others = i.tags.others ∧ ∀ u, j.hasTag u = if u = t then present else i.hasTag u

theorem makes_apply (i : Item) (setter : Setter) : setter.Makes i (setter.apply i) := by
  cases setter with
  | name | description | status => exact ⟨rfl, rfl, rfl, rfl⟩
  | tag t present => exact ⟨rfl, rfl, rfl, rfl, fun u => Tags.has_set i.tags t u present⟩

/-! ### What was set last -/

def name? : Setter → Option String
  | name n => some n
  | _ => none

def description? : Setter → Option String
  | description d => some d
  | _ => none

def status? : Setter → Option Status
  | status s => some s
  | _ => none

/-- Whether the setter gives the tag or takes it away, if it does one of the two. -/
def tag? (t : String) : Setter → Option Bool
  | tag u present => if t = u then some present else none
  | _ => none

/-- What a field was given last, or else what it had at first. -/
def latest {α : Type} (field : Setter → Option α) (set : List Setter) (first : α) : α :=
  (set.filterMap field).getLastD first

theorem latest_concat {α : Type} (field : Setter → Option α) (set : List Setter) (setter : Setter)
    (first : α) :
    latest field (set ++ [setter]) first = (field setter).getD (latest field set first) := by
  rw [latest, List.filterMap_append]
  cases hfield : field setter with
  | none =>
    rw [List.filterMap_cons_none hfield, List.filterMap_nil, List.append_nil]
    rfl
  | some v =>
    rw [List.filterMap_cons_some hfield, List.filterMap_nil, List.getLastD_concat]
    rfl

end Setter

open Setter

/-- The item was made as described, and then each field was set as the setters say in order. -/
structure IsAsSet (d : Draft) (set : List Setter) (i : Item) : Prop where
  name : i.name = .str (.ofString (latest name? set d.name))
  description : i.description = .str (.ofString (latest description? set d.description))
  status : i.status = latest status? set d.status
  tags : ∀ t, i.hasTag t = latest (tag? t) set (d.tags.contains t)
  others : i.tags.others = []

theorem isAsSet_toItem (d : Draft) : IsAsSet d [] d.toItem where
  name := rfl
  description := rfl
  status := rfl
  tags t := by
    rw [Bool.eq_iff_iff, Draft.hasTag_toItem]
    exact List.contains_iff_mem.symm
  others := rfl

variable {d : Draft} {set : List Setter} {i j : Item}

theorem IsAsSet.concat (h : IsAsSet d set i) {setter : Setter} (hmakes : setter.Makes i j) :
    IsAsSet d (set ++ [setter]) j where
  name := by
    rw [latest_concat]
    cases setter with
    | name n => exact hmakes.1
    | description | status | tag => exact hmakes.1.trans h.name
  description := by
    rw [latest_concat]
    cases setter with
    | description d => exact hmakes.2.1
    | name | status | tag => exact hmakes.2.1.trans h.description
  status := by
    rw [latest_concat]
    cases setter with
    | status s => exact hmakes.2.2.1
    | name | description | tag => exact hmakes.2.2.1.trans h.status
  tags t := by
    rw [latest_concat, ← h.tags]
    cases setter with
    | tag u present =>
      rw [hmakes.2.2.2.2, tag?]
      split <;> rfl
    | name | description | status => exact congrArg (Tags.has · t) hmakes.2.2.2
  others := by
    cases setter with
    | tag => exact hmakes.2.2.2.1.trans h.others
    | name | description | status => exact (congrArg Tags.others hmakes.2.2.2).trans h.others

/-- What was set settles the item. -/
theorem IsAsSet.unique (hi : IsAsSet d set i) (hj : IsAsSet d set j) : i = j := by
  have htags : i.tags = j.tags := by
    have htexts : i.tags.texts = j.tags.texts := TextSet.ext fun t => by
      have hhas : i.hasTag t = j.hasTag t := (hi.tags t).trans (hj.tags t).symm
      simpa [Item.hasTag, Tags.has] using hhas
    exact Tags.Same.eq_of_others ⟨htexts, by rw [hi.others, hj.others]⟩ hi.others
  obtain ⟨name, description, status, tags⟩ := i
  obtain ⟨name', description', status', tags'⟩ := j
  rw [Item.mk.injEq]
  exact ⟨hi.name.trans hj.name.symm, hi.description.trans hj.description.symm,
    hi.status.trans hj.status.symm, htags⟩

/-- What the setters make of a new item one after the other. -/
theorem isAsSet_foldl (d : Draft) (set : List Setter) :
    IsAsSet d set (set.foldl Setter.apply d.toItem) := by
  induction set using List.reverseRecOn with
  | nil => exact isAsSet_toItem d
  | append_singleton set setter ih =>
    rw [List.foldl_concat]
    exact ih.concat (makes_apply _ setter)

theorem isAsSet_iff : IsAsSet d set i ↔ i = set.foldl Setter.apply d.toItem := by
  constructor
  · exact fun h => h.unique (isAsSet_foldl d set)
  · rintro rfl
    exact isAsSet_foldl d set

end TodoLists
