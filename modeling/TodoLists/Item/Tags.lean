import TodoLists.Json.Order

/-!
# Tags

The tags of an item are a set of texts, kept in code point order without repetition, so two sets
with the same members are equal. A list file may hold other tags: texts with lone surrogates, and
scalars that are no texts. They are kept beside the texts, each once. Only tags of one kind can be
put in order: texts, or numbers, or a single tag.
-/

namespace TodoLists

/-- A finite set of texts. -/
structure TextSet where
  toList : List String
  sorted : toList.Pairwise (· < ·)
  deriving DecidableEq, Repr

namespace TextSet

def insertSorted (t : String) : List String → List String
  | [] => [t]
  | x :: xs => if t < x then t :: x :: xs else if t = x then x :: xs else x :: insertSorted t xs

theorem mem_insertSorted {t u : String} {l : List String} :
    u ∈ insertSorted t l ↔ u = t ∨ u ∈ l := by
  induction l with
  | nil => simp [insertSorted]
  | cons x xs ih =>
    simp only [insertSorted]
    split
    · simp
    · split
      · next h => subst h; simp
      · simp only [List.mem_cons, ih]
        constructor
        · rintro (h | h | h) <;> simp [h]
        · rintro (h | h | h) <;> simp [h]

theorem pairwise_insertSorted {t : String} {l : List String} (h : l.Pairwise (· < ·)) :
    (insertSorted t l).Pairwise (· < ·) := by
  induction l with
  | nil => simp [insertSorted]
  | cons x xs ih =>
    simp only [insertSorted]
    rw [List.pairwise_cons] at h
    split
    · next htx =>
      refine List.pairwise_cons.2 ⟨fun y hy => ?_, List.pairwise_cons.2 h⟩
      rcases List.mem_cons.1 hy with rfl | hy
      · exact htx
      · exact String.lt_trans htx (h.1 y hy)
    · split
      · exact List.pairwise_cons.2 h
      · next htx hne =>
        refine List.pairwise_cons.2 ⟨fun y hy => ?_, ih h.2⟩
        rcases mem_insertSorted.1 hy with rfl | hy
        · exact Std.lt_of_le_of_ne (String.not_lt.1 htx) (Ne.symm hne)
        · exact h.1 y hy

def empty : TextSet := ⟨[], List.Pairwise.nil⟩

def insert (t : String) (s : TextSet) : TextSet :=
  ⟨insertSorted t s.toList, pairwise_insertSorted s.sorted⟩

def erase (t : String) (s : TextSet) : TextSet :=
  ⟨s.toList.filter (· != t), s.sorted.sublist List.filter_sublist⟩

def ofList (ts : List String) : TextSet := ts.foldl (fun s t => s.insert t) empty

instance : Membership String TextSet := ⟨fun s t => t ∈ s.toList⟩

instance (t : String) (s : TextSet) : Decidable (t ∈ s) :=
  inferInstanceAs (Decidable (t ∈ s.toList))

theorem mem_def {t : String} {s : TextSet} : t ∈ s ↔ t ∈ s.toList := Iff.rfl

@[simp] theorem not_mem_empty {t : String} : t ∉ empty := by simp [mem_def, empty]

@[simp] theorem mem_insert {t u : String} {s : TextSet} : u ∈ s.insert t ↔ u = t ∨ u ∈ s :=
  mem_insertSorted

@[simp] theorem mem_erase {t u : String} {s : TextSet} : u ∈ s.erase t ↔ u ∈ s ∧ u ≠ t := by
  simp [mem_def, erase]

end TextSet

structure Tags where
  texts : TextSet
  /-- Scalars that are no such texts, in the order in which they were first met. -/
  others : List Json

namespace Tags

def empty : Tags := ⟨.empty, []⟩

def ofTexts (ts : List String) : Tags := ⟨.ofList ts, []⟩

/-- The same tags, in whatever order the others were met. -/
def same (a b : Tags) : Bool :=
  a.texts == b.texts && a.others.length == b.others.length &&
    a.others.all fun v => b.others.any (·.sameKey v)

instance : BEq Tags := ⟨same⟩

/-- Adds a scalar; of scalars that are one key the first stays. -/
def add (tags : Tags) (v : Json) : Tags :=
  match v.string? with
  | some t => { tags with texts := tags.texts.insert t }
  | none =>
    if tags.others.any (·.sameKey v) then tags else { tags with others := tags.others ++ [v] }

def ofScalars (vs : List Json) : Tags := vs.foldl add empty

def has (tags : Tags) (t : String) : Bool := t ∈ tags.texts

def set (tags : Tags) (t : String) (present : Bool) : Tags :=
  { tags with texts := if present then tags.texts.insert t else tags.texts.erase t }

def textValues (tags : Tags) : List Json := tags.texts.toList.map fun (t : String) => .str t

/-- The tags in order, if they can be put in order. -/
def inOrder? (tags : Tags) : Option (List Json) :=
  match tags.others with
  | [] => some tags.textValues
  | vs => Json.sort? (tags.textValues ++ vs)

theorem inOrder?_of_texts {tags : Tags} (h : tags.others = []) :
    tags.inOrder? = some tags.textValues := by simp [inOrder?, h]

theorem has_set (tags : Tags) (t u : String) (present : Bool) :
    (tags.set t present).has u = if u = t then present else tags.has u := by
  cases present <;> by_cases h : u = t <;> simp [set, has, h]

end Tags

end TodoLists
