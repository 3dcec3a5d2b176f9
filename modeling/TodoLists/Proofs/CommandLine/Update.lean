import TodoLists.CommandLine.Command
import TodoLists.Desk

/-!
# Updates

The shell and the command line can both add an item, set a status, set or take away a tag, and
remove items. The shell takes such an update as one line. The command line takes it as words, with
options behind the arguments. There a word that begins with a dash is an option, so arguments with a
dash have to stand behind the options and after `--`.
-/

namespace TodoLists

namespace CommandLine

/-! ### Reading words one after another -/

namespace Given

/-- What is given by some words and by the words after them. -/
def append (g g' : Given) : Given := ⟨g.options ++ g'.options, g.arguments ++ g'.arguments⟩

end Given

variable {forms : List OptionForm} {ws ws' : List String} {g g' : Given} {o : OptionForm}

/-- Whatever words follow, these come to the given options and arguments. -/
def Reads (forms : List OptionForm) (ws : List String) (g : Given) : Prop :=
  ∀ rest, Given.read? forms true (ws ++ rest) = (Given.read? forms true rest).map g.append

theorem Reads.nil : Reads forms [] ⟨[], []⟩ := by
  intro rest
  have hid : Given.append ⟨[], []⟩ = id := rfl
  rw [hid, Option.map_id, id, List.nil_append]

theorem Reads.append (h : Reads forms ws g) (h' : Reads forms ws' g') :
    Reads forms (ws ++ ws') (g.append g') := by
  intro rest
  have hcomp : g.append ∘ g'.append = (g.append g').append := by
    funext g''
    simp only [Function.comp_apply, Given.append, List.append_assoc]
  rw [List.append_assoc, h, h', Option.map_map, hcomp]

/-- Words that stand for themselves. -/
theorem reads_arguments {args : List String} (h : ∀ a ∈ args, isOption a.toList = false) :
    Reads forms args ⟨[], args⟩ := by
  induction args with
  | nil => exact .nil
  | cons a args ih =>
    obtain ⟨ha, hargs⟩ := List.forall_mem_cons.1 h
    have hfirst : Reads forms [a] ⟨[], [a]⟩ := by
      intro rest
      have hdashes : a ≠ "--" := by
        rintro rfl
        exact absurd ha (by decide)
      rw [List.singleton_append, Given.read?, if_neg hdashes, if_neg (by simp [ha]), if_pos rfl]
      cases Given.read? forms true rest <;> rfl
    exact hfirst.append (ih hargs)

/-- The words after two dashes are arguments. -/
theorem Reads.read?_dashes (h : Reads forms ws g) (args : List String) :
    Given.read? forms true (ws ++ "--" :: args) = some (g.append ⟨[], args⟩) := by
  rw [h, Given.read?, if_pos rfl]
  rfl

theorem Reads.read? (h : Reads forms ws g) : Given.read? forms true ws = some g := by
  have hend := h []
  rwa [List.append_nil, Given.read?, Option.map_some, Given.append, List.append_nil,
    List.append_nil] at hend

namespace OptionForm

/-- The option written in full. -/
def word (o : OptionForm) : String := "--" ++ o.long

/-- Written in full, the option is known for what it is. -/
structure IsKnown (forms : List OptionForm) (o : OptionForm) : Prop where
  long : o.long ≠ ""
  plain : '=' ∉ o.word.toList
  find : forms.find? (·.isLong o.word.toList) = some o

theorem toList_word (o : OptionForm) : o.word.toList = '-' :: '-' :: o.long.toList := by
  rw [word, String.toList_append]
  rfl

end OptionForm

theorem readOption?_word (h : o.IsKnown forms) (rest : List String) :
    readOption? forms o.word.toList rest = readLong? o none rest := by
  rw [readOption?, Text.cut_of_not_mem h.plain]
  simp only [h.find]

theorem read?_word (h : o.IsKnown forms) {rest : List String} {n : Nat}
    {options : List (OptionForm × String)} (hread : readLong? o none rest = some (options, n)) :
    Given.read? forms true (o.word :: rest) =
      (Given.read? forms true (rest.drop n)).map (Given.append ⟨options, []⟩) := by
  have hdashes : o.word ≠ "--" := by
    intro hword
    have hlong := congrArg String.toList hword
    rw [o.toList_word] at hlong
    exact h.long (String.toList_eq_nil_iff.1 (List.cons.inj (List.cons.inj hlong).2).2)
  have hoption : isOption o.word.toList = true := by
    rw [o.toList_word]
    rfl
  rw [Given.read?, if_neg hdashes, if_pos hoption, readOption?_word h, hread]
  cases hrest : Given.read? forms true (rest.drop n) with
  | none => simp [hrest]
  | some g => simp [hrest, Given.append]

theorem reads_flag (h : o.IsKnown forms) (htakes : o.takesValue = false) :
    Reads forms [o.word] ⟨[(o, "")], []⟩ := by
  intro rest
  have hread : readLong? o none rest = some ([(o, "")], 0) := by simp [readLong?, htakes]
  rw [List.singleton_append, read?_word h hread, List.drop_zero]

theorem reads_value (h : o.IsKnown forms) (htakes : o.takesValue = true) (v : String) :
    Reads forms [o.word, v] ⟨[(o, v)], []⟩ := by
  intro rest
  have hread : readLong? o none (v :: rest) = some ([(o, v)], 1) := by
    simp [readLong?, htakes, takeNext?]
  rw [List.cons_append, List.singleton_append, read?_word h hread, List.drop_one, List.tail_cons]

theorem reads_flags {os : List OptionForm}
    (h : ∀ o ∈ os, o.IsKnown forms ∧ o.takesValue = false) :
    Reads forms (os.map OptionForm.word) ⟨os.map fun o => (o, ""), []⟩ := by
  induction os with
  | nil => exact .nil
  | cons o os ih =>
    obtain ⟨⟨hknown, htakes⟩, hos⟩ := List.forall_mem_cons.1 h
    exact (reads_flag hknown htakes).append (ih hos)

end CommandLine

/-! ### Updates -/

/-- A text that is one word. -/
structure Word where
  text : String
  ne_nil : text.toList ≠ []
  plain : ∀ c ∈ text.toList, Text.isBlank c = false

/-- A text that is not blank. -/
structure Phrase where
  text : String
  notBlank : Text.allBlank text.toList = false

/-- A change of a list that both front ends can make. -/
inductive Update where
  | add (text : String)
  | setStatus (word : Word) (query : Phrase)
  | setTag (tag : Word) (query : Phrase) (present : Bool)
  | remove (query : Phrase)

namespace Update

open CommandLine

/-- What comes of an update on a desk. -/
def apply (d : Desk) : Update → Except Fault Unit × Desk
  | add text => ((d.add text).1.map fun _ => (), (d.add text).2)
  | setStatus word query =>
    match Status.ofWord (Text.dropLeading '%' word.text.toList) with
    | .error e => (.error (.invalid (.status e)), d)
    | .ok s => ((d.setStatus query.text s).1.map fun _ => (), (d.setStatus query.text s).2)
  | setTag tag query present =>
    let tag := String.ofList (Text.dropLeading '#' tag.text.toList)
    ((d.setTag query.text tag present).1.map fun _ => (), (d.setTag query.text tag present).2)
  | remove query => ((d.remove query.text).1.map fun _ => (), (d.remove query.text).2)

/-! ### Lines and words -/

/-- What the command is called at the command line. -/
def verb : Update → String
  | add _ => "add"
  | setStatus .. => "status"
  | setTag .. => "tag"
  | remove _ => "rm"

/-- What the command is called in the shell. -/
def shellVerb : Update → String
  | setTag _ _ false => "untag"
  | u => u.verb

def arguments : Update → List String
  | add text => [text]
  | setStatus word query => [word.text, query.text]
  | setTag tag query _ => [tag.text, query.text]
  | remove query => [query.text]

/-- The update as a line of the shell. -/
def line (u : Update) : String := " ".intercalate (u.shellVerb :: u.arguments)

/-- The options without values that come with the update: a tag is taken away with `--remove`, and
items are removed with `--yes`. -/
def flags : Update → List OptionForm
  | add _ => []
  | setStatus .. => []
  | setTag _ _ present => if present then [] else [removeOption]
  | remove _ => [yesOption]

/-- The words that ask for a list, if one is asked for. -/
def listWords : Option String → List String
  | none => []
  | some name => [listOption.word, name]

def optionWords (u : Update) (list : Option String) : List String :=
  u.flags.map OptionForm.word ++ listWords list

/-- The words of an update with the options behind the arguments. -/
def plainWords (u : Update) (list : Option String) : List String :=
  u.verb :: (u.arguments ++ u.optionWords list)

/-- The ways to type an update: with the options behind the arguments, unless one of these begins
with a dash, or with the arguments behind the options and two dashes. -/
inductive IsTyped (u : Update) (list : Option String) : List String → Prop where
  | plain (h : ∀ a ∈ u.arguments, isOption a.toList = false) :
    IsTyped u list (u.plainWords list)
  | apart : IsTyped u list (u.verb :: (u.optionWords list ++ "--" :: u.arguments))

/-! ### Reading the words -/

def topic : Update → Topic
  | add _ => .add
  | setStatus .. => .status
  | setTag .. => .tag
  | remove _ => .remove

/-- The command that the words make. -/
def command (u : Update) (list : Option String) : Command :=
  match u with
  | add text => .add [text] list
  | setStatus word query => .status word.text query.text list
  | setTag tag query present => .tag tag.text query.text (!present) list
  | remove query => .remove query.text true list

/-- The options that the command understands. -/
def forms : Update → List OptionForm
  | add _ => [listOption]
  | setStatus .. => [listOption]
  | setTag .. => [removeOption, listOption]
  | remove _ => [listOption, yesOption]

/-- The options that are given. -/
def given (u : Update) (list : Option String) : List (OptionForm × String) :=
  u.flags.map (fun o => (o, "")) ++ (list.map fun name => (listOption, name)).toList

theorem isKnown_listOption (u : Update) : listOption.IsKnown (helpOption :: u.forms) := by
  cases u <;> (rw [forms]; exact ⟨by decide, by decide, by decide⟩)

theorem isKnown_of_mem_flags (u : Update) :
    ∀ o ∈ u.flags, o.IsKnown (helpOption :: u.forms) ∧ o.takesValue = false := by
  cases u with
  | add | setStatus => exact List.forall_mem_nil _
  | setTag tag query present =>
    cases present with
    | true => exact List.forall_mem_nil _
    | false =>
      rw [forms]
      exact List.forall_mem_singleton.2 ⟨⟨by decide, by decide, by decide⟩, rfl⟩
  | remove =>
    rw [forms]
    exact List.forall_mem_singleton.2 ⟨⟨by decide, by decide, by decide⟩, rfl⟩

theorem reads_optionWords (u : Update) (list : Option String) :
    Reads (helpOption :: u.forms) (u.optionWords list) ⟨u.given list, []⟩ := by
  have hflags := reads_flags u.isKnown_of_mem_flags
  cases list with
  | none => exact hflags.append .nil
  | some name => exact hflags.append (reads_value u.isKnown_listOption rfl name)

variable {u : Update} {list : Option String} {words : List String}

/-- However the update is typed, the same options and arguments are read. -/
theorem IsTyped.exists_read? (h : u.IsTyped list words) : ∃ rest, words = u.verb :: rest ∧
    Given.read? (helpOption :: u.forms) true rest = some ⟨u.given list, u.arguments⟩ := by
  cases h with
  | plain h =>
    refine ⟨_, rfl, ?_⟩
    rw [((reads_arguments h).append (u.reads_optionWords list)).read?, Given.append,
      List.append_nil]
    rfl
  | apart =>
    refine ⟨_, rfl, ?_⟩
    rw [(u.reads_optionWords list).read?_dashes, Given.append, List.append_nil]
    rfl

theorem read_verb (u : Update) (rest : List String) :
    Invocation.read (u.verb :: rest) = .ok ⟨false, u.topic, rest⟩ := by
  cases u <;> (rw [verb, Invocation.read, readGroup, readGiven, Given.read?]; rfl)

theorem read_command {rest : List String}
    (h : Given.read? (helpOption :: u.forms) true rest = some ⟨u.given list, u.arguments⟩) :
    Command.read rest u.topic = .ok (u.command list) := by
  cases u with
  | add | setStatus | remove =>
    rw [topic, Command.read, readCommand, readGiven]
    simp only [forms] at h
    rw [h]
    cases list <;> rfl
  | setTag tag query present =>
    rw [topic, Command.read, readCommand, readGiven]
    simp only [forms] at h
    rw [h]
    cases list <;> cases present <;> rfl

/-- However the update is typed, its command is read. -/
theorem IsTyped.read (h : u.IsTyped list words) : ∃ i, Invocation.read words = .ok i ∧
    Command.read i.rest i.topic = .ok (u.command list) := by
  obtain ⟨rest, rfl, hrest⟩ := h.exists_read?
  exact ⟨_, u.read_verb rest, read_command hrest⟩

end Update

end TodoLists
