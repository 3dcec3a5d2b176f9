import TodoLists.Disk
import TodoLists.Query.SyntaxError
import TodoLists.InvalidInput
import TodoLists.Unsupported

/-!
# Faults

Everything that can go wrong with a step. Most faults have their own wording. Where files are
involved the wording ends with the underlying cause, which is worded by whoever shows the fault; a
cause that no rule foresees is a fault by itself.
-/

namespace TodoLists

/-- What is wrong underneath. -/
inductive Cause where
  | file (e : FileError)
  | notUtf8
  | notJson
  | numeralTooLong
  | notAnObject
  | notAnEntry
  | notAList
  | noMember (name : String)
  | notAnId
  | infiniteId
  | unknownStatus
  | notAScalar
  | notPairs
  | notAPair
  | notOptions
  | unknownOption (name : String)
  | notAText
  | notSortKeys
  | unordered
  | noHome
  | inputEnded
  | badMarkup
  deriving DecidableEq, Repr

/-- What a file could not be used for. -/
inductive FileTrouble where
  | unreadable
  | malformed
  | unwritable
  deriving DecidableEq, Repr

inductive Fault where
  | query (e : Query.SyntaxError)
  | unsupported (u : Unsupported)
  | invalid (e : InvalidInput)
  | listFile (path : Path) (trouble : FileTrouble) (cause : Cause)
  | configFile (path : Path) (trouble : FileTrouble) (cause : Cause)
  | listExists (name : String)
  | noSuchList (name : String)
  | noListSelected
  | unforeseen (cause : Cause)
  deriving DecidableEq, Repr

namespace Cause

def describe : Cause → String
  | file .missing => "no such file or folder"
  | file .notFolder => "not a folder"
  | file .isFolder => "is a folder"
  | file .alreadyThere => "already exists"
  | file .nameTooLong => "the name is too long"
  | file .holdsNul => "a path cannot hold the character U+0000"
  | file .notEncodable => "a path cannot hold a lone surrogate"
  | notUtf8 => "not UTF-8"
  | notJson => "not JSON"
  | numeralTooLong => "a number has too many digits"
  | notAnObject => "not an object"
  | notAnEntry => "an item is not an object"
  | notAList => "neither a list, an object nor a text"
  | noMember name => s!"{name} is missing"
  | notAnId => "an id is not a number"
  | infiniteId => "an id is infinite"
  | unknownStatus => "a status is unknown"
  | notAScalar => "a list or object where a single value belongs"
  | notPairs => "not a collection of pairs"
  | notAPair => "an element is not a pair"
  | notOptions => "the options are not an object"
  | unknownOption name => s!"unknown option {name}"
  | notAText => "not a text"
  | notSortKeys => "the sort keys are not a text"
  | unordered => "values of different kinds have no order"
  | noHome => "the home folder is not known"
  | inputEnded => "the input ended"
  | badMarkup => "a closing tag has no tag to close"

/-- The cause lies in a single value, so a front end reports it as invalid input. -/
def isBadValue : Cause → Bool
  | notUtf8 => true
  | numeralTooLong => true
  | notAPair => true
  | file e => e.isBadPath
  | _ => false

end Cause

namespace Fault

/-- The message of a fault, with the wording of causes given. -/
def message (explain : Cause → String) : Fault → String
  | query e => e.message
  | unsupported u => u.message
  | invalid e => e.message
  | listFile p .unreadable c => s!"failed to load list from {p}: {explain c}"
  | listFile p .malformed c => s!"malformed list file {p}: {explain c}"
  | listFile p .unwritable c => s!"failed to save list to {p}: {explain c}"
  | configFile p .unreadable c => s!"failed to load config from {p}: {explain c}"
  | configFile p .malformed c => s!"malformed config in {p}: {explain c}"
  | configFile p .unwritable c => s!"failed to save config to {p}: {explain c}"
  | listExists name => s!"a list named {name} already exists"
  | noSuchList name => s!"no list named {name} exists"
  | noListSelected => "no list was selected"
  | unforeseen c => explain c

end Fault

end TodoLists
