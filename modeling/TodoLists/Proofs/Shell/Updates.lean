import TodoLists.Proofs.CommandLine.Update
import TodoLists.Proofs.Desk.Blanks
import TodoLists.Proofs.Shell.Dialogue

/-!
# Updates in the shell

The shell cuts the arguments of an update out of one line and strips them, which changes no item and
no query. So a line leaves the desk as the update leaves it, and the answer is a complaint when the
update fails.
-/

namespace TodoLists

/-! ### Cutting the line -/

theorem Phrase.strip_ne_nil (query : Phrase) : Text.strip query.text.toList ≠ [] := by
  rw [Ne, Text.strip_eq_nil_iff, query.notBlank]
  exact Bool.false_ne_true

namespace Shell

variable {s : Shell} {w : List Char} {v : String} {c : Command}

theorem splitLine_word (hne : w ≠ []) (hw : ∀ c ∈ w, Text.isBlank c = false) (args : List Char) :
    splitLine (w ++ ' ' :: args) = (w, Text.strip args) := by
  obtain ⟨rest, hcut, hrest⟩ := Text.cut_strip hne hw args
  rw [splitLine, hcut]
  simp only [hrest]

theorem splitFirst?_word (word : Word) (query : Phrase) :
    splitFirst? (Text.strip (" ".intercalate [word.text, query.text]).toList) =
      some (word.text.toList, Text.strip query.text.toList) := by
  obtain ⟨rest, hcut, hrest⟩ := Text.cut_strip word.ne_nil word.plain query.text.toList
  have hchars : (" ".intercalate [word.text, query.text]).toList =
      word.text.toList ++ ' ' :: query.text.toList := by
    simp
  rw [hchars, splitFirst?, hcut]
  simp only [hrest]
  rw [if_neg (not_or.2 ⟨word.ne_nil, query.strip_ne_nil⟩)]

/-- The command of the line that makes an update. -/
def commandOf : Update → Command
  | .add _ => .add
  | .setStatus .. => .status
  | .setTag _ _ present => if present then .tag else .untag
  | .remove _ => .remove

theorem mem_words (u : Update) : (u.shellVerb, commandOf u) ∈ Command.words := by
  cases u with
  | add | setStatus | remove => simp [Update.shellVerb, Update.verb, commandOf, Command.words]
  | setTag tag query present =>
    cases present <;> simp [Update.shellVerb, Update.verb, commandOf, Command.words]

theorem ofWord?_of_mem (h : (v, c) ∈ Command.words) :
    Command.ofWord? v.toList = some c := by
  have hwords : ∀ w ∈ Command.words, Command.ofWord? w.1.toList = some w.2 := by decide
  exact hwords _ h

theorem isWord_of_mem (h : (v, c) ∈ Command.words) :
    v.toList ≠ [] ∧ ∀ c ∈ v.toList, Text.isBlank c = false := by
  have hwords : ∀ w ∈ Command.words,
      w.1.toList ≠ [] ∧ ∀ c ∈ w.1.toList, Text.isBlank c = false := by
    simp [Command.words, Text.isBlank]
  exact hwords _ h

theorem toList_line (u : Update) :
    u.line.toList = u.shellVerb.toList ++ ' ' :: (" ".intercalate u.arguments).toList := by
  cases u <;> simp [Update.line, Update.arguments]

theorem line_eq (u : Update) : firstWord u.line = u.shellVerb.toList ∧
    arguments u.line = Text.strip (" ".intercalate u.arguments).toList := by
  obtain ⟨hne, hplain⟩ := isWord_of_mem (mem_words u)
  have hsplit := splitLine_eq u.line
  rw [toList_line, splitLine_word hne hplain] at hsplit
  exact ⟨(Prod.mk.inj hsplit).1.symm, (Prod.mk.inj hsplit).2.symm⟩

/-! ### What the command comes to -/

/-- The answer leaves the desk of the outcome, and one is a fault when the other is. -/
def Matches {α : Type} (r : Answer) (outcome : Except Fault α × Desk) : Prop :=
  Desk.Agree (r.1, r.2.desk) outcome

theorem matches_onDesk {α β : Type} {done : Except Fault α × Desk} {say : α → String}
    {outcome : Except Fault β × Desk} (h : Desk.Agree done outcome) :
    Matches (s.onDesk done say) outcome :=
  (Desk.Agree.map _ done).trans h

theorem agree_change_strip (d : Desk) (query : Phrase) (f : ItemList → List ItemId → ItemList) :
    Desk.Agree (d.change (String.ofList (Text.strip query.text.toList)) f)
      ((d.change query.text f).1.map fun _ => (), (d.change query.text f).2) := by
  have hstrip := d.change_strip query.text.toList f
  rw [String.ofList_toList] at hstrip
  exact hstrip.trans (Desk.Agree.map _ _).symm

theorem matches_setStatus (s : Shell) (word : Word) (query : Phrase) :
    Matches (s.setStatus (Text.strip (" ".intercalate [word.text, query.text]).toList))
      ((Update.setStatus word query).apply s.desk) := by
  rw [setStatus, splitFirst?_word, Update.apply]
  simp only
  cases Status.ofWord (Text.dropLeading '%' word.text.toList) with
  | error e => exact .of_errors _ _ _
  | ok a => exact matches_onDesk (agree_change_strip _ _ _)

theorem matches_setTag (s : Shell) (tag : Word) (query : Phrase) (present : Bool) :
    Matches (s.setTag (Text.strip (" ".intercalate [tag.text, query.text]).toList) present)
      ((Update.setTag tag query present).apply s.desk) := by
  rw [setTag, splitFirst?_word, Update.apply]
  exact matches_onDesk (agree_change_strip _ _ _)

theorem matches_remove (s : Shell) (query : Phrase) :
    Matches (s.remove (Text.strip query.text.toList)) ((Update.remove query).apply s.desk) := by
  rw [remove, if_neg query.strip_ne_nil, Update.apply]
  exact matches_onDesk (agree_change_strip _ _ _)

theorem matches_add (s : Shell) (text : String) :
    Matches (s.add (Text.strip text.toList)) ((Update.add text).apply s.desk) := by
  rw [add, Desk.add_strip, String.ofList_toList, Update.apply]
  exact matches_onDesk (Desk.Agree.map _ _).symm

theorem matches_perform (s : Shell) (u : Update) :
    Matches (s.perform (arguments u.line) (commandOf u)) (u.apply s.desk) := by
  rw [(line_eq u).2]
  cases u with
  | add text => exact matches_add s text
  | setStatus word query => exact matches_setStatus s word query
  | setTag tag query present =>
    cases present with
    | true => exact matches_setTag s tag query true
    | false => exact matches_setTag s tag query false
  | remove query => exact matches_remove s query

/-! ### Complaints -/

/-- The line that reports a fault is a complaint. -/
theorem isComplaint_of_report {explain : Cause → String} {f : Fault} {text : String}
    (h : report? explain f = some text) : (Output.line text).IsComplaint := by
  have herror : ∀ rest, (Output.line ("[red]Error:[/red] " ++ rest)).IsComplaint :=
    fun rest => ⟨_, by decide, rest, rfl⟩
  have hinvalid : ∀ rest, (Output.line ("[red]Invalid input:[/red] " ++ rest)).IsComplaint :=
    fun rest => ⟨_, by decide, rest, rfl⟩
  cases f with
  | invalid e =>
    cases h
    exact hinvalid _
  | unforeseen c =>
    rw [report?] at h
    split at h
    · cases h
      exact hinvalid _
    · cases h
  | _ =>
    cases h
    exact herror _

/-- A report complains of a fault and of nothing else. -/
theorem exists_complaint_iff (explain : Cause → String) {r : Answer}
    (hreportable : ∀ f, r.1 = .error f → f.IsReportable)
    (hquiet : ∀ out, r.1 = .ok out → Quiet out) :
    ∃ out, reporting explain r = (.ok out, r.2) ∧
      ((∃ o ∈ out, o.IsComplaint) ↔ ∃ f, r.1 = .error f) := by
  obtain ⟨f | out, s'⟩ := r
  · obtain ⟨text, htext⟩ := exists_report explain (hreportable f rfl)
    refine ⟨[.line text], by rw [reporting, htext], fun _ => ⟨f, rfl⟩, fun _ => ?_⟩
    exact ⟨_, List.mem_singleton_self _, isComplaint_of_report htext⟩
  · refine ⟨out, rfl, ?_, ?_⟩
    · rintro ⟨o, ho, hcomplaint⟩
      exact absurd hcomplaint (hquiet out rfl o ho)
    · rintro ⟨f, hf⟩
      cases hf

/-- In the shell an update does what it does on the desk. -/
theorem execute_update (hloose : s.desk.items.HasLooseTexts) (explain : Cause → String)
    (u : Update) :
    ∃ out s', s.execute explain u.line = (.ok out, s') ∧ s'.desk = (u.apply s.desk).2 ∧
      ((∃ o ∈ out, o.IsComplaint) ↔ ∃ f, (u.apply s.desk).1 = .error f) := by
  have hc : Command.ofWord? (firstWord u.line) = some (commandOf u) := by
    rw [(line_eq u).1]
    exact ofWord?_of_mem (mem_words u)
  have hmatches := matches_perform s u
  have houtcome := isOutcome_loose hloose hc
  obtain ⟨out, hout, hcomplaint⟩ := exists_complaint_iff explain
    (fun f hf => houtcome.isReportable hf) fun out hok => houtcome.quiet hok
  refine ⟨out, _, by rw [execute_of_command hc, hout], hmatches.desk, ?_⟩
  rw [hcomplaint]
  exact hmatches.fails

end Shell

end TodoLists
