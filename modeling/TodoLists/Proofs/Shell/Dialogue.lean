import TodoLists.Proofs.Desk.Frame
import TodoLists.Proofs.Shell.Execution

/-!
# Dialogues

A dialogue goes on until the shell is told to leave, or until there are no more lines. It comes to
what its lines come to when they are executed one after another: nothing that is typed ends it
early, and interrupts and blank lines do nothing. But it does not get as far as that when the
greeting cannot be shown, in which the path of the list is told without being escaped.
-/

namespace TodoLists

theorem Text.fst_cut (c : Char) (s : List Char) : (cut c s).1 = s.takeWhile (· != c) := by
  induction s with
  | nil => rfl
  | cons x xs ih => by_cases hx : x = c <;> simp [cut, hx, ih]

namespace Shell

variable {explain : Cause → String} {s : Shell} {line : String} {c : Command}

/-! ### Lines -/

/-- What stands before the first space of a line, blanks at its ends left out. -/
def firstWord (line : String) : List Char := (Text.strip line.toList).takeWhile (· != ' ')

/-- The line tells the shell to stop. -/
def Leaves (line : String) : Prop :=
  firstWord line = "exit".toList ∨ firstWord line = "quit".toList

instance : DecidablePred Leaves := fun _ => inferInstanceAs (Decidable (_ ∨ _))

theorem leaves_iff : Leaves line ↔ Command.ofWord? (firstWord line) = some .leave :=
  Command.ofWord?_eq_leave_iff.symm

/-- What a line has after its first word. -/
def arguments (line : String) : List Char := (splitLine line.toList).2

theorem splitLine_eq (line : String) : splitLine line.toList = (firstWord line, arguments line) :=
  Prod.ext (Text.fst_cut _ _) rfl

theorem execute_of_command (h : Command.ofWord? (firstWord line) = some c) :
    s.execute explain line = reporting explain (s.perform (arguments line) c) := by
  have hword : firstWord line ≠ [] := by
    intro hnil
    have hnone : Command.ofWord? [] = none := by decide
    rw [hnil, hnone] at h
    cases h
  rw [execute_eq_answer, answer, splitLine_eq]
  simp only [if_neg hword, h]

/-- A line without a command at most gets an answer. -/
theorem execute_of_unknown (explain : Cause → String) (s : Shell)
    (h : Command.ofWord? (firstWord line) = none) :
    ∃ out, s.execute explain line = (.ok out, s) := by
  rw [execute_eq_answer, answer, splitLine_eq]
  simp only [h]
  split
  · exact ⟨_, rfl⟩
  · exact ⟨_, rfl⟩

theorem execute_of_blank (h : Text.strip line.toList = []) :
    s.execute explain line = (.ok [], s) := by
  rw [execute_eq_answer, answer, splitLine_eq, firstWord, h]
  rfl

/-! ### Reports -/

theorem exists_report (explain : Cause → String) {f : Fault} (h : f.IsReportable) :
    ∃ text, report? explain f = some text := by
  cases f with
  | unforeseen c => exact ⟨_, if_pos (h c rfl)⟩
  | _ => exact ⟨_, rfl⟩

/-- A fault is only put into words. -/
theorem exists_reporting (explain : Cause → String) {r : Answer}
    (h : ∀ f, r.1 = .error f → f.IsReportable) :
    ∃ out, reporting explain r = (.ok out, r.2) ∧ (r.1 = .ok out ∨ ∃ f, r.1 = .error f) := by
  obtain ⟨out | f, s'⟩ := r
  · obtain ⟨text, htext⟩ := exists_report explain (h _ rfl)
    exact ⟨[.line text], by rw [reporting, htext], Or.inr ⟨_, rfl⟩⟩
  · exact ⟨_, rfl, Or.inl rfl⟩

/-! ### What a line does -/

section

variable (hloose : s.desk.items.HasLooseTexts)

include hloose

theorem isOutcome_line {kind : ItemList → Prop} (hkind : ItemList.IsKept kind)
    (hs : kind s.desk.items) (hc : Command.ofWord? (firstWord line) = some c)
    (hadd : Command.ofWord? (firstWord line) = some .add →
      ∀ draft, kind (s.desk.items.add draft s.desk.supply).2.1) :
    s.IsOutcome kind (s.perform (arguments line) c) :=
  isOutcome_perform _ hkind hs hloose c fun h => hadd (h ▸ hc)

theorem isOutcome_loose (hc : Command.ofWord? (firstWord line) = some c) :
    s.IsOutcome ItemList.HasLooseTexts (s.perform (arguments line) c) :=
  isOutcome_line hloose ItemList.isKept_hasLooseTexts hloose hc fun _ draft => hloose.add draft _

/-- Every line is answered. -/
theorem exists_execute (explain : Cause → String) (line : String) :
    ∃ out, s.execute explain line = (.ok out, (s.execute explain line).2) := by
  cases hc : Command.ofWord? (firstWord line) with
  | none =>
    obtain ⟨out, hout⟩ := execute_of_unknown explain s hc
    exact ⟨out, by rw [hout]⟩
  | some c =>
    obtain ⟨out, hout, -⟩ := exists_reporting explain
      fun f hf => (isOutcome_loose hloose hc).isReportable hf
    exact ⟨out, by rw [execute_of_command hc, hout]⟩

/-- What a line does is what its command does. -/
theorem snd_execute_of_command (explain : Cause → String)
    (hc : Command.ofWord? (firstWord line) = some c) :
    (s.execute explain line).2 = (s.perform (arguments line) c).2 := by
  obtain ⟨out, hout, -⟩ := exists_reporting explain
    fun f hf => (isOutcome_loose hloose hc).isReportable hf
  rw [execute_of_command hc, hout]

theorem items_execute {kind : ItemList → Prop} (hkind : ItemList.IsKept kind)
    (hs : kind s.desk.items) (hadd : Command.ofWord? (firstWord line) = some .add →
      ∀ draft, kind (s.desk.items.add draft s.desk.supply).2.1) :
    kind (s.execute explain line).2.desk.items := by
  cases hc : Command.ofWord? (firstWord line) with
  | none =>
    obtain ⟨out, hout⟩ := execute_of_unknown explain s hc
    rwa [hout]
  | some c =>
    rw [snd_execute_of_command hloose explain hc]
    exact (isOutcome_line hloose hkind hs hc hadd).items hs

theorem hasLooseTexts_execute : (s.execute explain line).2.desk.items.HasLooseTexts :=
  items_execute hloose ItemList.isKept_hasLooseTexts hloose fun _ draft => hloose.add draft _

theorem running_execute (explain : Cause → String) (line : String) :
    (s.execute explain line).2.running = true ↔ s.running = true ∧ ¬ Leaves line := by
  rw [leaves_iff]
  cases hc : Command.ofWord? (firstWord line) with
  | none =>
    obtain ⟨out, hout⟩ := execute_of_unknown explain s hc
    simp [hout]
  | some c =>
    rw [snd_execute_of_command hloose explain hc, Option.some.injEq]
    by_cases hleave : c = .leave
    · subst hleave
      simp [perform]
    · rw [(stays_perform _ _ hleave).running]
      simp [hleave]

end

/-! ### Lines that are refused -/

/-- An id that the line draws has a numeral. Drawn ids have 64 bits, so only a supply of another
kind could give one without. -/
def DrawsNumeral (s : Shell) (line : String) : Prop :=
  Command.ofWord? (firstWord line) = some .add → Text.isWritable s.desk.nextId.value = true

/-- The file can be written if the line does. -/
def Writes (s : Shell) (line : String) : Prop :=
  ∀ c, Command.ofWord? (firstWord line) = some c →
    ¬ Desk.WriteFailed s.desk.list.path (s.perform (arguments line) c).1

/-- The shells that lines lead to. -/
inductive Reaches (explain : Cause → String) (first : Shell) : Shell → Prop where
  | refl : Reaches explain first first
  | step {s : Shell} (h : Reaches explain first s) {line : String} (hid : s.DrawsNumeral line) :
    Reaches explain first (s.execute explain line).2

section

variable (hstorable : s.desk.items.IsStorable) (hid : s.DrawsNumeral line)

include hstorable hid

theorem isStorable_execute : (s.execute explain line).2.desk.items.IsStorable :=
  items_execute hstorable.hasLooseTexts ItemList.isKept_isStorable hstorable
    fun h draft => hstorable.add draft (hid h)

/-- A shell that complains is as it was. -/
theorem execute_of_complaint (hwrites : s.Writes line) {out : List Output}
    (hout : (s.execute explain line).1 = .ok out) (hcomplaint : ∃ o ∈ out, o.IsComplaint) :
    (s.execute explain line).2 = s := by
  cases hc : Command.ofWord? (firstWord line) with
  | none =>
    obtain ⟨out', hout'⟩ := execute_of_unknown explain s hc
    rw [hout']
  | some c =>
    have hloose := hstorable.hasLooseTexts
    have houtcome := isOutcome_line hloose ItemList.isKept_isStorable hstorable hc
      fun h draft => hstorable.add draft (hid h)
    obtain ⟨out', hreport, hok | ⟨f, hf⟩⟩ := exists_reporting explain
      fun f hf => (isOutcome_loose hloose hc).isReportable hf
    · rw [execute_of_command hc, hreport] at hout
      cases hout
      obtain ⟨o, ho, hocomplaint⟩ := hcomplaint
      exact absurd hocomplaint (houtcome.quiet hok o ho)
    · rw [snd_execute_of_command hloose explain hc]
      exact houtcome.unchanged hf (hwrites c hc)

end

theorem isStorable_of_reaches {first : Shell} (hfirst : first.desk.items.IsStorable)
    (h : Reaches explain first s) : s.desk.items.IsStorable := by
  induction h with
  | refl => exact hfirst
  | step _ hid ih => exact isStorable_execute ih hid

/-! ### The dialogue -/

/-- The lines that are typed and not blank. -/
def typed (entries : List Entry) : List String :=
  entries.filterMap fun
    | .line text => if Text.strip text.toList = [] then none else some text
    | .interrupt => none

/-- The lines up to the first that leaves the shell, which is one of them. -/
def upToLeaving : List String → List String
  | [] => []
  | line :: lines => line :: if Leaves line then [] else upToLeaving lines

/-- The shell after some lines. -/
def executeAll (explain : Cause → String) (s : Shell) (lines : List String) : Shell :=
  lines.foldl (fun s line => (s.execute explain line).2) s

theorem converse_of_stopped (h : s.running = false) (entries : List Entry) :
    converse explain s entries = ⟨[], none, s⟩ := by
  rw [converse, h]
  rfl

theorem converse_line (h : s.running = true) {text : String} {out : List Output} {s' : Shell}
    (hout : s.execute explain text = (.ok out, s')) (entries : List Entry) :
    converse explain s (.line text :: entries) =
      (converse explain s' entries).after (.prompt s.promptText :: out) := by
  rw [converse, if_pos h]
  simp only [hout]

/-- A dialogue that ends without a fault in the given shell. -/
def Dialogue.EndsIn (d : Dialogue) (s : Shell) : Prop := d.fault = none ∧ d.shell = s

theorem converse_endsIn (hloose : s.desk.items.HasLooseTexts) (hrunning : s.running = true)
    (entries : List Entry) :
    (converse explain s entries).EndsIn (executeAll explain s (upToLeaving (typed entries))) := by
  induction entries generalizing s with
  | nil =>
    rw [converse, if_pos hrunning]
    exact ⟨rfl, rfl⟩
  | cons entry entries ih =>
    cases entry with
    | interrupt =>
      rw [converse, if_pos hrunning]
      exact ih hloose hrunning
    | line text =>
      by_cases hblank : Text.strip text.toList = []
      · have htyped : typed (.line text :: entries) = typed entries := by simp [typed, hblank]
        rw [htyped, converse_line hrunning (execute_of_blank hblank)]
        exact ih hloose hrunning
      · have htyped : typed (.line text :: entries) = text :: typed entries := by
          simp [typed, hblank]
        obtain ⟨out, hout⟩ := exists_execute hloose explain text
        have hgoesOn := running_execute hloose explain text
        rw [htyped, upToLeaving, converse_line hrunning hout]
        by_cases hleaves : Leaves text
        · have hstopped : (s.execute explain text).2.running = false := by
            simpa [hleaves] using hgoesOn
          rw [if_pos hleaves, converse_of_stopped hstopped]
          exact ⟨rfl, rfl⟩
        · rw [if_neg hleaves]
          exact ih (hasLooseTexts_execute hloose) (hgoesOn.2 ⟨hrunning, hleaves⟩)

/-! ### The greeting -/

theorem run_of_shown (h : s.screen.shows (listLine s.desk.list.name s.desk.list.path) = true)
    (entries : List Entry) :
    s.run explain entries = (converse explain s entries).after (s.greeting.map .line) := by
  rw [run, if_pos ((shows_greeting s.screen s).trans h)]

/-- Without a greeting there is no dialogue. -/
theorem run_of_not_shown
    (h : s.screen.shows (listLine s.desk.list.name s.desk.list.path) = false)
    (entries : List Entry) : (s.run explain entries).fault = some (.unforeseen .badMarkup) ∧
      (s.run explain entries).shell = s := by
  have hgreeting := (shows_greeting s.screen s).trans h
  rw [run, if_neg (ne_true_of_eq_false hgreeting)]
  exact ⟨rfl, rfl⟩

theorem screen_execute (explain : Cause → String) (s : Shell) (line : String) :
    (s.execute explain line).2.screen = s.screen := by
  cases hc : Command.ofWord? (firstWord line) with
  | none =>
    obtain ⟨out, hout⟩ := execute_of_unknown explain s hc
    rw [hout]
  | some c => rw [execute_of_command hc, snd_reporting, screen_perform]

/-- All shells that lines lead to greet alike. -/
theorem Reaches.listLine {first : Shell} (h : Reaches explain first s) :
    s.screen.shows (listLine s.desk.list.name s.desk.list.path) =
      first.screen.shows (Shell.listLine first.desk.list.name first.desk.list.path) := by
  induction h with
  | refl => rfl
  | @step s _ line _ ih =>
    have hworks : s.desk.WorksOn (s.execute explain line).2.desk := worksOn_execute s line
    rw [screen_execute, hworks.name, hworks.path, ih]

theorem perform_add_nil (s : Shell) :
    s.perform [] .add = (.error (.invalid .namelessItem), s) := by
  have hname : (Draft.ofLine (String.ofList []).toList).name = "" := by decide +kernel
  rw [perform, add, onDesk, Desk.add, if_pos hname]
  rfl

theorem reporting_invalid (explain : Cause → String) (e : InvalidInput) (s : Shell) :
    reporting explain (.error (.invalid e), s) =
      (.ok [.line ("[red]Invalid input:[/red] " ++ Markup.escape e.message)], s) := rfl

/-- In this path `/` follows an opening bracket, and a closing bracket comes later. -/
def bracketed : Path := ⟨.root, ["tmp", "a[", "b]", "l.json"]⟩

theorem not_shows_bracketed :
    (Screen.styled .byName).shows (listLine "a" bracketed) = false := by
  have hpath : (toString bracketed).toList =
      "/tmp/a".toList ++ '[' :: ('/' :: "b".toList ++ ']' :: "/l.json".toList) := by
    decide +kernel
  exact not_shows_listLine .byName "a" hpath (by decide) ⟨rfl, by simp⟩

end Shell

end TodoLists
