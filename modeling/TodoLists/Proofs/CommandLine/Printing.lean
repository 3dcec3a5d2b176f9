import TodoLists.CommandLine
import TodoLists.Proofs.Screen

/-!
# What the commands show

Every screen can show the reports of faults and what the commands on items say, so that these are
never the reason for a command to fail. Of the commands on the registry two tell a path that is not
escaped, and these can be shown if no closing bracket is in the path. They cannot if the path closes
a style that is not theirs.
-/

namespace TodoLists.CommandLine

open Markup

variable (screen : Screen)

/-! ### Reports -/

theorem shows_report (explain : Cause → String) (f : Fault) :
    ∀ o ∈ (report explain f).map Output.line, screen.shows o = true := by
  have hone : ∀ {text}, screen.shows (.line text) = true →
      ∀ o ∈ [text].map Output.line, screen.shows o = true := fun h => by simpa using h
  have hinvalid : ∀ x, screen.shows
      (.line s!"[bold red]Error:[/bold red] Invalid input: {escape x}") = true := fun x =>
    screen.shows_headed "bold red" "Error:" " Invalid input: " x "" (by decide) (by simp [toString])
  have herror : ∀ x, screen.shows (.line s!"[bold red]Error:[/bold red] {escape x}") = true :=
    fun x => screen.shows_headed "bold red" "Error:" " " x "" (by decide) (by simp [toString])
  have hquery : ∀ x, screen.shows (.line s!"[bold red]Syntax error:[/bold red] {escape x}") = true :=
    fun x => screen.shows_headed "bold red" "Syntax error:" " " x "" (by decide)
      (by simp [toString])
  have hunsupported : ∀ x,
      screen.shows (.line s!"[bold red]Not implemented:[/bold red] {escape x}") = true := fun x =>
    screen.shows_headed "bold red" "Not implemented:" " " x "" (by decide) (by simp [toString])
  have hunexpected : ∀ x,
      screen.shows (.line s!"[bold red]Unexpected error:[/bold red] {escape x}") = true := fun x =>
    screen.shows_headed "bold red" "Unexpected error:" " " x "" (by decide) (by simp [toString])
  have htip : screen.shows
      (.line "[yellow]Tip: pass --list NAME or run 'todoq lists use NAME'[/yellow]") = true :=
    screen.shows_styled "yellow" (by decide)
      (.plain (s := "Tip: pass --list NAME or run 'todoq lists use NAME'".toList) (by decide))
      (by simp)
  cases f with
  | query => exact hone (hquery _)
  | unsupported => exact hone (hunsupported _)
  | noListSelected =>
    exact List.forall_mem_cons.2 ⟨herror _, List.forall_mem_singleton.2 htip⟩
  | listFile | configFile => exact hone (herror _)
  | invalid | listExists | noSuchList => exact hone (hinvalid _)
  | unforeseen c =>
    rw [report]
    split
    · exact hone (hinvalid _)
    · exact hone (hunexpected _)

/-- A fault is always reported in full. -/
theorem takeWhile_report (explain : Cause → String) (f : Fault) :
    ((report explain f).map Output.line).takeWhile screen.shows =
      (report explain f).map Output.line :=
  List.takeWhile_eq_self_iff.2 (shows_report screen explain f)

/-! ### Answers -/

theorem shows_added (id : ItemId) (name : String) :
    screen.shows (.line s!"[green]✓ Added {String.ofList id.print} to '{escape name}'[/green]") =
      true := by
  have hbefore : IsPlain ("✓ Added ".toList ++ (id.print ++ " to '".toList)) :=
    isPlain_append.2 ⟨by decide, isPlain_append.2 ⟨isPlain_print id, by decide⟩⟩
  exact screen.shows_styled "green" (by decide)
    (.between hbefore (.escaped name) (b := "'".toList) (by decide)) (by simp [toString])

theorem shows_statusSet (n : Nat) (s : Status) :
    screen.shows (.line s!"[green]✓ Set {n} item(s) to {s.name}[/green]") = true := by
  have hplain : IsPlain ("✓ Set ".toList ++ (n.repr.toList ++ (" item(s) to ".toList ++
      s.name.toList))) :=
    isPlain_append.2 ⟨by decide, isPlain_append.2 ⟨isPlain_repr n,
      isPlain_append.2 ⟨by decide, isPlain_name s⟩⟩⟩
  exact screen.shows_styled "green" (by decide) (.plain hplain) (by simp [toString])

theorem shows_tagSet {report : String} (hreport : IsPlain report.toList) (tag : String) (n : Nat) :
    screen.shows (.line s!"[green]✓ {report} #{escape tag} on {n} item(s)[/green]") = true := by
  have hbefore : IsPlain ("✓ ".toList ++ (report.toList ++ " #".toList)) :=
    isPlain_append.2 ⟨by decide, isPlain_append.2 ⟨hreport, by decide⟩⟩
  have hbehind : IsPlain (" on ".toList ++ (n.repr.toList ++ " item(s)".toList)) :=
    isPlain_append.2 ⟨by decide, isPlain_append.2 ⟨isPlain_repr n, by decide⟩⟩
  exact screen.shows_styled "green" (by decide) (.between hbefore (.escaped tag) hbehind)
    (by simp [toString])

theorem shows_removed (n : Nat) :
    screen.shows (.line s!"[green]✓ Removed {n} item(s)[/green]") = true := by
  have hplain : IsPlain ("✓ Removed ".toList ++ (n.repr.toList ++ " item(s)".toList)) :=
    isPlain_append.2 ⟨by decide, isPlain_append.2 ⟨isPlain_repr n, by decide⟩⟩
  exact screen.shows_styled "green" (by decide) (.plain hplain) (by simp [toString])

theorem shows_used (name : String) :
    screen.shows (.line s!"[green]✓ Now using '{escape name}'[/green]") = true :=
  screen.shows_styled "green" (by decide)
    (.between (a := "✓ Now using '".toList) (by decide) (.escaped name) (b := "'".toList)
      (by decide)) (by simp [toString])

theorem shows_verbose :
    screen.shows (.line "[bold green]Verbose mode enabled.[/bold green]") = true :=
  screen.shows_styled "bold green" (by decide)
    (.plain (s := "Verbose mode enabled.".toList) (by decide)) (by simp)

/-! ### Paths -/

/-- How it is told that a list was registered. -/
def created (name : String) (path : Path) : Output :=
  .line s!"[green]✓ Created list '{escape name}' at {path}[/green]"

/-- How it is told that a list was forgotten. -/
def forgotten (name : String) (path : Path) : Output :=
  .line s!"[green]✓ Removed list '{escape name}' (file kept at {path})[/green]"

theorem shows_created (name : String) {path : Path} (hpath : ']' ∉ (toString path).toList) :
    screen.shows (created name path) = true := by
  have hname := Harmless.between (a := "✓ Created list '".toList) (by decide) (.escaped name)
    (b := "' at ".toList) (by decide)
  exact screen.shows_styled "green" (by decide) (hname.append hpath) (by simp [toString])

/-- A path with a closing tag in it that is not green, and nothing before that could be a tag, cannot
be told. -/
theorem not_shows_created (r : Reading) (name : String) {path : Path} {before w rest : List Char}
    (hpath : (toString path).toList = before ++ '[' :: ('/' :: w ++ ']' :: rest))
    (hbefore : IsPlain before) (hw : Reading.IsStyle w)
    (hother : r.style "green".toList ≠ r.style w) :
    (Screen.styled r).shows (created name path) = false := by
  have hgreen : Reading.IsStyle "green".toList := isStyle_of_mem (by decide)
  have hcreated : IsPlain "✓ Created list '".toList := by decide
  have hat : IsPlain ("' at ".toList ++ before) := isPlain_append.2 ⟨by decide, hbefore⟩
  have hline : (s!"[green]✓ Created list '{escape name}' at {path}[/green]").toList =
      '[' :: ("green".toList ++ ']' :: ("✓ Created list '".toList ++ ((escape name).toList ++
        (("' at ".toList ++ before) ++
          '[' :: ('/' :: w ++ ']' :: (rest ++ "[/green]".toList)))))) := by
    have hshown : path.toText.shown.toList = before ++ '[' :: ('/' :: w ++ ']' :: rest) := hpath
    simp [toString, hshown]
  rw [created, Screen.shows_line, Screen.canRead, Reading.canRead_eq, hline,
    Reading.reads_open hgreen,
    Reading.reads_congr (tagsAfter_escape_plain hcreated hat (by simp) name _)]
  exact Reading.reads_unmatched hw r (List.forall_mem_singleton.2 hother) _

theorem shows_forgotten (name : String) {path : Path} (hpath : ']' ∉ (toString path).toList) :
    screen.shows (forgotten name path) = true := by
  have hname := Harmless.between (a := "✓ Removed list '".toList) (by decide) (.escaped name)
    (b := "' (file kept at ".toList) (by decide)
  exact screen.shows_styled "green" (by decide)
    ((hname.append hpath).append_plain (t := ")".toList) (by decide)) (by simp [toString])

end TodoLists.CommandLine
