import TodoLists.Shell
import TodoLists.Proofs.Query.Brackets
import TodoLists.Proofs.Screen

/-!
# What the shell shows

Every screen can show what the shell says to a command line, be it an answer or a complaint. The
table of items has the query for its title as it was typed, but it is shown only if the text is a
query, and then no closing tag is in it. Only the greeting may be something that a screen cannot
show, for the path of the list is told as it is.
-/

namespace TodoLists.Shell

open Markup

variable (screen : Screen)

/-! ### Answers -/

theorem shows_added (id : ItemId) :
    screen.shows (.line s!"[green]Added {String.ofList id.print}[/green]") = true :=
  screen.shows_styled "green" (by decide)
    (.plain (isPlain_append.2 ⟨(by decide : IsPlain "Added ".toList), isPlain_print id⟩))
    (by simp [toString])

theorem shows_statusSet (n : Nat) (s : Status) :
    screen.shows (.line s!"[green]Set {n} item(s) to {s.name}[/green]") = true := by
  have hplain : IsPlain ("Set ".toList ++ (n.repr.toList ++ (" item(s) to ".toList ++
      s.name.toList))) :=
    isPlain_append.2 ⟨by decide, isPlain_append.2 ⟨isPlain_repr n,
      isPlain_append.2 ⟨by decide, isPlain_name s⟩⟩⟩
  exact screen.shows_styled "green" (by decide) (.plain hplain) (by simp [toString])

theorem shows_changed {report : String} (hreport : IsPlain report.toList) (n : Nat) :
    screen.shows (.line s!"[green]{report} {n} item(s)[/green]") = true := by
  have hplain : IsPlain (report.toList ++ (" ".toList ++ (n.repr.toList ++ " item(s)".toList))) :=
    isPlain_append.2 ⟨hreport, isPlain_append.2 ⟨by decide, isPlain_append.2 ⟨isPlain_repr n,
      by decide⟩⟩⟩
  exact screen.shows_styled "green" (by decide) (.plain hplain) (by simp [toString])

theorem shows_sort (o : SortOrder) : screen.shows (.line (describeSort o)) = true := by
  have hwords : ∀ k : SortKey, IsPlain k.word.toList := by
    intro k
    cases k <;> decide
  rw [Screen.shows_line]
  refine screen.canRead_of_harmless (.plain ?_)
  rw [describeSort]
  split
  · decide
  · rw [String.toList_append]
    refine isPlain_append.2 ⟨by decide, isPlain_intercalate (by decide) ?_⟩
    intro part hpart
    obtain ⟨k, -, rfl⟩ := List.mem_map.1 hpart
    exact hwords k

theorem shows_help : ∀ o ∈ helpText.map Output.line, screen.shows o = true := by
  have hheadings : ∀ heading : String, IsPlain heading.toList →
      screen.shows (.line ("[bold]" ++ heading ++ "[/bold]")) = true := fun heading hplain =>
    screen.shows_styled "bold" (by decide) (.plain hplain) (by simp)
  have hothers : ∀ text ∈ helpText, text = "[bold]Commands:[/bold]" ∨
      text = "[bold]Queries:[/bold]" ∨ ¬ ['[', '/'] <:+: text.toList := by decide +kernel
  intro o ho
  obtain ⟨text, htext, rfl⟩ := List.mem_map.1 ho
  rcases hothers text htext with rfl | rfl | hopens
  · exact hheadings "Commands:" (by decide)
  · exact hheadings "Queries:" (by decide)
  · rw [Screen.shows_line]
    exact screen.canRead_of_opening hopens

variable {screen} {s : Shell} {args : List Char} {out : List Output}

theorem shows_onDesk {α : Type} {done : Except Fault α × Desk} {say : α → String}
    (hsay : ∀ a, screen.shows (.line (say a)) = true) (h : (s.onDesk done say).1 = .ok out) :
    ∀ o ∈ out, screen.shows o = true := by
  obtain ⟨a, -, rfl⟩ := exists_of_map_eq_ok h
  exact List.forall_mem_singleton.2 (hsay a)

/-- The title is a text that was read as a query. -/
theorem shows_list (h : s.list args = .ok out) : ∀ o ∈ out, screen.shows o = true := by
  obtain ⟨found, hselect, h⟩ := exists_of_bind_eq_ok h
  split at h
  · cases h
    exact List.forall_mem_singleton.2 (screen.shows_noMatch _)
  · obtain ⟨table, htable, h⟩ := exists_of_bind_eq_ok h
    cases h
    obtain ⟨q, hquery, -⟩ := exists_of_bind_eq_ok hselect
    have htitle := Query.not_infix_of_parseQuery (eq_ok_of_mapError_eq_ok hquery)
    exact List.forall_mem_singleton.2 (screen.shows_items (screen.canRead_of_opening htitle) htable)

theorem shows_setTag {present : Bool} (h : (s.setTag args present).1 = .ok out) :
    ∀ o ∈ out, screen.shows o = true := by
  rw [setTag] at h
  simp only at h
  split at h
  · cases h
  · have hreport : IsPlain (if present then ("tag", "Tagged") else ("untag", "Untagged")).2.toList :=
      by cases present <;> decide
    exact shows_onDesk (fun _ => shows_changed screen hreport _) h

theorem shows_perform {c : Command} (h : (s.perform args c).1 = .ok out) :
    ∀ o ∈ out, screen.shows o = true := by
  cases c with
  | list => exact shows_list h
  | add => exact shows_onDesk (shows_added screen) h
  | status =>
    rw [perform, setStatus] at h
    split at h
    · cases h
    · split at h
      · cases h
      · exact shows_onDesk (fun _ => shows_statusSet screen _ _) h
  | tag | untag => exact shows_setTag h
  | remove =>
    rw [perform, remove] at h
    split at h
    · cases h
    · have hreport : IsPlain "Removed".toList := by decide
      exact shows_onDesk (fun _ => shows_changed screen hreport _) h
  | sort =>
    rw [perform, setSort] at h
    split at h
    · cases h
      exact List.forall_mem_singleton.2 (shows_sort screen _)
    · split at h
      · cases h
      · cases h
        exact List.forall_mem_singleton.2 (shows_sort screen _)
  | help =>
    cases h
    exact shows_help screen
  | leave =>
    cases h
    exact fun o ho => absurd ho List.not_mem_nil

/-! ### Complaints -/

theorem shows_report {explain : Cause → String} {f : Fault} {text : String}
    (h : report? explain f = some text) : screen.shows (.line text) = true := by
  have herror : ∀ x, screen.shows (.line s!"[red]Error:[/red] {escape x}") = true := fun x =>
    screen.shows_headed "red" "Error:" " " x "" (by decide) (by simp [toString])
  have hinvalid : ∀ x, screen.shows (.line s!"[red]Invalid input:[/red] {escape x}") = true :=
    fun x => screen.shows_headed "red" "Invalid input:" " " x "" (by decide) (by simp [toString])
  cases f with
  | invalid e =>
    cases h
    exact hinvalid _
  | unforeseen c =>
    rw [report?] at h
    split at h
    · cases h
      exact hinvalid _
    · cases h
  | _ =>
    cases h
    exact herror _

theorem shows_reporting {explain : Cause → String} {r : Answer}
    (hr : ∀ {out}, r.1 = .ok out → ∀ o ∈ out, screen.shows o = true)
    (h : (reporting explain r).1 = .ok out) : ∀ o ∈ out, screen.shows o = true := by
  obtain ⟨f | said, s'⟩ := r
  · rw [reporting] at h
    split at h
    · next text htext =>
      cases h
      exact List.forall_mem_singleton.2 (shows_report htext)
    · cases h
  · exact hr h

theorem shows_answer {explain : Cause → String} {line : String}
    (h : (s.answer explain line).1 = .ok out) : ∀ o ∈ out, screen.shows o = true := by
  have hunknown : ∀ x, screen.shows (.line
      s!"[red]Unknown command:[/red] {escape x}. Type 'help' for available commands.") = true :=
    fun x => screen.shows_headed "red" "Unknown command:" " " x
      ". Type 'help' for available commands." (by decide) (by simp [toString])
  rw [answer] at h
  simp only at h
  split at h
  · cases h
    exact fun o ho => absurd ho List.not_mem_nil
  · split at h
    · cases h
      exact List.forall_mem_singleton.2 (hunknown _)
    · exact shows_reporting shows_perform h

/-- Showing an answer is never what goes wrong. -/
theorem execute_eq_answer (explain : Cause → String) (s : Shell) (line : String) :
    s.execute explain line = s.answer explain line := by
  rw [execute]
  rcases hanswer : s.answer explain line with ⟨f | out, s'⟩
  · rfl
  · have hshown : out.all s'.screen.shows = true :=
      List.all_eq_true.2 (shows_answer (congrArg Prod.fst hanswer))
    rw [showing, if_pos hshown]

/-! ### The greeting -/

/-- The line of the greeting that tells which list it is. -/
def listLine (name : String) (path : Path) : Output := .line s!"List: {escape name} ({path})"

/-- Of the greeting, only the line with the path in it matters. -/
theorem shows_greeting (screen : Screen) (s : Shell) :
    (s.greeting.map Output.line).all screen.shows =
      screen.shows (listLine s.desk.list.name s.desk.list.path) := by
  have htitle : screen.shows (.line title) = true :=
    screen.shows_styled "bold cyan" (by decide) (.plain (s := "todoq shell".toList) (by decide))
      (by simp [title])
  have hhint : screen.shows
      (.line "Type 'help' for available commands, 'exit' to quit.\n") = true := by
    rw [Screen.shows_line]
    exact screen.canRead_of_harmless (.plain (by decide))
  simp [greeting, listLine, htitle, hhint]

/-- A path without closing brackets can be shown. -/
theorem shows_listLine (screen : Screen) (name : String) {path : Path}
    (hpath : ']' ∉ (toString path).toList) : screen.shows (listLine name path) = true := by
  have hname := Harmless.between (a := "List: ".toList) (by decide) (.escaped name)
    (b := " (".toList) (by decide)
  have hline := (hname.append hpath).append_plain (t := ")".toList) (by decide)
  rw [listLine, Screen.shows_line]
  refine screen.canRead_of_harmless ?_
  simpa [toString] using hline

/-- A path with a closing tag in it, and nothing before that could be one, cannot be shown. -/
theorem not_shows_listLine (r : Reading) (list : String) {path : Path} {before name rest : List Char}
    (hpath : (toString path).toList = before ++ '[' :: ('/' :: name ++ ']' :: rest))
    (hbefore : IsPlain before) (hname : IsBody ('/' :: name)) :
    (Screen.styled r).shows (listLine list path) = false := by
  have hlist : IsPlain "List: ".toList := by decide
  have hopen : IsPlain (" (".toList ++ before) := isPlain_append.2 ⟨by decide, hbefore⟩
  have hline : (s!"List: {escape list} ({path})").toList = "List: ".toList ++
      ((escape list).toList ++ ((" (".toList ++ before) ++
        '[' :: ('/' :: name ++ ']' :: (rest ++ ")".toList)))) := by
    have hshown : path.toText.shown.toList = before ++ '[' :: ('/' :: name ++ ']' :: rest) := hpath
    simp [toString, hshown]
  rw [listLine, Screen.shows_line, Screen.canRead, Reading.canRead_eq, hline,
    Reading.reads_congr (tagsAfter_escape_plain hlist hopen (by simp) list _)]
  exact r.reads_of_closing hname _

end TodoLists.Shell
