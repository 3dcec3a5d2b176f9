import TodoLists.Proofs.CommandLine.Commands
import TodoLists.Proofs.Desk.Frame

/-!
# Commands on items write one list

A command on items opens a list first, and after that it only works on the desk with this list. So
the disk is as it was, or different in the file of the list that was opened.
-/

namespace TodoLists.CommandLine

open Console

variable {e : Environment} {c : Console}

/-- The list that the command is asked to work on, if it works on items. -/
def Command.list? : Command → Option (Option String)
  | .add _ asked => some asked
  | .list _ _ asked => some asked
  | .status _ _ asked => some asked
  | .tag _ _ _ asked => some asked
  | .remove _ _ asked => some asked
  | .shell asked => some asked
  | _ => none

/-- The desk on which the list that is asked for is opened. -/
structure Opens (e : Environment) (c : Console) (list : Option String) (name : Json) (desk : Desk) :
    Prop where
  path : ∃ config, Config.load e c.disk = .ok config ∧
    config.resolve list = .ok (name, desk.list.path)
  items : ListFile.load c.disk desk.list.path = .ok desk.items
  name : desk.list.name = Config.spell name
  disk : desk.disk = c.disk
  supply : desk.supply = c.supply

section

variable {list : Option String} {done : Json × Desk → Console → Prop} {failed : Console → Prop}
  (hopened : ∀ name desk, Opens e c list name desk → done (name, desk) c) (hfailed : failed c)

include hopened hfailed

theorem ends_openDesk_of_opens {config : Config} (hconfig : Config.load e c.disk = .ok config) :
    Ends (openDesk config list) c done failed := by
  rw [openDesk, ends_bind, ends_ofExcept]
  refine ⟨?_, fun _ => hfailed⟩
  rintro ⟨name, path⟩ hresolve
  rw [ends_bind, ends_get, ends_bind, ends_ofExcept]
  refine ⟨fun desk hload => hopened name desk ?_, fun _ => hfailed⟩
  obtain ⟨l, hl, hdesk⟩ := exists_of_bind_eq_ok hload
  cases hdesk
  exact ⟨⟨config, hconfig, hresolve⟩, hl, rfl, rfl, rfl⟩

theorem ends_openList_of_opens : Ends (openList e list) c done failed := by
  rw [openList, ends_bind, ends_loadConfig]
  exact ⟨fun config hconfig => ends_openDesk_of_opens hopened hfailed hconfig, fun _ => hfailed⟩

end

/-! ### The commands -/

section

variable {list : Option String} {P Q : Disk → Prop} {now : Console}

theorem ends_of_looks {a : Action Unit} (ha : Looks a) (h : P now.disk ∧ Q now.disk) :
    Ends a now (fun _ c' => P c'.disk) fun c' => Q c'.disk := by
  refine (ha now).imp (fun _ c' hsame => ?_) fun c' hsame => ?_
  · rw [hsame.disk]
    exact h.1
  · rw [hsame.disk]
    exact h.2

theorem ends_commit_of_disk {α : Type} {r : Except Fault α × Desk} {k : α → Action Unit}
    (hk : ∀ v, Looks (k v)) (h : P r.2.disk ∧ Q r.2.disk) :
    Ends (commit r >>= k) now (fun _ c' => P c'.disk) fun c' => Q c'.disk := by
  rw [ends_bind, ends_commit]
  exact ⟨fun v _ => ends_of_looks (hk v) h, fun _ => h.2⟩

variable (hfailed : Q c.disk)
  (hopened : ∀ name desk, Opens e c list name desk → ∀ desk', desk.WorksOn desk' →
    P desk'.disk ∧ Q desk'.disk)

include hopened

theorem disk_of_opens {name : Json} {desk : Desk} (h : Opens e c list name desk) :
    P c.disk ∧ Q c.disk := by
  rw [← h.disk]
  exact hopened name desk h desk (.refl desk)

include hfailed

theorem ends_addItem_of_opens (words : List String) :
    Ends (addItem e words list) c (fun _ c' => P c'.disk) fun c' => Q c'.disk := by
  rw [addItem, ends_bind]
  refine ends_openList_of_opens (fun name desk h => ?_) hfailed
  refine ends_commit_of_disk (fun id => ?_) (hopened name desk h _ (Desk.worksOn_add _ _))
  exact (looks_ofExcept _).bind fun _ => looks_say _

theorem ends_listItems_of_opens (query : String) (sort : Option String) :
    Ends (listItems e query sort list) c (fun _ c' => P c'.disk) fun c' => Q c'.disk := by
  rw [listItems, ends_bind, ends_loadConfig]
  refine ⟨fun config hconfig => ?_, fun _ => hfailed⟩
  rw [ends_bind]
  refine ends_openDesk_of_opens (fun name desk h => ?_) hfailed hconfig
  refine ends_of_looks ?_ (disk_of_opens hopened h)
  refine (looks_ofExcept _).bind fun order => (looks_ofExcept _).bind fun found => ?_
  split
  · exact looks_say _
  · exact (looks_ofExcept _).bind fun _ => (looks_put _).bind fun _ => looks_say _

theorem ends_setStatus_of_opens (word query : String) :
    Ends (setStatus e word query list) c (fun _ c' => P c'.disk) fun c' => Q c'.disk := by
  rw [setStatus, ends_bind, ends_ofExcept]
  refine ⟨fun target _ => ?_, fun _ => hfailed⟩
  rw [ends_bind]
  refine ends_openList_of_opens (fun name desk h => ?_) hfailed
  exact ends_commit_of_disk (fun _ => looks_say _)
    (hopened name desk h _ (Desk.worksOn_change _ _ _))

theorem ends_setTag_of_opens (tag query : String) (remove : Bool) :
    Ends (setTag e tag query remove list) c (fun _ c' => P c'.disk) fun c' => Q c'.disk := by
  rw [setTag, ends_bind]
  refine ends_openList_of_opens (fun name desk h => ?_) hfailed
  exact ends_commit_of_disk (fun _ => looks_say _)
    (hopened name desk h _ (Desk.worksOn_change _ _ _))

theorem ends_removeItems_of_opens (query : String) (yes : Bool) :
    Ends (removeItems e query yes list) c (fun _ c' => P c'.disk) fun c' => Q c'.disk := by
  rw [removeItems, ends_bind]
  refine ends_openList_of_opens (fun name desk h => ?_) hfailed
  obtain ⟨hP, hQ⟩ := disk_of_opens hopened h
  rw [ends_bind, ends_ofExcept]
  refine ⟨fun ids _ => ?_, fun _ => hQ⟩
  split
  · exact ends_of_looks (looks_say _) ⟨hP, hQ⟩
  · rw [ends_bind, ends_ofExcept]
    refine ⟨fun table _ => ?_, fun _ => hQ⟩
    rw [ends_bind, ends_put]
    refine ⟨fun _ => ?_, fun _ => hQ⟩
    refine ends_ifAgreed (fun c' _ _ _ => ?_) (fun c' hdisk => ?_) fun c' hdisk => ?_
    · exact ends_commit_of_disk (fun _ => looks_say _)
        (hopened name desk h _ (Desk.worksOn_change _ _ _))
    · rw [hdisk]
      exact hP
    · rw [hdisk]
      exact hQ

/-- The desk that a dialogue leaves is the one that takes effect. -/
theorem ends_openShell_of_opens :
    Ends (openShell e list) c (fun _ c' => P c'.disk) fun c' => Q c'.disk := by
  rw [openShell, ends_bind]
  refine ends_openList_of_opens (fun name desk h => ?_) hfailed
  obtain ⟨hP, hQ⟩ := disk_of_opens hopened h
  simp only
  split
  · rw [ends_bind, ends_say]
    exact ⟨fun _ => hQ, fun _ => hQ⟩
  · rw [ends_bind, ends_get, ends_bind, ends_append, ends_bind, ends_commit]
    obtain ⟨hP', hQ'⟩ := hopened name desk h _ (Shell.worksOn_run (Shell.start desk c.screen) _)
    refine ⟨fun _ _ => ?_, fun _ => hQ'⟩
    split
    · exact hQ'
    · split
      · exact hP'
      · exact hP'

/-- What is true of the disk after any work on the list is true after the command. -/
theorem ends_perform_of_opens {command : Command} (hlist : command.list? = some list) :
    Ends (perform e command) c (fun _ c' => P c'.disk) fun c' => Q c'.disk := by
  cases command with
  | newList | forgetList | showLists | useList => cases hlist
  | add words _ =>
    cases hlist
    exact ends_addItem_of_opens hfailed hopened words
  | list query sort _ =>
    cases hlist
    exact ends_listItems_of_opens hfailed hopened query sort
  | status word query _ =>
    cases hlist
    exact ends_setStatus_of_opens hfailed hopened word query
  | tag tag query remove _ =>
    cases hlist
    exact ends_setTag_of_opens hfailed hopened tag query remove
  | remove query yes _ =>
    cases hlist
    exact ends_removeItems_of_opens hfailed hopened query yes
  | shell _ =>
    cases hlist
    exact ends_openShell_of_opens hfailed hopened

end

/-! ### Runs -/

/-- Nothing is done, or a command is carried out. -/
theorem run_cases (e : Environment) (words : List String) (c : Console) :
    ((run e words c).2.disk = c.disk ∧ ∀ i command, Invocation.read words = .ok i →
      Command.read i.rest i.topic = .ok command → (run e words c).1 = 1) ∨
    ∃ i command c', Invocation.read words = .ok i ∧ Command.read i.rest i.topic = .ok command ∧
      c.Same c' ∧ run e words c = conclude e.explain (perform e command) c' := by
  rw [run]
  cases hread : Invocation.read words with
  | error r => exact Or.inl ⟨rfl, by simp⟩
  | ok i =>
    have hsetUp := conclude_of_ends e.explain (looks_setUp (e := e) i.verbose c)
    simp only
    generalize conclude e.explain (setUp e i.verbose) c = r at hsetUp ⊢
    obtain ⟨code, c'⟩ := r
    rcases hsetUp with ⟨rfl, hsame⟩ | ⟨rfl, c'', hsame, hdisk⟩
    · simp only [ne_eq, not_true_eq_false, if_false]
      cases hcommand : Command.read i.rest i.topic with
      | error r =>
        refine Or.inl ⟨hsame.disk, fun i' command hread' hcommand' => ?_⟩
        cases hread'
        cases hcommand.symm.trans hcommand'
      | ok command => exact Or.inr ⟨i, command, c', rfl, hcommand, hsame, rfl⟩
    · exact Or.inl ⟨hdisk.trans hsame.disk, fun _ _ _ _ => rfl⟩

end TodoLists.CommandLine
