import TodoLists.Proofs.CommandLine.Actions

/-!
# What comes of the commands

Each command changes the disk in one step at most. Up to that step it only looks, the step itself
changes no file when it fails, and what comes after it cannot fail. The last holds of adding an item
only if the current list has a text for a name: the name is shown after the list was saved. Of
registering a list and of forgetting one it holds only if the path can be shown, which is told as it
is after the configuration was saved.
-/

namespace TodoLists.CommandLine

open Console

variable {e : Environment} {c : Console}

/-! ### Opening a list -/

/-- The name of the current list is a text, if there is one. -/
def HasNamedCurrent (e : Environment) (c : Console) : Prop :=
  ∀ config, Config.load e c.disk = .ok config →
    config.current = .null ∨ ∃ t, config.current = .str t

/-- Of the registered lists, those whose files can be loaded hold texts for names, descriptions and
tags, and ids with numerals. The next id that is drawn has a numeral too, since ids are drawn with 64
bits. -/
def HasPlainLists (e : Environment) (c : Console) : Prop :=
  ∀ config, Config.load e c.disk = .ok config → ∀ entry ∈ config.lists, ∀ t, entry.2 = .str t →
    ∀ l, ListFile.load c.disk (.ofText t) = .ok l →
      l.IsStorable ∧ Text.isWritable (c.supply.next (l.ids.map ItemId.value)).1 = true

/-- The configuration and the lists are of the kinds that this program makes. -/
structure IsPlain (e : Environment) (c : Console) : Prop where
  current : HasNamedCurrent e c
  lists : HasPlainLists e c

theorem IsPlain.of_same {c' : Console} (h : IsPlain e c) (hsame : c.Same c') : IsPlain e c' := by
  refine ⟨?_, ?_⟩
  · rw [HasNamedCurrent, hsame.disk]
    exact h.current
  · rw [HasPlainLists, hsame.disk, hsame.supply]
    exact h.lists

/-- What a command tells at its end can be shown with the path in it. -/
def Command.CanTell (e : Environment) (c : Console) : Command → Prop
  | .newList name path => c.screen.shows (created name (newListPath e c.disk name path)) = true
  | .forgetList name _ => ∀ config path config', Config.load e c.disk = .ok config →
      config.removeList name = .ok (path, config') → c.screen.shows (forgotten name path) = true
  | _ => True

theorem Command.CanTell.of_same {c' : Console} {command : Command} (h : command.CanTell e c)
    (hsame : c.Same c') : command.CanTell e c' := by
  cases command with
  | newList name path =>
    rw [CanTell, hsame.disk, hsame.screen]
    exact h
  | forgetList name yes =>
    rw [CanTell, hsame.disk, hsame.screen]
    exact h
  | _ => trivial

theorem Command.canTell_newList {name : String} {path : Option Path}
    (h : ']' ∉ (toString (newListPath e c.disk name path)).toList) :
    (newList name path).CanTell e c :=
  shows_created c.screen name h

/-- A path with a closing tag of another style cannot be told. -/
theorem Command.not_canTell_newList {r : Markup.Reading} {name : String} {path : Option Path}
    {before w rest : List Char} (hscreen : c.screen = .styled r)
    (hpath : (toString (newListPath e c.disk name path)).toList =
      before ++ '[' :: ('/' :: w ++ ']' :: rest))
    (hbefore : Markup.IsPlain before) (hw : Markup.Reading.IsStyle w)
    (hother : r.style "green".toList ≠ r.style w) : ¬ (newList name path).CanTell e c := by
  rw [CanTell, hscreen, not_shows_created r name hpath hbefore hw hother]
  exact Bool.false_ne_true

theorem Command.canTell_forgetList {name : String} {yes : Bool}
    (h : ∀ config path config', Config.load e c.disk = .ok config →
      config.removeList name = .ok (path, config') → ']' ∉ (toString path).toList) :
    (forgetList name yes).CanTell e c :=
  fun config path config' hload hremove =>
    shows_forgotten c.screen name (h config path config' hload hremove)

/-- What is known of a list that was opened. -/
structure Opened (c : Console) (opened : Json × Desk) : Prop where
  name : ∃ t, opened.1 = .str t
  disk : opened.2.disk = c.disk
  storable : opened.2.items.IsStorable
  drawn : Text.isWritable opened.2.nextId.value = true

theorem exists_entry_of_findPath {config : Config} {name : Json} {path : Path}
    (h : config.findPath name = .ok path) :
    ∃ entry ∈ config.lists, ∃ t, entry.2 = .str t ∧ path = .ofText t := by
  rw [Config.findPath] at h
  split at h
  · split at h
    · cases h
    · next t hpath =>
      cases h
      obtain ⟨entry, hentry, ht⟩ := Option.map_eq_some_iff.1 hpath
      exact ⟨entry, List.mem_of_find?_eq_some hentry, t, ht, rfl⟩
    · cases h
  · cases h

/-- The list that a command works on has a text for a name. -/
theorem exists_text_of_resolve {config : Config} {list : Option String} {name : Json} {path : Path}
    (hcurrent : config.current = .null ∨ ∃ t, config.current = .str t)
    (h : config.resolve list = .ok (name, path)) : ∃ t, name = .str t := by
  obtain ⟨hname, htruthy, -⟩ := Config.wanted_of_resolve h
  have hwanted : name = config.current ∨ ∃ t, name = .str t := by
    rw [hname]
    cases list with
    | none => exact Or.inl rfl
    | some n =>
      rw [Config.wanted]
      split
      · exact Or.inl rfl
      · exact Or.inr ⟨_, rfl⟩
  rcases hwanted with hname | htext
  · rcases hcurrent with hnull | htext
    · rw [hname, hnull] at htruthy
      cases htruthy
    · rwa [hname]
  · exact htext

theorem ends_loadConfig {done : Config → Console → Prop} {failed : Console → Prop} :
    Ends (loadConfig e) c done failed ↔
      (∀ config, Config.load e c.disk = .ok config → done config c) ∧
        ((∃ f, Config.load e c.disk = .error f) → failed c) := by
  rw [loadConfig, ends_bind, ends_get, ends_ofExcept]

section

variable {done : Json × Desk → Console → Prop} {failed : Console → Prop} (h : IsPlain e c)
  (hdone : ∀ opened, Opened c opened → done opened c) (hfailed : failed c)

include h hdone hfailed

theorem ends_openDesk {config : Config} (hconfig : Config.load e c.disk = .ok config)
    (list : Option String) : Ends (openDesk config list) c done failed := by
  rw [openDesk, ends_bind, ends_ofExcept]
  refine ⟨?_, fun _ => hfailed⟩
  intro (name, path) hresolve
  rw [ends_bind, ends_get, ends_bind, ends_ofExcept]
  refine ⟨fun desk hload => hdone (name, desk) ?_, fun _ => hfailed⟩
  obtain ⟨l, hl, hdesk⟩ := exists_of_bind_eq_ok hload
  cases hdesk
  obtain ⟨entry, hentry, t, ht, rfl⟩ :=
    exists_entry_of_findPath (Config.wanted_of_resolve hresolve).2.2
  obtain ⟨hstorable, hdrawn⟩ := h.lists config hconfig entry hentry t ht l hl
  exact ⟨exists_text_of_resolve (h.current config hconfig) hresolve, rfl, hstorable, hdrawn⟩

theorem ends_openList (list : Option String) : Ends (openList e list) c done failed := by
  rw [openList, ends_bind, ends_loadConfig]
  exact ⟨fun config hconfig => ends_openDesk h hdone hfailed hconfig list, fun _ => hfailed⟩

end

/-! ### The one step that writes -/

/-- No file differs from those on the console. -/
def Spared (c c' : Console) : Prop := c.disk.OnlyFoldersMade c'.disk

theorem spared_of_eq {c' : Console} (h : c'.disk = c.disk) : Spared c c' := by
  rw [Spared, h]
  exact .refl _

/-- Saving a list is the last thing that can fail. -/
theorem ends_commit_of_settled {α : Type} {desk : Desk} {r : Except Fault α × Desk}
    {done : α → Console → Prop} (hdisk : desk.disk = c.disk)
    (hr : desk.Settled ItemList.IsStorable r) (hdone : ∀ v c', done v c') (now : Console) :
    Ends (commit r) now done (Spared c) := by
  refine ends_commit.2 ⟨fun v _ => hdone v _, fun ⟨f, hf⟩ => ?_⟩
  rw [Spared, ← hdisk]
  exact hr.onlyFoldersMade hf

theorem ends_saveConfig {config : Config} {done : Path → Console → Prop}
    (hconfig : config.toJson.isWritable = true) {now : Console} (hnow : now.disk = c.disk)
    (hdone : ∀ p c', c'.screen = now.screen → done p c') :
    Ends (saveConfig e config) now done (Spared c) := by
  refine ends_onDisk.2 ⟨fun p _ => hdone p _ rfl, fun ⟨f, hf⟩ => ?_⟩
  rw [hnow] at hf ⊢
  rcases Config.save_cases hconfig e c.disk with ⟨-, hmade⟩ | ⟨p, hp⟩
  · exact hmade
  · rw [hp] at hf
    cases hf

/-- An action that may be declined, and then changes nothing. -/
theorem ends_ifAgreed {agreed : Bool} {question : String} {act : Action Unit}
    {done : Unit → Console → Prop} {failed : Console → Prop}
    (hact : ∀ c', c'.disk = c.disk → c'.screen = c.screen →
      (agreed = false → (firstAnswer c.input).1 = some true) → Ends act c' done failed)
    (hdone : ∀ c', c'.disk = c.disk → done () c')
    (hfailed : ∀ c', c'.disk = c.disk → failed c') :
    Ends (ifAgreed agreed question act) c done failed := by
  cases agreed with
  | true => exact hact c rfl rfl nofun
  | false =>
    change Ends (confirm question >>= fun goOn => if goOn then act else say cancelled) c done failed
    rw [ends_bind]
    refine ends_confirm (fun b c' hb hdisk hscreen => ?_) hfailed
    cases b with
    | true => exact hact c' hdisk hscreen fun _ => hb
    | false => exact (ends_put _).2 ⟨fun _ => hdone _ hdisk, fun _ => hfailed _ hdisk⟩

/-! ### The commands -/

section

variable (h : IsPlain e c)

include h

theorem ends_addItem (words : List String) (list : Option String) :
    Ends (addItem e words list) c (fun _ _ => True) (Spared c) := by
  rw [addItem, ends_bind]
  refine ends_openList h (fun opened hopened => ?_) (spared_of_eq rfl) list
  obtain ⟨t, ht⟩ := hopened.name
  rw [ends_bind]
  apply ends_commit_of_settled hopened.disk
  · exact Desk.settled_add _ _ fun draft => hopened.storable.add draft hopened.drawn
  · intro id now
    rw [ht]
    exact (ends_say_of_shows (shows_added _ _ _)).2 trivial

theorem ends_setStatus (word query : String) (list : Option String) :
    Ends (setStatus e word query list) c (fun _ _ => True) (Spared c) := by
  rw [setStatus, ends_bind, ends_ofExcept]
  refine ⟨fun target _ => ?_, fun _ => spared_of_eq rfl⟩
  rw [ends_bind]
  refine ends_openList h (fun opened hopened => ?_) (spared_of_eq rfl) list
  rw [ends_bind]
  apply ends_commit_of_settled hopened.disk
  · exact Desk.settled_setStatus ItemList.isKept_isStorable hopened.storable _ _
  · intro ids now
    exact (ends_say_of_shows (shows_statusSet _ _ _)).2 trivial

theorem ends_setTag (tag query : String) (remove : Bool) (list : Option String) :
    Ends (setTag e tag query remove list) c (fun _ _ => True) (Spared c) := by
  rw [setTag, ends_bind]
  refine ends_openList h (fun opened hopened => ?_) (spared_of_eq rfl) list
  rw [ends_bind]
  apply ends_commit_of_settled hopened.disk
  · exact Desk.settled_setTag ItemList.isKept_isStorable hopened.storable _ _ _
  · intro ids now
    have hreport : Markup.IsPlain (if remove then "Removed" else "Added").toList := by
      split <;> decide
    exact (ends_say_of_shows (shows_tagSet _ hreport _ _)).2 trivial

/-- What was asked and answered with a no is not done. -/
theorem ends_removeItems (query : String) (yes : Bool) (list : Option String) :
    Ends (removeItems e query yes list) c
      (fun _ c' => yes = false → (firstAnswer c.input).1 = some false → c'.disk = c.disk)
      (Spared c) := by
  rw [removeItems, ends_bind]
  refine ends_openList h (fun opened hopened => ?_) (spared_of_eq rfl) list
  rw [ends_bind, ends_ofExcept]
  refine ⟨fun ids hids => ?_, fun _ => spared_of_eq rfl⟩
  split
  · exact (ends_say_of_shows (Screen.shows_noMatch _ _)).2 fun _ _ => rfl
  · rw [ends_bind, ends_ofExcept]
    refine ⟨fun table _ => ?_, fun _ => spared_of_eq rfl⟩
    rw [ends_bind, ends_put]
    refine ⟨fun _ => ?_, fun _ => spared_of_eq rfl⟩
    refine ends_ifAgreed (fun now _ _ hagreed => ?_) (fun _ hdisk _ _ => hdisk)
      fun _ hdisk => spared_of_eq hdisk
    rw [ends_bind]
    apply ends_commit_of_settled hopened.disk
    · exact Desk.settled_remove ItemList.isKept_isStorable hopened.storable _
    · intro removed now'
      refine (ends_say_of_shows (shows_removed _ _)).2 fun hyes hno => ?_
      cases (hagreed hyes).symm.trans hno

end

theorem ends_newList {name : String} {path : Option Path}
    (htell : (Command.newList name path).CanTell e c) :
    Ends (newList e name path) c (fun _ _ => True) (Spared c) := by
  rw [newList, ends_bind, ends_loadConfig]
  refine ⟨fun config hload => ?_, fun _ => spared_of_eq rfl⟩
  rw [ends_bind, ends_get, ends_bind, ends_ofExcept]
  refine ⟨fun full _ => ?_, fun _ => spared_of_eq rfl⟩
  rw [ends_bind, ends_ofExcept]
  refine ⟨fun config' hadd => ?_, fun _ => spared_of_eq rfl⟩
  rw [ends_bind]
  have hwritable := Config.isWritable_addList (Config.isWritable_load hload) hadd
  refine ends_saveConfig hwritable rfl fun p now hscreen => ?_
  exact (ends_say_of_shows (hscreen ▸ htell)).2 trivial

theorem ends_useList (name : String) :
    Ends (useList e name) c (fun _ _ => True) (Spared c) := by
  rw [useList, ends_bind, ends_loadConfig]
  refine ⟨fun config hload => ?_, fun _ => spared_of_eq rfl⟩
  rw [ends_bind, ends_ofExcept]
  refine ⟨fun (current, path) hresolve => ?_, fun _ => spared_of_eq rfl⟩
  rw [ends_bind]
  have hwritable := Config.isWritable_resolve (Config.isWritable_load hload) hresolve
  refine ends_saveConfig hwritable rfl fun p now _ => ?_
  exact (ends_say_of_shows (shows_used _ _)).2 trivial

theorem ends_forgetList {name : String} {yes : Bool}
    (htell : (Command.forgetList name yes).CanTell e c) :
    Ends (forgetList e name yes) c
      (fun _ c' => yes = false → (firstAnswer c.input).1 = some false → c'.disk = c.disk)
      (Spared c) := by
  rw [forgetList]
  split
  -- With and without the warning the same is asked.
  on_goal 1 =>
    rw [ends_bind, ends_say]
    refine ⟨fun _ => ?_, fun _ => spared_of_eq rfl⟩
  all_goals
    refine ends_ifAgreed (fun now hdisk hscreen hagreed => ?_) (fun _ hdisk _ _ => hdisk)
      fun _ hdisk => spared_of_eq hdisk
    rw [ends_bind, ends_loadConfig]
    refine ⟨fun config hload => ?_, fun _ => spared_of_eq hdisk⟩
    rw [ends_bind, ends_ofExcept]
    refine ⟨fun (path, config') hremove => ?_, fun _ => spared_of_eq hdisk⟩
    rw [ends_bind]
    have hwritable := Config.isWritable_removeList (Config.isWritable_load hload) hremove
    refine ends_saveConfig hwritable hdisk fun p now' hscreen' => ?_
    rw [hdisk] at hload
    have hshows : now'.screen.shows (forgotten name path) = true := by
      rw [hscreen', hscreen]
      exact htell config path config' hload hremove
    refine (ends_say_of_shows hshows).2 fun hyes hno => ?_
    cases (hagreed hyes).symm.trans hno

theorem looks_loadConfig : Looks (loadConfig e) := looks_get.bind fun _ => looks_ofExcept _

theorem looks_openDesk (config : Config) (list : Option String) : Looks (openDesk config list) :=
  (looks_ofExcept _).bind fun _ => looks_get.bind fun _ => (looks_ofExcept _).bind looks_pure

theorem looks_showLists : Looks (showLists e) := by
  refine looks_loadConfig.bind fun config => ?_
  split
  · exact looks_say _
  · exact (looks_ofExcept _).bind fun _ => (looks_put _).bind fun _ =>
      looks_get.bind fun _ => looks_say _

theorem looks_listItems (query : String) (sort list : Option String) :
    Looks (listItems e query sort list) := by
  refine looks_loadConfig.bind fun config => (looks_openDesk config list).bind fun opened => ?_
  refine (looks_ofExcept _).bind fun order => (looks_ofExcept _).bind fun found => ?_
  split
  · exact looks_say _
  · exact (looks_ofExcept _).bind fun _ => (looks_put _).bind fun _ => looks_say _

theorem looks_setUp (verbose : Bool) : Looks (setUp e verbose) := by
  have hcolor : Looks (modify fun c => { c with colorOff := true }) := fun _ => ⟨rfl, rfl, rfl, rfl⟩
  refine looks_loadConfig.bind fun config => ?_
  split
  · exact (hcolor.bind fun _ => looks_say _).ite (looks_say _)
  · exact (hcolor.bind fun _ => looks_pure _).ite (looks_pure _)

/-- What setting up shows. -/
def greeting (verbose : Bool) (config : Config) : List Output :=
  if verbose || config.options.verbose.isTruthy then
    [.line "[bold green]Verbose mode enabled.[/bold green]"]
  else []

/-- Setting up cannot fail once the configuration is loaded. -/
theorem ends_setUp_of_load {config : Config} (hload : Config.load e c.disk = .ok config)
    (verbose : Bool) : Ends (setUp e verbose) c
      (fun _ c' => c.Same c' ∧ c'.shown = c.shown ++ greeting verbose config) fun _ => False := by
  rw [setUp, ends_bind, ends_loadConfig]
  refine ⟨fun config' hload' => ?_, fun ⟨f, hf⟩ => nomatch hload.symm.trans hf⟩
  cases hload.symm.trans hload'
  rw [greeting]
  -- whether colours are turned off makes no difference to what is shown
  split <;> split
  · exact (ends_say_of_shows (shows_verbose _)).2 ⟨⟨rfl, rfl, rfl, rfl⟩, rfl⟩
  · exact (ends_say_of_shows (shows_verbose _)).2 ⟨⟨rfl, rfl, rfl, rfl⟩, rfl⟩
  · exact ⟨⟨rfl, rfl, rfl, rfl⟩, (List.append_nil _).symm⟩
  · exact ⟨⟨rfl, rfl, rfl, rfl⟩, (List.append_nil _).symm⟩

/-- Once the configuration is loaded the command is carried out, behind what setting up shows. -/
theorem run_after_greeting {config : Config} {words : List String} {i : Invocation}
    {command : Command} (hread : Invocation.read words = .ok i)
    (hcommand : Command.read i.rest i.topic = .ok command)
    (hload : Config.load e c.disk = .ok config) :
    ∃ c', c.Same c' ∧ c'.shown = c.shown ++ greeting i.verbose config ∧
      run e words c = conclude e.explain (perform e command) c' := by
  have hsetUp := conclude_of_ends e.explain (ends_setUp_of_load hload i.verbose)
  rw [run, hread]
  simp only
  generalize conclude e.explain (setUp e i.verbose) c = r at hsetUp ⊢
  obtain ⟨code, c'⟩ := r
  rcases hsetUp with ⟨rfl, hsame, hshown⟩ | ⟨-, _, hfalse, -⟩
  · refine ⟨c', hsame, hshown, ?_⟩
    simp only [ne_eq, not_true_eq_false, if_false, hcommand]
  · exact hfalse.elim

theorem run_of_load {config : Config} {words : List String} {i : Invocation} {command : Command}
    (hread : Invocation.read words = .ok i) (hcommand : Command.read i.rest i.topic = .ok command)
    (hload : Config.load e c.disk = .ok config) :
    ∃ c', c.Same c' ∧ run e words c = conclude e.explain (perform e command) c' := by
  obtain ⟨c', hsame, -, hrun⟩ := run_after_greeting hread hcommand hload
  exact ⟨c', hsame, hrun⟩

/-- The command asks whether to go on. -/
def Command.asks : Command → Bool
  | .remove _ yes _ => !yes
  | .forgetList _ yes => !yes
  | _ => false

/-- Whatever is done, at most the last thing that can fail writes a file. -/
theorem ends_perform (h : IsPlain e c) {command : Command} (htell : command.CanTell e c)
    (hshell : ∀ list, command ≠ .shell list) :
    Ends (perform e command) c
      (fun _ c' => command.asks = true → (firstAnswer c.input).1 = some false → c'.disk = c.disk)
      (Spared c) := by
  have hlooks : ∀ {a : Action Unit}, Looks a → ∀ asks : Bool,
      Ends a c (fun _ c' => asks = true → (firstAnswer c.input).1 = some false → c'.disk = c.disk)
        (Spared c) :=
    fun ha _ => (ha c).imp (fun _ _ hsame _ _ => hsame.disk) fun _ hsame => spared_of_eq hsame.disk
  cases command with
  | add words list => exact (ends_addItem h words list).imp (fun _ _ _ => nofun) fun _ h => h
  | list query sort list => exact hlooks (looks_listItems query sort list) _
  | status word query list =>
    exact (ends_setStatus h word query list).imp (fun _ _ _ => nofun) fun _ h => h
  | tag tag query remove list =>
    exact (ends_setTag h tag query remove list).imp (fun _ _ _ => nofun) fun _ h => h
  | remove query yes list =>
    refine (ends_removeItems h query yes list).imp (fun _ _ hdone hasks => ?_) fun _ h => h
    exact hdone (by simpa [Command.asks] using hasks)
  | shell list => exact absurd rfl (hshell list)
  | newList name path => exact (ends_newList htell).imp (fun _ _ _ => nofun) fun _ h => h
  | forgetList name yes =>
    refine (ends_forgetList htell).imp (fun _ _ hdone hasks => ?_) fun _ h => h
    exact hdone (by simpa [Command.asks] using hasks)
  | showLists => exact hlooks looks_showLists _
  | useList name => exact (ends_useList name).imp (fun _ _ _ => nofun) fun _ h => h

end TodoLists.CommandLine
