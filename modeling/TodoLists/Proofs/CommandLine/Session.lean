import TodoLists.Proofs.CommandLine.OwnRegistry

/-!
# Sessions

A session is a row of runs of the program on one disk. From an empty configuration, and as long as
every list is registered by a name that is one part of a path, the disk stays orderly: the
configuration is where it was at the start, and every list that it registers has its own file.
-/

namespace TodoLists.CommandLine

open Console

/-- If the command registers a list, then by its name alone. -/
def Command.RegistersByName : Command → Prop
  | .newList name path => path = none ∧ IsPlainName name
  | _ => True

/-- If the words register a list, then by its name alone. -/
def RegistersByName (words : List String) : Prop :=
  ∀ i command, Invocation.read words = .ok i → Command.read i.rest i.topic = .ok command →
    command.RegistersByName

/-- Runs of the program one after the other, each with its own input, supply of ids and screen. -/
inductive Session (e : Environment) (start : Disk) : Disk → Prop where
  | start : Session e start start
  | run {d : Disk} (h : Session e start d) (words : List String) (supply : Supply)
      (input : List String) (screen : Screen) (hwords : RegistersByName words) :
      Session e start (run e words (.start d supply input screen)).2.disk

variable {e : Environment} {start d d' : Disk} {config : Config} {command : Command}

theorem registersByName_of_list? {list : Option String} (h : command.list? = some list) :
    command.RegistersByName := by
  cases command with
  | newList => cases h
  | _ => trivial

/-- What holds between the runs: the configuration is kept where it was at the start, and it registers
lists by their names alone. -/
structure IsOrderly (e : Environment) (start d : Disk) : Prop where
  tree : d.IsTree
  folder : d.folder = start.folder
  configFolder : e.configFolder d = e.configFolder start
  settled : e.IsSettled d
  stored : ∀ content, d.node? (d.placeOf (e.configPath start)) = some (.file content) →
    ∃ names config, Config.decode content = .ok config ∧ config.HasOwnFiles e start names

namespace IsOrderly

variable (h : IsOrderly e start d)

include h

theorem configPath : e.configPath d = e.configPath start := by
  rw [Environment.configPath, h.configFolder, Environment.configPath]

theorem ownFile (name : String) : e.ownFile d name = e.ownFile start name := by
  rw [Environment.ownFile, Environment.stem, h.configFolder, h.folder, Environment.ownFile,
    Environment.stem]

theorem load (hload : Config.load e d = .ok config) :
    ∃ names, config.HasOwnFiles e start names := by
  rcases Config.loadFrom_eq_ok hload with rfl | ⟨-, content, hread, hdecode⟩
  · exact ⟨[], Config.hasOwnFiles_default e start⟩
  · obtain ⟨place, hlocate, hfile⟩ := Disk.read_eq_ok_iff.1 hread
    rw [Disk.eq_placeOf_of_locate hlocate, h.configPath] at hfile
    obtain ⟨names, config', hdecode', hown⟩ := h.stored content hfile
    cases hdecode.symm.trans hdecode'
    exact ⟨names, hown⟩

variable (hnamed : e.IsNamed start.folder)

include hnamed

theorem isNamed : e.IsNamed d.folder := h.folder ▸ hnamed

/-- Of what a run writes, only the configuration can need a closer look. -/
theorem of_writesOnly {p : Path} (hp : p = e.configPath start ∨ ∃ n, p = e.ownFile start n)
    (hwrites : d.WritesOnly p d')
    (hstored : ∀ content, d'.node? (d.placeOf (e.configPath start)) = some (.file content) →
      ∃ names config, Config.decode content = .ok config ∧ config.HasOwnFiles e start names) :
    IsOrderly e start d' := by
  have hp' : p = e.configPath d ∨ ∃ n, p = e.ownFile d n := by
    simpa only [h.configPath, h.ownFile] using hp
  obtain ⟨hfolder, hsettled⟩ := Environment.configFolder_of_writesOnly (h.isNamed hnamed) h.tree
    h.settled hp' hwrites
  refine ⟨hwrites.tree h.tree, hwrites.folder.trans h.folder, hfolder.trans h.configFolder,
    hsettled, ?_⟩
  rwa [Disk.placeOf_congr hwrites.folder]

theorem makes {config' : Config} (hcommand : command.RegistersByName)
    (hload : Config.load e d = .ok config) (hmakes : command.Makes e d config config') :
    ∃ names, config'.HasOwnFiles e start names := by
  obtain ⟨names, hown⟩ := h.load hload
  cases command with
  | newList name path =>
    obtain ⟨rfl, hname⟩ := hcommand
    obtain ⟨full, hfull, hadd⟩ := hmakes
    rw [Environment.eq_ownFile (h.isNamed hnamed) hname hfull, h.ownFile] at hadd
    exact ⟨_, hown.addList hname hadd⟩
  | forgetList name yes =>
    obtain ⟨path, hremove⟩ := hmakes
    exact ⟨_, hown.removeList hremove⟩
  | useList name =>
    obtain ⟨current, path, hresolve, rfl⟩ := hmakes
    exact ⟨_, hown.useList hnamed hresolve⟩
  | _ => cases hmakes

theorem change (hcommand : command.RegistersByName) (hchange : Change e command d d') :
    IsOrderly e start d' := by
  cases hchange with
  | none => exact h
  | items hlist hload hresolve hwrites =>
    obtain ⟨names, hown⟩ := h.load hload
    obtain ⟨n, hn, -, rfl⟩ := hown.resolve_eq_ok hnamed hresolve
    refine h.of_writesOnly hnamed (Or.inr ⟨n, rfl⟩) hwrites fun content hfile => ?_
    have hne := (Environment.placeOf_ownFile_ne_config hnamed (n := n) d d).symm
    exact h.stored content ((hwrites.file_iff hne content).1 hfile)
  | @registry config config' hload hmakes =>
    obtain ⟨names, hown⟩ := h.makes hnamed hcommand hload hmakes
    have hwrites := Config.writesOnly_save config' e d
    rw [h.configPath] at hwrites
    refine h.of_writesOnly hnamed (Or.inl rfl) hwrites fun content hfile => ?_
    rw [← h.configPath] at hfile
    rcases Config.file_save hfile with hkept | rfl
    · exact h.stored content (h.configPath ▸ hkept)
    · exact ⟨names, config', (hown.isTextual hnamed).isTyped.decode_write, hown⟩

theorem path_eq_ownFile (hload : Config.load e d = .ok config) {n : String} {p : Path}
    (hp : config.listPath n = .ok p) : p = e.ownFile start n := by
  obtain ⟨names, hown⟩ := h.load hload
  obtain ⟨m, -, heq, rfl⟩ := hown.findPath_eq_ok hnamed hp
  rw [LooseText.ofString_inj.1 heq]

/-- A command on items works in the file of one list, and all others are elsewhere. -/
theorem spares {list : Option String} (hlist : command.list? = some list)
    (hload : Config.load e d = .ok config) (hchange : Change e command d d') :
    Config.load e d' = .ok config ∧ ∀ n p, config.listPath n = .ok p → p.Fits →
      config.resolve list ≠ .ok (.str n, p) → ListFile.load d' p = ListFile.load d p := by
  have hkept := h.change hnamed (registersByName_of_list? hlist) hchange
  rcases hchange.of_list hlist with rfl | ⟨config', name, q, hload', hresolve, hwrites⟩
  · exact ⟨hload, fun _ _ _ _ _ => rfl⟩
  · cases hload.symm.trans hload'
    obtain ⟨names, hown⟩ := h.load hload
    obtain ⟨m, hm, rfl, rfl⟩ := hown.resolve_eq_ok hnamed hresolve
    constructor
    · have hne := (Environment.placeOf_ownFile_ne_config hnamed (n := m) d d).symm
      rcases Config.loadFrom_eq_ok hload with rfl | ⟨hhas, -⟩
      · rw [List.map_eq_nil_iff.1 hown.lists.symm] at hm
        cases hm
      · rw [h.configPath] at hhas
        rw [Config.load, hkept.configPath, Config.loadFrom_eq_of_writesOnly hwrites hne hhas,
          ← h.configPath]
        exact hload
    · intro n p hp hfits hother
      obtain rfl := h.path_eq_ownFile hnamed hload hp
      have hne : n ≠ m := by
        rintro rfl
        exact hother hresolve
      exact ListFile.load_eq_of_writesOnly hwrites h.tree (Environment.isStraight_ownFile hnamed)
        hfits (Environment.placeOf_ownFile_ne hnamed hne d)

theorem run (words : List String) (supply : Supply) (input : List String) (screen : Screen)
    (hwords : RegistersByName words) :
    IsOrderly e start (run e words (.start d supply input screen)).2.disk := by
  rcases run_change e words (.start d supply input screen) with
    hdisk | ⟨i, command, hread, hcommand, hchange⟩
  · rw [hdisk]
    exact h
  · exact h.change hnamed (hwords i command hread hcommand) hchange

end IsOrderly

/-- No configuration is kept yet, or an empty one. -/
def StartsEmpty (e : Environment) (start : Disk) : Prop :=
  ∀ content, start.node? (start.placeOf (e.configPath start)) = some (.file content) →
    Config.decode content = .ok .default

section

variable (hnamed : e.IsNamed start.folder) (htree : start.IsTree) (hsettled : e.IsSettled start)
  (hempty : StartsEmpty e start) (hsession : Session e start d)

include hnamed htree hsettled hempty hsession

theorem isOrderly_of_session : IsOrderly e start d := by
  induction hsession with
  | start =>
    refine ⟨htree, rfl, rfl, hsettled, fun content hfile => ?_⟩
    exact ⟨[], .default, hempty content hfile, Config.hasOwnFiles_default e start⟩
  | run _ words supply input screen hwords ih => exact ih.run hnamed words supply input screen hwords

end

end TodoLists.CommandLine
