import TodoLists.Proofs.CommandLine.Commands

/-!
# Command lines that fail

A command line that ends with an exit code other than 0, or with an answer that declines what it
asks, leaves every file as it was. It takes a configuration whose current list has a text for a name
if it has one. The program does not insist on that, and a list with another name is saved before the
name cannot be shown. A list that is registered or forgotten has to have a path that can be shown,
as any path without a closing bracket can, for the configuration is saved first here too.
-/

namespace TodoLists.CommandLine

open Console

variable {e : Environment} {c : Console}

/-- The words make a command that asks whether to go on, and the first answer to it is a no. -/
def Declines (words input : List String) : Prop :=
  ∃ i command, Invocation.read words = .ok i ∧ Command.read i.rest i.topic = .ok command ∧
    command.asks = true ∧ (firstAnswer input).1 = some false

/-- The words open the shell. -/
def OpensShell (words : List String) : Prop :=
  ∃ i list, Invocation.read words = .ok i ∧ Command.read i.rest i.topic = .ok (.shell list)

/-- What the words make the program tell at the end can be shown. -/
def CanTell (e : Environment) (words : List String) (c : Console) : Prop :=
  ∀ i command, Invocation.read words = .ok i → Command.read i.rest i.topic = .ok command →
    command.CanTell e c

theorem spared_run {words : List String} (h : IsPlain e c) (htell : CanTell e words c)
    (hshell : ¬ OpensShell words)
    (hend : (run e words c).1 ≠ 0 ∨ Declines words c.input) : Spared c (run e words c).2 := by
  rw [run] at hend ⊢
  cases hread : Invocation.read words with
  | error r => exact spared_of_eq rfl
  | ok i =>
    simp only [hread] at hend ⊢
    have hlooks : Looks (setUp e i.verbose) := looks_setUp i.verbose
    have hsetUp := conclude_of_ends e.explain (hlooks c)
    generalize conclude e.explain (setUp e i.verbose) c = r at hsetUp hend ⊢
    obtain ⟨code, c₁⟩ := r
    rcases hsetUp with ⟨rfl, hsame⟩ | ⟨rfl, c', hsame, hdisk⟩
    · simp only [ne_eq, not_true_eq_false, if_false] at hend ⊢
      cases hcommand : Command.read i.rest i.topic with
      | error r => exact spared_of_eq hsame.disk
      | ok command =>
        simp only [hcommand] at hend ⊢
        have hnoShell : ∀ list, command ≠ .shell list := by
          rintro list rfl
          exact hshell ⟨i, list, hread, hcommand⟩
        have hends := ends_perform (h.of_same hsame)
          ((htell i command hread hcommand).of_same hsame) hnoShell
        rcases conclude_of_ends e.explain hends with ⟨hcode, hdone⟩ | ⟨-, c', hspared, hdisk⟩
        · rcases hend with hne | ⟨i', command', hread', hcommand', hasks, hno⟩
          · exact absurd hcode hne
          · cases hread.symm.trans hread'
            cases hcommand.symm.trans hcommand'
            rw [← hsame.input] at hno
            exact spared_of_eq ((hdone hasks hno).trans hsame.disk)
        · rw [Spared, hdisk, ← hsame.disk]
          exact hspared
    · exact spared_of_eq (hdisk.trans hsame.disk)

/-- The value of a configuration with one list, which is the current one. -/
def registry (name : Json) : Json :=
  .obj [("lists", .arr [.arr [name, .str "/list"]]), ("current", name)]

/-- A console with that configuration. The list has no file yet. -/
def registered (name : Json) : Console :=
  .start ⟨[], [(["todoq"], .folder),
    (["todoq", "config.json"], .file (registry name).write.toUTF8)]⟩ (.ofList [7]) ["n"]
    (.styled .byName)

/-- Configurations are kept in a folder of the root folder. -/
def atRoot : Environment := ⟨⟨.root, []⟩, [], some "/", Cause.describe⟩

theorem configPath_atRoot (d : Disk) :
    atRoot.configPath d = ⟨.root, ["todoq", "config.json"]⟩ := rfl

theorem locate_configPath (d : Disk) :
    d.locate ⟨.root, ["todoq", "config.json"]⟩ = d.walk [] ["todoq", "config.json"] := by
  have hnames : (["todoq", "config.json"] : List LooseText).map DiskName.normalize =
      ["todoq", "config.json"] := by decide +kernel
  have hcheck : Path.check ⟨.root, ["todoq", "config.json"]⟩ = .ok () := by cbv
  rw [Disk.locate, hcheck, Path.partsFrom]
  simp only [hnames]
  rfl

theorem locate_config (content : ByteArray) :
    (Disk.mk [] [(["todoq"], .folder), (["todoq", "config.json"], .file content)]).locate
      ⟨.root, ["todoq", "config.json"]⟩ = .ok ["todoq", "config.json"] :=
  locate_configPath _

theorem locate_list (d : Disk) : d.locate (.ofText "/list") = .ok ["list"] := by
  have hpath : Path.ofText "/list" = ⟨.root, ["list"]⟩ := by decide
  rw [hpath]
  cbv

section

variable {name : Json} (hname : name.Regular fun _ => False) (hscalar : name.isScalar = true)

include hname in
theorem regular_registry : (registry name).Regular fun _ => False := by
  have hjoined := LooseText.isJoined_ofString
  refine .obj (by simp [LooseText.ofString_inj]) (by simp [hjoined]) ?_
  simp only [List.forall_mem_cons]
  refine ⟨.arr (List.forall_mem_singleton.2 (.arr ?_)), hname, List.forall_mem_nil _⟩
  exact List.forall_mem_cons.2 ⟨hname, List.forall_mem_singleton.2 (.str (hjoined _))⟩

include hscalar in
theorem ofJson_registry :
    Config.ofJson (registry name) = .ok ⟨[(name, .str "/list")], name, .default⟩ := by
  cases name with
  | arr | obj => cases hscalar
  | _ => rfl

theorem load_list (name : Json) :
    ListFile.load (registered name).disk (.ofText "/list") = .ok .empty := by
  rw [ListFile.load, Disk.has, locate_list]
  rfl

include hname hscalar

theorem load_registered : Config.load atRoot (registered name).disk =
    .ok ⟨[(name, .str "/list")], name, .default⟩ := by
  have hlocate := locate_config (registry name).write.toUTF8
  have hhas : (registered name).disk.has ⟨.root, ["todoq", "config.json"]⟩ = .ok true := by
    rw [Disk.has, registered, Console.start, hlocate]
    rfl
  have hread : (registered name).disk.read ⟨.root, ["todoq", "config.json"]⟩ =
      .ok (registry name).write.toUTF8 := by
    rw [Disk.read, registered, Console.start, hlocate]
    rfl
  rw [Config.load, configPath_atRoot, Config.loadFrom, hhas]
  simp only [hread]
  rw [Config.decode, fromUTF8?_toUTF8]
  simp only [ListFile.parse, Json.read_write (regular_registry hname), bind, Except.bind,
    ofJson_registry hscalar]
  rfl

theorem hasPlainLists_registered : HasPlainLists atRoot (registered name) := by
  intro config hconfig entry hentry t ht l hl
  cases (load_registered hname hscalar).symm.trans hconfig
  cases List.mem_singleton.1 hentry
  cases ht
  cases (load_list name).symm.trans hl
  refine ⟨fun e he => absurd he List.not_mem_nil, ?_⟩
  have hdrawn : ((registered name).supply.next (ItemList.empty.ids.map ItemId.value)).1 = 7 :=
    Supply.next_of_not_mem List.not_mem_nil
  rw [hdrawn]
  decide

theorem ends_loadConfig_registered {now : Console} (hsame : (registered name).Same now)
    {done : Config → Console → Prop} {failed : Console → Prop} :
    Ends (loadConfig atRoot) now done failed ↔
      done ⟨[(name, .str "/list")], name, .default⟩ now := by
  rw [loadConfig, ends_bind, ends_get, hsame.disk, load_registered hname hscalar, ends_ofExcept_ok]

/-- The desk on which the list is opened. -/
theorem ends_openList_registered {now : Console} (hsame : (registered name).Same now)
    (hresolve : Config.resolve ⟨[(name, .str "/list")], name, .default⟩ none =
      .ok (name, .ofText "/list")) {done : Json × Desk → Console → Prop} {failed : Console → Prop}
    (hdone : done (name, ⟨⟨Config.spell name, .ofText "/list", .empty⟩, (registered name).disk,
      (registered name).supply⟩) now) : Ends (openList atRoot none) now done failed := by
  rw [openList, ends_bind, ends_loadConfig_registered hname hscalar hsame, openDesk, ends_bind,
    hresolve, ends_ofExcept_ok]
  simp only
  rw [ends_bind, ends_get, ends_bind, hsame.disk, hsame.supply, Desk.load, load_list]
  exact hdone

/-- A command that fails ends the run with the exit code 1. -/
theorem run_registered {words : List String} {i : Invocation} {command : Command}
    (hread : Invocation.read words = .ok i) (hcommand : Command.read i.rest i.topic = .ok command)
    {failed : Console → Prop} (hends : ∀ now, (registered name).Same now →
      Ends (perform atRoot command) now (fun _ _ => False) failed) :
    (run atRoot words (registered name)).1 = 1 ∧
      ∃ c', failed c' ∧ (run atRoot words (registered name)).2.disk = c'.disk := by
  obtain ⟨now, hsame, hrun⟩ := run_of_load hread hcommand (load_registered hname hscalar)
  rw [hrun]
  rcases conclude_of_ends atRoot.explain (hends now hsame) with ⟨-, hfalse⟩ | hfailed
  · exact hfalse.elim
  · exact hfailed

end

theorem not_opensShell {words : List String} {i : Invocation} {command : Command}
    (hread : Invocation.read words = .ok i) (hcommand : Command.read i.rest i.topic = .ok command)
    (hshell : ∀ list, command ≠ .shell list) : ¬ OpensShell words := by
  rintro ⟨i', list, hread', hcommand'⟩
  cases hread.symm.trans hread'
  cases hcommand.symm.trans hcommand'
  exact hshell list rfl

theorem canTell_of_command {words : List String} {i : Invocation} {command : Command}
    (hread : Invocation.read words = .ok i) (hcommand : Command.read i.rest i.topic = .ok command)
    (h : command.CanTell e c) : CanTell e words c := by
  intro i' command' hread' hcommand'
  cases hread.symm.trans hread'
  cases hcommand.symm.trans hcommand'
  exact h

/-- The file was written where there was none. -/
theorem exists_file_after_add (name : Json) {line : String}
    (hline : (Draft.ofLine line.toList).name ≠ "") :
    ∃ content, (Desk.add ⟨⟨Config.spell name, .ofText "/list", .empty⟩, (registered name).disk,
      (registered name).supply⟩ line).2.disk.node? ["list"] = some (.file content) := by
  have hempty : ItemList.empty.HasLooseTexts := fun e he => absurd he List.not_mem_nil
  have hfolders : (registered name).disk.ensureFolders (Path.ofText "/list").parent =
      (.ok (), (registered name).disk) := by
    rw [Disk.ensureFolders]
    rfl
  have hnone : (registered name).disk.node? ["list"] = none := rfl
  have hopen : (registered name).disk.write (.ofText "/list") ByteArray.empty =
      .ok ((registered name).disk.put ["list"] (.file ByteArray.empty)) :=
    Disk.write_eq_ok_iff.2 ⟨_, locate_list _, by simp [hnone], rfl⟩
  obtain ⟨v, hv⟩ := ListFile.exists_ofList?_of_hasLooseTexts
    (hempty.add (Draft.ofLine line.toList) (registered name).supply)
  obtain ⟨d, hwrite, hsave⟩ := ListFile.exists_save hv hfolders hopen
  obtain ⟨place, hlocate, -, rfl⟩ := Disk.write_eq_ok_iff.1 hwrite
  cases (locate_list _).symm.trans hlocate
  refine ⟨v.write.toUTF8, ?_⟩
  have hdisk := Desk.disk_add (d := ⟨⟨Config.spell name, .ofText "/list", .empty⟩,
    (registered name).disk, (registered name).supply⟩) hline
  rw [hdisk]
  exact (congrArg (fun r => r.2.node? ["list"]) hsave).trans
    ((Disk.node?_put _ (by decide) _ _).trans (if_pos rfl))

/-- A list that can be registered is registered, and if its path cannot be told then the run fails
after that. -/
theorem run_newList {words : List String} {i : Invocation} {name : String} {path : Option Path}
    {full : Path} {config config' : Config} (hread : Invocation.read words = .ok i)
    (hcommand : Command.read i.rest i.topic = .ok (.newList name path))
    (hload : Config.load e c.disk = .ok config)
    (hfull : fullPath e c.disk (newListPath e c.disk name path) = .ok full)
    (hadd : config.addList name full = .ok config') :
    (run e words c).2.disk = (config'.save e c.disk).2 ∧
      (¬ (Command.newList name path).CanTell e c → (run e words c).1 = 1) := by
  obtain ⟨now, hsame, hrun⟩ := run_of_load hread hcommand hload
  have hends : Ends (newList e name path) now
      (fun _ c' => (Command.newList name path).CanTell e c ∧ c'.disk = (config'.save e c.disk).2)
      fun c' => c'.disk = (config'.save e c.disk).2 := by
    rw [newList, ends_bind, ends_loadConfig, hsame.disk, hload]
    refine ⟨?_, by simp⟩
    rintro _ ⟨⟩
    rw [ends_bind, ends_get, ends_bind, hsame.disk, hfull, Except.mapError, ends_ofExcept_ok,
      ends_bind, hadd, ends_ofExcept_ok, ends_bind, saveConfig, ends_onDisk, hsame.disk]
    refine ⟨fun _ _ => (ends_put _).2 ⟨fun hshown => ⟨?_, rfl⟩, fun _ => rfl⟩, fun _ => rfl⟩
    rw [hsame.screen] at hshown
    exact hshown
  rw [hrun]
  rcases conclude_of_ends e.explain hends with ⟨-, htell, hdisk⟩ | ⟨hcode, c', hdisk, hkept⟩
  · exact ⟨hdisk, fun hnot => absurd htell hnot⟩
  · exact ⟨hkept.trans hdisk, fun _ => hcode⟩

end TodoLists.CommandLine
