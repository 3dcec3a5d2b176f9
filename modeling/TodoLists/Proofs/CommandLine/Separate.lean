import TodoLists.Proofs.CommandLine.Failure
import TodoLists.Proofs.CommandLine.Session

/-!
# Lists do not interfere

As long as every list is registered by a name that is one part of a path, no two lists ever share a
file and no list is kept in the file of the configuration. So a command on the items of one list
leaves the registry and all other lists as they were. A name with slashes in it can lead out of the
folder for lists, and then all this fails.
-/

namespace TodoLists.CommandLine

open Console

variable {e : Environment} {start d : Disk} {config : Config}

/-- Different lists are kept in different files, none of which is the configuration, and a command
on the items of one list leaves the registry and the other lists as they are. -/
theorem lists_do_not_interfere (hnamed : e.IsNamed start.folder) (htree : start.IsTree)
    (hsettled : e.IsSettled start) (hempty : StartsEmpty e start) (hsession : Session e start d)
    (hload : Config.load e d = .ok config) :
    (∀ m n p q, m ≠ n → config.listPath m = .ok p → config.listPath n = .ok q →
      d.placeOf p ≠ d.placeOf q) ∧
    (∀ n p, config.listPath n = .ok p → d.placeOf p ≠ d.placeOf (e.configPath d)) ∧
    ∀ words supply input screen i command list, Invocation.read words = .ok i →
      Command.read i.rest i.topic = .ok command → command.list? = some list →
      Config.load e (run e words (.start d supply input screen)).2.disk = .ok config ∧
      ∀ n p, config.listPath n = .ok p → p.Fits → config.resolve list ≠ .ok (.str n, p) →
        ListFile.load (run e words (.start d supply input screen)).2.disk p =
          ListFile.load d p := by
  have horderly := isOrderly_of_session hnamed htree hsettled hempty hsession
  refine ⟨fun m n p q hne hp hq => ?_, fun n p hp => ?_, ?_⟩
  · rw [horderly.path_eq_ownFile hnamed hload hp, horderly.path_eq_ownFile hnamed hload hq]
    have hplace := Environment.placeOf_ownFile_ne hnamed hne d (e.ownFile start n).parts.length
    rwa [Path.upTo_length] at hplace
  · rw [horderly.path_eq_ownFile hnamed hload hp, horderly.configPath]
    exact Environment.placeOf_ownFile_ne_config hnamed d d
  · intro words supply input screen i command list hread hcommand hlist
    rcases run_change e words (.start d supply input screen) with
      hdisk | ⟨i', command', hread', hcommand', hchange⟩
    · rw [hdisk]
      exact ⟨hload, fun _ _ _ _ _ => rfl⟩
    · cases hread.symm.trans hread'
      cases hcommand.symm.trans hcommand'
      exact horderly.spares hnamed hlist hload hchange

/-! ### Two lists -/

/-- A disk with nothing on it. -/
def bare : Disk := ⟨[], []⟩

/-- A disk with nothing on it but a configuration. -/
def keeping (config : Config) : Disk :=
  ⟨[], [(["todoq"], .folder), (["todoq", "config.json"], .file config.toJson.write.toUTF8)]⟩

theorem isTree_bare : bare.IsTree := by
  intro place part hsome
  rw [Disk.node?, if_neg (by simp)] at hsome
  cases hsome

theorem isSettled_atRoot (d : Disk) : atRoot.IsSettled d := Or.inl ⟨"/", rfl, by decide⟩

theorem load_bare : Config.load atRoot bare = .ok .default := by
  have hhas : bare.has ⟨.root, ["todoq", "config.json"]⟩ = .ok false := by
    rw [Disk.has, locate_configPath]
    rfl
  rw [Config.load, configPath_atRoot, Config.loadFrom, hhas]

theorem load_keeping (h : config.IsTextual) : Config.load atRoot (keeping config) = .ok config := by
  have hhas : (keeping config).has ⟨.root, ["todoq", "config.json"]⟩ = .ok true := by
    rw [Disk.has, keeping, locate_config]
    rfl
  have hread : (keeping config).read ⟨.root, ["todoq", "config.json"]⟩ =
      .ok config.toJson.write.toUTF8 := by
    rw [Disk.read, keeping, locate_config]
    rfl
  rw [Config.load, configPath_atRoot, Config.loadFrom, hhas]
  simp only [hread, h.isTyped.decode_write]
  rfl

theorem locate_configFolder (d : Disk) : d.locate ⟨.root, ["todoq"]⟩ = .ok ["todoq"] := by
  cbv

/-- Saving works once the folder is there. -/
theorem save_atRoot {d d₁ d₂ : Disk} (hfolders : d.ensureFolders ⟨.root, ["todoq"]⟩ = (.ok (), d₁))
    (hwrite : d₁.write ⟨.root, ["todoq", "config.json"]⟩ config.toJson.write.toUTF8 = .ok d₂) :
    (config.save atRoot d).2 = d₂ := by
  have hparent : (⟨.root, ["todoq", "config.json"]⟩ : Path).parent = ⟨.root, ["todoq"]⟩ := rfl
  rw [Config.save, configPath_atRoot, Config.saveTo, hparent, hfolders]
  simp only [hwrite]

theorem save_bare (config : Config) : (config.save atRoot bare).2 = keeping config := by
  have hmake : bare.makeFolder ⟨.root, ["todoq"]⟩ = .ok ⟨[], [(["todoq"], .folder)]⟩ :=
    Disk.makeFolder_eq_ok_iff.2 ⟨_, locate_configFolder _, rfl, rfl⟩
  have hfolders : bare.ensureFolders ⟨.root, ["todoq"]⟩ =
      (.ok (), ⟨[], [(["todoq"], .folder)]⟩) := by
    rw [Disk.ensureFolders, hmake]
  refine save_atRoot hfolders (Disk.write_eq_ok_iff.2 ⟨_, locate_configPath _, ?_, rfl⟩)
  decide

theorem save_keeping (config config' : Config) :
    (config'.save atRoot (keeping config)).2 = keeping config' := by
  have hmake : (keeping config).makeFolder ⟨.root, ["todoq"]⟩ = .error .alreadyThere := by
    rw [Disk.makeFolder, locate_configFolder]
    rfl
  have hthere : (keeping config).hasFolder ⟨.root, ["todoq"]⟩ = true := by
    rw [Disk.hasFolder, Disk.at?, locate_configFolder]
    rfl
  have hfolders : (keeping config).ensureFolders ⟨.root, ["todoq"]⟩ = (.ok (), keeping config) := by
    rw [Disk.ensureFolders, hmake]
    simp only [hthere, if_true]
  refine save_atRoot hfolders (Disk.write_eq_ok_iff.2 ⟨_, locate_configPath _, ?_, rfl⟩)
  intro hfolder
  cases hfolder

theorem registersByName_of_read {words : List String} {i : Invocation} {command : Command}
    (hread : Invocation.read words = .ok i) (hcommand : Command.read i.rest i.topic = .ok command)
    (h : command.RegistersByName) : RegistersByName words := by
  intro i' command' hread' hcommand'
  cases hread.symm.trans hread'
  cases hcommand.symm.trans hcommand'
  exact h

/-- A configuration with these lists. -/
def listing (lists : List (String × String)) (current : String) : Config :=
  ⟨lists.map fun l => (.str l.1, .str l.2), .str current, .default⟩

theorem isTextual_listing {lists : List (String × String)} {current : String}
    (h : (lists.map (·.1)).Nodup) : (listing lists current).IsTextual where
  lists l hl := by
    obtain ⟨entry, -, rfl⟩ := List.mem_map.1 hl
    exact ⟨_, _, rfl, LooseText.isJoined_ofString _, LooseText.isJoined_ofString _⟩
  distinct := by
    have hnames : (listing lists current).lists.map (fun l => l.1.keyText) =
        (lists.map (·.1)).map LooseText.ofString := by
      simp [listing, Function.comp_def, Json.keyText]
    rw [hnames]
    exact h.map fun _ _ => LooseText.ofString_inj.1
  current := Or.inr ⟨_, rfl, LooseText.isJoined_ofString _⟩
  options := rfl

theorem read_newList (name : String) : Invocation.read ["lists", "new", name] =
    .ok ⟨false, .lists, ["new", name]⟩ := by
  rw [Invocation.read, readGroup, readGiven, Given.read?]
  rfl

section

variable {name text : String} {full : Path}
  (hcommand : Command.read ["new", name] .lists = .ok (.newList name none))
  (htext : full.toText = .ofString text) (supply : Supply) (input : List String) (screen : Screen)

include hcommand htext

theorem run_newList_bare
    (hfull : fullPath atRoot bare (newListPath atRoot bare name none) = .ok full) :
    (run atRoot ["lists", "new", name] (.start bare supply input screen)).2.disk =
      keeping (listing [(name, text)] name) := by
  have hadd : Config.default.addList name full = .ok (listing [(name, text)] name) := by
    rw [Config.addList, htext]
    rfl
  rw [← save_bare]
  exact (run_newList (c := .start bare supply input screen) (read_newList name) hcommand load_bare
    hfull hadd).1

theorem run_newList_keeping {lists : List (String × String)} {current : String}
    (hdistinct : (lists.map (·.1)).Nodup) (hnew : name ∉ lists.map (·.1))
    (hfull : fullPath atRoot (keeping (listing lists current))
      (newListPath atRoot (keeping (listing lists current)) name none) = .ok full) :
    (run atRoot ["lists", "new", name]
      (.start (keeping (listing lists current)) supply input screen)).2.disk =
        keeping (listing (lists ++ [(name, text)]) current) := by
  have hnone : (listing lists current).isRegistered name = false := by
    rw [Config.isRegistered, Config.pathOf?, listing, List.find?_map, Option.isSome_map,
      Option.isSome_map, Option.isSome_eq_false_iff, Option.isNone_iff_eq_none, List.find?_eq_none]
    intro l hl hsame
    have hname : l.1 = name := LooseText.ofString_inj.1 (beq_iff_eq.1 hsame)
    exact hnew (hname ▸ List.mem_map_of_mem hl)
  have hadd : (listing lists current).addList name full =
      .ok (listing (lists ++ [(name, text)]) current) := by
    rw [Config.addList, hnone, htext, listing, listing, List.map_append]
    rfl
  have hload : Config.load atRoot (keeping (listing lists current)) =
      .ok (listing lists current) :=
    load_keeping (isTextual_listing hdistinct)
  exact ((run_newList (c := .start (keeping (listing lists current)) supply input screen)
    (read_newList name) hcommand hload hfull hadd).1).trans (save_keeping _ _)

end

/-- Two lists that were registered by their names. -/
def twoLists : Config :=
  listing [("chores", "/todoq/lists/chores.json"), ("work", "/todoq/lists/work.json")] "chores"

theorem session_twoLists : Session atRoot bare (keeping twoLists) := by
  have hchores : Command.read ["new", "chores"] .lists = .ok (.newList "chores" none) := by
    decide +kernel
  have hwork : Command.read ["new", "work"] .lists = .ok (.newList "work" none) := by
    decide +kernel
  have hchoresFile : fullPath atRoot bare (newListPath atRoot bare "chores" none) =
      .ok ⟨.root, ["todoq", "lists", "chores.json"]⟩ := rfl
  have hworkFile : ∀ d, fullPath atRoot d (newListPath atRoot d "work" none) =
      .ok ⟨.root, ["todoq", "lists", "work.json"]⟩ := fun _ => rfl
  have hfirst : Session atRoot bare
      (keeping (listing [("chores", "/todoq/lists/chores.json")] "chores")) := by
    rw [← run_newList_bare hchores (by decide) (.ofList []) [] (.styled .byName) hchoresFile]
    exact Session.start.run _ _ _ _
      (registersByName_of_read (read_newList _) hchores ⟨rfl, by decide⟩)
  have hsecond : (run atRoot ["lists", "new", "work"] (.start (keeping
      (listing [("chores", "/todoq/lists/chores.json")] "chores")) (.ofList []) []
        (.styled .byName))).2.disk = keeping twoLists :=
    run_newList_keeping hwork (by decide) _ _ _ (by decide) (by decide) (hworkFile _)
  rw [← hsecond]
  exact hfirst.run _ _ _ _ (registersByName_of_read (read_newList _) hwork ⟨rfl, by decide⟩)

theorem lists_do_not_interfere_chores :
    let chores : Path := ⟨.root, ["todoq", "lists", "chores.json"]⟩
    let work : Path := ⟨.root, ["todoq", "lists", "work.json"]⟩
    let d := (run atRoot ["add", "milk", "--list", "work"]
      (.start (keeping twoLists) (.ofList []) [] (.styled .byName))).2.disk
    twoLists.listPath "chores" = .ok chores ∧ twoLists.listPath "work" = .ok work ∧
    (keeping twoLists).placeOf chores ≠ (keeping twoLists).placeOf work ∧
    Config.load atRoot d = .ok twoLists ∧
    ListFile.load d chores = ListFile.load (keeping twoLists) chores := by
  intro chores work d
  have hnamed : atRoot.IsNamed bare.folder := by
    constructor <;> intro _ h <;> cases h
  have hempty : StartsEmpty atRoot bare := by
    intro content hfile
    rw [Disk.node?] at hfile
    split at hfile <;> cases hfile
  have hload : Config.load atRoot (keeping twoLists) = .ok twoLists :=
    load_keeping (isTextual_listing (by decide))
  have hchores : twoLists.listPath "chores" = .ok chores := rfl
  have hwork : twoLists.listPath "work" = .ok work := rfl
  have hread : Invocation.read ["add", "milk", "--list", "work"] =
      .ok ⟨false, .add, ["milk", "--list", "work"]⟩ := by decide +kernel
  have hcommand : Command.read ["milk", "--list", "work"] .add =
      .ok (.add ["milk"] (some "work")) := by decide +kernel
  obtain ⟨hplaces, -, hitems⟩ :=
    lists_do_not_interfere hnamed isTree_bare (isSettled_atRoot _) hempty session_twoLists hload
  obtain ⟨hkept, hspared⟩ := hitems _ (.ofList []) [] (.styled .byName) _ _ _ hread hcommand rfl
  refine ⟨hchores, hwork, hplaces _ _ _ _ (by decide) hchores hwork, hkept, ?_⟩
  refine hspared "chores" chores hchores ?_ ?_
  · have hparts : chores.parts.map DiskName.normalize = chores.parts := by decide +kernel
    rw [Path.Fits, hparts]
    decide
  · have hresolve : twoLists.resolve (some "work") = .ok (.str "work", work) := rfl
    rw [hresolve]
    simp [LooseText.ofString_inj]

/-- With slashes in its name a list is kept in the file of the configuration, or in the file of
another list. -/
theorem names_with_slashes_interfere :
    let newList : String → Disk → Disk := fun name d =>
      (run atRoot ["lists", "new", name] (.start d (.ofList []) [] (.styled .byName))).2.disk
    (∃ config, Config.load atRoot (newList "../config" bare) = .ok config ∧
      config.listPath "../config" = .ok (atRoot.configPath bare)) ∧
    ∃ config p, Config.load atRoot (newList "./chores" (newList "chores" bare)) = .ok config ∧
      config.listPath "chores" = .ok p ∧ config.listPath "./chores" = .ok p := by
  intro newList
  have hcommand : ∀ name ∈ ["../config", "chores", "./chores"],
      Command.read ["new", name] .lists = .ok (.newList name none) := by decide +kernel
  have hconfigFile : fullPath atRoot bare (newListPath atRoot bare "../config" none) =
      .ok ⟨.root, ["todoq", "config.json"]⟩ := rfl
  have hchoresFile : fullPath atRoot bare (newListPath atRoot bare "chores" none) =
      .ok ⟨.root, ["todoq", "lists", "chores.json"]⟩ := rfl
  have hsameFile : ∀ d, fullPath atRoot d (newListPath atRoot d "./chores" none) =
      .ok ⟨.root, ["todoq", "lists", "chores.json"]⟩ := fun _ => rfl
  have hconfig : newList "../config" bare =
      keeping (listing [("../config", "/todoq/config.json")] "../config") :=
    run_newList_bare (hcommand _ (by decide)) (by decide) _ _ _ hconfigFile
  have hchores : newList "chores" bare =
      keeping (listing [("chores", "/todoq/lists/chores.json")] "chores") :=
    run_newList_bare (hcommand _ (by decide)) (by decide) _ _ _ hchoresFile
  have hboth : newList "./chores"
      (keeping (listing [("chores", "/todoq/lists/chores.json")] "chores")) =
        keeping (listing [("chores", "/todoq/lists/chores.json"),
          ("./chores", "/todoq/lists/chores.json")] "chores") :=
    run_newList_keeping (hcommand _ (by decide)) (by decide) _ _ _ (by decide) (by decide)
      (hsameFile _)
  rw [hconfig, hchores, hboth]
  exact ⟨⟨_, load_keeping (isTextual_listing (by decide)), rfl⟩, _,
    ⟨.root, ["todoq", "lists", "chores.json"]⟩, load_keeping (isTextual_listing (by decide)), rfl, rfl⟩

end TodoLists.CommandLine
