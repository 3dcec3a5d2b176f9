import TodoLists.Proofs.CommandLine.Frame
import TodoLists.Proofs.Config.RoundTrip

/-!
# How a run changes the disk

A command on items works in the file of one list, a command on the registry saves a configuration
that it makes of the one that is kept, and nothing else happens.
-/

namespace TodoLists.CommandLine

open Console

variable {e : Environment} {c : Console}

/-- What a command on the registry makes of the configuration. -/
def Command.Makes (e : Environment) (d : Disk) : Command → Config → Config → Prop
  | .newList name path, config, config' => ∃ full,
      fullPath e d (newListPath e d name path) = .ok full ∧ config.addList name full = .ok config'
  | .forgetList name _, config, config' => ∃ path, config.removeList name = .ok (path, config')
  | .useList name, config, config' => ∃ current path,
      config.resolve (some name) = .ok (current, path) ∧ config' = { config with current := current }
  | _, _, _ => False

/-- The second disk is what a command can make of the first. -/
inductive Change (e : Environment) (command : Command) (d : Disk) : Disk → Prop where
  | none : Change e command d d
  | items {config : Config} {list : Option String} {name : Json} {p : Path} {d' : Disk}
      (hlist : command.list? = some list) (hload : Config.load e d = .ok config)
      (hresolve : config.resolve list = .ok (name, p)) (hwrites : d.WritesOnly p d') :
      Change e command d d'
  | registry {config config' : Config} (hload : Config.load e d = .ok config)
      (hmakes : command.Makes e d config config') : Change e command d (config'.save e d).2

/-- A command on the items of a list writes to the file of that list or not at all. -/
theorem Change.of_list {command : Command} {list : Option String} {d d' : Disk}
    (hlist : command.list? = some list) (h : Change e command d d') :
    d' = d ∨ ∃ config name p, Config.load e d = .ok config ∧ config.resolve list = .ok (name, p) ∧
      d.WritesOnly p d' := by
  cases h with
  | none => exact Or.inl rfl
  | items hlist' hload hresolve hwrites =>
    cases hlist.symm.trans hlist'
    exact Or.inr ⟨_, _, _, hload, hresolve, hwrites⟩
  | registry _ hmakes => cases command with
    | newList | forgetList | useList => cases hlist
    | _ => cases hmakes

/-! ### The commands on the registry -/

section

variable {P : Disk → Prop}

theorem ends_saveConfig_bind {config : Config} {now : Console} {k : Path → Action Unit}
    (hk : ∀ p, Looks (k p)) (h : P (config.save e now.disk).2) :
    Ends (saveConfig e config >>= k) now (fun _ c' => P c'.disk) fun c' => P c'.disk := by
  rw [ends_bind, saveConfig, ends_onDisk]
  exact ⟨fun p _ => ends_of_looks (hk p) ⟨h, h⟩, fun _ => h⟩

theorem ends_newList_of_makes {name : String} {path : Option Path} (hnone : P c.disk)
    (hmakes : ∀ config config', Config.load e c.disk = .ok config →
      (Command.newList name path).Makes e c.disk config config' → P (config'.save e c.disk).2) :
    Ends (newList e name path) c (fun _ c' => P c'.disk) fun c' => P c'.disk := by
  rw [newList, ends_bind, ends_loadConfig]
  refine ⟨fun config hload => ?_, fun _ => hnone⟩
  rw [ends_bind, ends_get, ends_bind, ends_ofExcept]
  refine ⟨fun full hfull => ?_, fun _ => hnone⟩
  rw [ends_bind, ends_ofExcept]
  refine ⟨fun config' hadd => ?_, fun _ => hnone⟩
  exact ends_saveConfig_bind (fun _ => looks_say _)
    (hmakes config config' hload ⟨full, eq_ok_of_mapError_eq_ok hfull, hadd⟩)

theorem ends_forgetList_of_makes {name : String} {yes : Bool} (hnone : P c.disk)
    (hmakes : ∀ config config', Config.load e c.disk = .ok config →
      (Command.forgetList name yes).Makes e c.disk config config' → P (config'.save e c.disk).2) :
    Ends (forgetList e name yes) c (fun _ c' => P c'.disk) fun c' => P c'.disk := by
  rw [forgetList]
  split
  -- With and without the warning the same is asked.
  on_goal 1 =>
    rw [ends_bind, ends_say]
    refine ⟨fun _ => ?_, fun _ => hnone⟩
  all_goals
    refine ends_ifAgreed (fun now hdisk _ _ => ?_) (fun _ hdisk => ?_) fun _ hdisk => ?_
    · rw [ends_bind, ends_loadConfig, hdisk]
      refine ⟨fun config hload => ?_, fun _ => hdisk ▸ hnone⟩
      rw [ends_bind, ends_ofExcept]
      refine ⟨?_, fun _ => hdisk ▸ hnone⟩
      rintro ⟨path, config'⟩ hremove
      refine ends_saveConfig_bind (fun _ => looks_say _) ?_
      rw [hdisk]
      exact hmakes config config' hload ⟨path, hremove⟩
    · rw [hdisk]
      exact hnone
    · rw [hdisk]
      exact hnone

theorem ends_useList_of_makes {name : String} (hnone : P c.disk)
    (hmakes : ∀ config config', Config.load e c.disk = .ok config →
      (Command.useList name).Makes e c.disk config config' → P (config'.save e c.disk).2) :
    Ends (useList e name) c (fun _ c' => P c'.disk) fun c' => P c'.disk := by
  rw [useList, ends_bind, ends_loadConfig]
  refine ⟨fun config hload => ?_, fun _ => hnone⟩
  rw [ends_bind, ends_ofExcept]
  refine ⟨?_, fun _ => hnone⟩
  rintro ⟨current, path⟩ hresolve
  exact ends_saveConfig_bind (fun _ => looks_say _)
    (hmakes config _ hload ⟨current, path, hresolve, rfl⟩)

end

/-! ### All commands -/

theorem ends_perform_of_change (e : Environment) (command : Command) (c : Console) :
    Ends (perform e command) c (fun _ c' => Change e command c.disk c'.disk)
      fun c' => Change e command c.disk c'.disk := by
  have hitems : ∀ list, command.list? = some list → ∀ name desk, Opens e c list name desk →
      ∀ desk', desk.WorksOn desk' →
        Change e command c.disk desk'.disk ∧ Change e command c.disk desk'.disk := by
    intro list hlist name desk hopens desk' hworks
    obtain ⟨config, hload, hresolve⟩ := hopens.path
    have hwrites := hworks.disk
    rw [hopens.disk] at hwrites
    exact ⟨.items hlist hload hresolve hwrites, .items hlist hload hresolve hwrites⟩
  cases command with
  | newList name path => exact ends_newList_of_makes .none fun _ _ => .registry
  | forgetList name yes => exact ends_forgetList_of_makes .none fun _ _ => .registry
  | showLists => exact ends_of_looks looks_showLists ⟨.none, .none⟩
  | useList name => exact ends_useList_of_makes .none fun _ _ => .registry
  | add | list | status | tag | remove | shell =>
    exact ends_perform_of_opens .none (hitems _ rfl) rfl

/-- A run changes the disk as its command does, or not at all. -/
theorem run_change (e : Environment) (words : List String) (c : Console) :
    (run e words c).2.disk = c.disk ∨ ∃ i command, Invocation.read words = .ok i ∧
      Command.read i.rest i.topic = .ok command ∧
      Change e command c.disk (run e words c).2.disk := by
  rcases run_cases e words c with ⟨hdisk, -⟩ | ⟨i, command, c', hread, hcommand, hsame, hrun⟩
  · exact Or.inl hdisk
  · refine Or.inr ⟨i, command, hread, hcommand, ?_⟩
    have hends := ends_perform_of_change e command c'
    rw [hsame.disk] at hends
    rw [hrun]
    rcases conclude_of_ends e.explain hends with ⟨-, hchange⟩ | ⟨-, c'', hchange, hdisk⟩
    · exact hchange
    · rw [hdisk]
      exact hchange

end TodoLists.CommandLine
