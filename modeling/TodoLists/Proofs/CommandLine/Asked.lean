import TodoLists.Proofs.CommandLine.Failure
import TodoLists.Proofs.CommandLine.Refill
import TodoLists.Proofs.CommandLine.Registry
import TodoLists.Proofs.Config.Registry

/-!
# The list that is asked for

A command that is asked to work on a list by its name works on the file of that list or on none,
whatever the current list is. The empty name is the exception: it asks for nothing, so the current
list is used, even when a list with the empty name is registered.
-/

namespace TodoLists

namespace CommandLine

variable {e : Environment} {words : List String} {c : Console} {i : Invocation} {command : Command}
  {n : String} {config : Config}

/-- The run changes no file but the one that the path leads to, and it comes to the same whatever is
in the files other than this one and the configuration. -/
structure KeepsTo (e : Environment) (words : List String) (c : Console) (p : Path) : Prop where
  writes : c.disk.WritesOnly p (run e words c).2.disk
  reads : ∀ q x, q ≠ c.disk.placeOf p → q ≠ c.disk.placeOf (e.configPath c.disk) →
    run e words (c.refill q x) = ((run e words c).1, (run e words c).2.refill q x)

section

variable (hread : Invocation.read words = .ok i)
  (hcommand : Command.read i.rest i.topic = .ok command) (hlist : command.list? = some (some n))
  (hconfig : Config.load e c.disk = .ok config)

include hread hcommand hlist hconfig

/-- Without a list to open nothing is done. -/
theorem run_of_unresolved {f : Fault} (h : config.resolve (some n) = .error f) :
    (run e words c).1 = 1 ∧ (run e words c).2.disk = c.disk := by
  rcases run_cases e words c with ⟨hdisk, hcode⟩ | ⟨i', command', c', hread', hcommand', hsame, hrun⟩
  · exact ⟨hcode i command hread hcommand, hdisk⟩
  · cases hread.symm.trans hread'
    cases hcommand.symm.trans hcommand'
    have hnever : ∀ name desk, Opens e c' (some n) name desk → ∀ desk', desk.WorksOn desk' →
        False ∧ desk'.disk = c.disk := by
      intro name desk hopens
      obtain ⟨config', hconfig', hresolve⟩ := hopens.path
      rw [hsame.disk] at hconfig'
      cases hconfig.symm.trans hconfig'
      cases h.symm.trans hresolve
    have hends := ends_perform_of_opens (P := fun _ => False) (Q := fun d => d = c.disk)
      hsame.disk hnever hlist
    rw [hrun]
    rcases conclude_of_ends e.explain hends with ⟨-, hfalse⟩ | ⟨hcode, c'', hdisk, hsaved⟩
    · exact hfalse.elim
    · exact ⟨hcode, hsaved.trans hdisk⟩

theorem keepsTo_of_resolve {name : Json} {p : Path} (h : config.resolve (some n) = .ok (name, p)) :
    KeepsTo e words c p where
  writes := by
    rcases run_change e words c with hdisk | ⟨i', command', hread', hcommand', hchange⟩
    · rw [hdisk]
      exact .refl c.disk p
    · cases hread.symm.trans hread'
      cases hcommand.symm.trans hcommand'
      rcases hchange.of_list hlist with hdisk | ⟨_, _, _, hconfig', hresolve, hwrites⟩
      · rw [hdisk]
        exact .refl c.disk p
      · cases hconfig.symm.trans hconfig'
        cases h.symm.trans hresolve
        exact hwrites
  reads q x hlistFile hconfigFile := by
    refine run_refill hread hcommand hlist ⟨hconfigFile.symm, fun config' name' path hc' hr' => ?_⟩
    cases hconfig.symm.trans hc'
    cases h.symm.trans hr'
    exact hlistFile.symm

end

/-- A list that is asked for by a name is never replaced by another one. -/
theorem asked_list_is_used (hread : Invocation.read words = .ok i)
    (hcommand : Command.read i.rest i.topic = .ok command) (hlist : command.list? = some (some n))
    (hn : n ≠ "") (hconfig : Config.load e c.disk = .ok config) :
    (config.isRegistered n = false → config.resolve (some n) = .error (.noSuchList n) ∧
      (run e words c).1 = 1 ∧ (run e words c).2.disk = c.disk) ∧
    ∀ t, config.pathOf? (.str n) = some (.str t) →
      config.resolve (some n) = .ok (.str n, .ofText t) ∧ KeepsTo e words c (.ofText t) := by
  refine ⟨fun h => ?_, fun t ht => ?_⟩
  · have hresolve := Config.resolve_of_unregistered hn h
    exact ⟨hresolve, run_of_unresolved hread hcommand hlist hconfig hresolve⟩
  · have hresolve := Config.resolve_of_path hn ht
    exact ⟨hresolve, keepsTo_of_resolve hread hcommand hlist hconfig hresolve⟩

/-- Adding to a registered list, and to one that is not registered while another one is current. -/
theorem asked_list_is_used_chores :
    KeepsTo atRoot ["add", "milk", "--list", "chores"] (registered (.str "chores"))
      (.ofText "/list") ∧
    (run atRoot ["add", "milk", "--list", "work"] (registered (.str "chores"))).1 = 1 ∧
    (run atRoot ["add", "milk", "--list", "work"] (registered (.str "chores"))).2.disk =
      (registered (.str "chores")).disk := by
  have hname : (Json.str "chores").Regular fun _ => False :=
    .str (LooseText.isJoined_ofString "chores")
  have hconfig := load_registered hname rfl
  have hchores : Invocation.read ["add", "milk", "--list", "chores"] =
      .ok ⟨false, .add, ["milk", "--list", "chores"]⟩ := by decide +kernel
  have hchoresCommand : Command.read ["milk", "--list", "chores"] .add =
      .ok (.add ["milk"] (some "chores")) := by decide +kernel
  have hwork : Invocation.read ["add", "milk", "--list", "work"] =
      .ok ⟨false, .add, ["milk", "--list", "work"]⟩ := by decide +kernel
  have hworkCommand : Command.read ["milk", "--list", "work"] .add =
      .ok (.add ["milk"] (some "work")) := by decide +kernel
  have hregistered := (asked_list_is_used hchores hchoresCommand rfl (by decide) hconfig).2
  have hmissing := (asked_list_is_used hwork hworkCommand rfl (by decide) hconfig).1
  exact ⟨(hregistered "/list" rfl).2, (hmissing rfl).2⟩

/-- With the empty name the current list is used, also when the empty name is registered. -/
theorem empty_name_not_looked_up :
    ∃ config config', Config.default.addList "a" (.ofString "/l/a.json") = .ok config ∧
      config.addList "" (.ofString "/l/b.json") = .ok config' ∧
      config.isRegistered "" = false ∧ config'.isRegistered "" = true ∧
      config.resolve (some "") = .ok (.str "a", .ofString "/l/a.json") ∧
      config'.resolve (some "") = .ok (.str "a", .ofString "/l/a.json") := by
  refine ⟨⟨[(.str "a", .str "/l/a.json")], .str "a", .default⟩,
    ⟨[(.str "a", .str "/l/a.json"), (.str "", .str "/l/b.json")], .str "a", .default⟩, ?_⟩
  have ha : (Path.ofString "/l/a.json").toText = "/l/a.json" := by decide +kernel
  have hb : (Path.ofString "/l/b.json").toText = "/l/b.json" := by decide +kernel
  refine ⟨?_, ?_, rfl, rfl, rfl, rfl⟩
  · rw [Config.addList, if_neg (by decide), ha]
    rfl
  · rw [Config.addList, if_neg (by decide), hb]
    rfl

end CommandLine

end TodoLists
