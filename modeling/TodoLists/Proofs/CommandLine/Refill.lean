import TodoLists.Proofs.CommandLine.Frame
import TodoLists.Proofs.Desk.Refill

/-!
# Commands on items read one list

When the content of a file is replaced that is neither the configuration nor the file of the list
that a command opens, then the command comes to the same: the same exit code, the same output, and
the same disk but for that file. The rules for actions follow those for what an action ends with.
-/

namespace TodoLists

variable {q : List LooseText} {x : ByteArray}

namespace Console

/-- The console with other content in a file of its disk. -/
def refill (q : List LooseText) (x : ByteArray) (c : Console) : Console :=
  { c with
    disk := c.disk.refill q x
    pause := c.pause.map fun p => (p.1, p.2.refill q x) }

/-- With the other content the second action comes to what the first comes to without it, the result
being changed along. -/
def Overlooks (q : List LooseText) (x : ByteArray) {α : Type} (g : α → α) (a a' : Action α)
    (c : Console) : Prop :=
  a'.run.run (c.refill q x) = ((a.run.run c).1.map g, (a.run.run c).2.refill q x)

variable {α β : Type} {c : Console} {g : α → α}

theorem overlooks_pure (v : α) : Overlooks q x g (pure v) (pure (g v)) c := rfl

theorem overlooks_throw (f : Fault) : Overlooks q x g (throw f) (throw f) c := rfl

theorem overlooks_get : Overlooks q x (refill q x) get get c := rfl

theorem overlooks_modify {f : Console → Console} (h : f (c.refill q x) = (f c).refill q x) :
    Overlooks q x id (modify f) (modify f) c :=
  congrArg (Prod.mk (Except.ok ())) h

theorem overlooks_noteEnd : Overlooks q x id noteEnd noteEnd c := by
  apply overlooks_modify
  cases hpause : c.pause with
  | none => simp [refill, hpause]
  | some p => simp [refill, hpause]

theorem overlooks_ofExcept (r : Except Fault α) :
    Overlooks q x g (ofExcept r) (ofExcept (r.map g)) c := by
  cases r <;> rfl

/-- A row of steps comes to the same if the first does and the second wherever the first leads. -/
theorem Overlooks.bind {a a' : Action α} {k k' : α → Action β} {h : β → β}
    (ha : Overlooks q x g a a' c)
    (hk : ∀ v c', a.run.run c = (.ok v, c') → Overlooks q x h (k v) (k' (g v)) c') :
    Overlooks q x h (a >>= k) (a' >>= k') c := by
  rw [Overlooks] at ha ⊢
  rw [ExceptT.run_bind, StateT.run_bind, ExceptT.run_bind, StateT.run_bind, ha]
  rcases hrun : a.run.run c with ⟨f | v, c'⟩
  · rfl
  · exact hk v c' hrun

/-- The second step is told the same as without the other content. -/
theorem Overlooks.bind_id {a : Action α} {k : α → Action β} {h : β → β}
    (ha : Overlooks q x id a a c)
    (hk : ∀ v c', a.run.run c = (.ok v, c') → Overlooks q x h (k v) (k v) c') :
    Overlooks q x h (a >>= k) (a >>= k) c :=
  ha.bind hk

theorem overlooks_ofExcept_id (r : Except Fault α) :
    Overlooks q x id (ofExcept r) (ofExcept r) c := by
  cases r <;> rfl

theorem run_ofExcept_eq_ok {r : Except Fault α} {v : α} {c' : Console}
    (h : (ofExcept r : Action α).run.run c = (.ok v, c')) : r = .ok v ∧ c = c' := by
  cases r with
  | error f => cases h
  | ok w =>
    cases h
    exact ⟨rfl, rfl⟩

theorem Ends.of_run {a : Action α} {done : α → Console → Prop} {failed : Console → Prop}
    (h : Ends a c done failed) {v : α} {c' : Console} (hrun : a.run.run c = (.ok v, c')) :
    done v c' := by
  rwa [Ends, hrun] at h

theorem overlooks_commit (r : Except Fault α × Desk) :
    Overlooks q x id (commit r) (commit (r.1, r.2.refill q x)) c := by
  obtain ⟨f | v, desk⟩ := r <;> rfl

theorem overlooks_append (out : List Output) : Overlooks q x id (append out) (append out) c :=
  overlooks_modify rfl

theorem Overlooks.ite {a a' b b' : Action α} {p : Prop} [Decidable p]
    (ha : Overlooks q x g a a' c) (hb : Overlooks q x g b b' c) :
    Overlooks q x g (if p then a else b) (if p then a' else b') c := by
  split
  · exact ha
  · exact hb

/-- The screen is the same, so that it shows the same. -/
theorem overlooks_put (o : Output) : Overlooks q x id (put o) (put o) c :=
  overlooks_get.bind fun _ _ _ => (overlooks_append [o]).ite (overlooks_throw _)

theorem overlooks_say (text : String) : Overlooks q x id (say text) (say text) c :=
  overlooks_put (.line text)

theorem overlooks_confirm (question : String) :
    Overlooks q x id (confirm question) (confirm question) c := by
  refine (overlooks_put _).bind_id fun _ c' _ => overlooks_get.bind fun now c'' _ => ?_
  show Overlooks q x id _ _ c''
  have hinput : (now.refill q x).input = now.input := rfl
  simp only [hinput]
  refine Overlooks.bind_id (overlooks_modify ?_) fun _ _ _ => ?_
  · rfl
  · cases (firstAnswer now.input).1 with
    | some b => exact overlooks_pure b
    | none => exact overlooks_noteEnd.bind_id fun _ _ _ => overlooks_throw _

end Console

/-! ### The configuration -/

theorem Environment.configPath_refill (e : Environment) (d : Disk) :
    e.configPath (d.refill q x) = e.configPath d := by
  rw [configPath, configPath, configFolder, configFolder, configFolder.standard,
    configFolder.standard, Disk.isSome_at?_refill]

theorem Config.load_refill {e : Environment} {d : Disk} (h : d.placeOf (e.configPath d) ≠ q) :
    load e (d.refill q x) = load e d := by
  rw [load, load, Environment.configPath_refill, loadFrom, loadFrom, Disk.has_refill,
    Disk.read_refill h]

namespace CommandLine

open Console

variable {e : Environment} {c : Console} {list : Option String}

/-- The file is not the configuration, and not that of the list that is asked for. -/
structure IsElsewhere (e : Environment) (list : Option String) (q : List LooseText) (c : Console) :
    Prop where
  config : c.disk.placeOf (e.configPath c.disk) ≠ q
  list : ∀ config name path, Config.load e c.disk = .ok config →
    config.resolve list = .ok (name, path) → c.disk.placeOf path ≠ q

theorem IsElsewhere.of_same {c' : Console} (h : IsElsewhere e list q c) (hsame : c.Same c') :
    IsElsewhere e list q c' := by
  refine ⟨?_, fun config name path => ?_⟩
  · rw [hsame.disk]
    exact h.config
  · rw [hsame.disk]
    exact h.list config name path

theorem IsElsewhere.of_opens (h : IsElsewhere e list q c) {name : Json} {desk : Desk}
    (hopens : Opens e c list name desk) : desk.IsElsewhere q := by
  obtain ⟨config, hconfig, hresolve⟩ := hopens.path
  rw [Desk.IsElsewhere, hopens.disk]
  exact h.list config name desk.list.path hconfig hresolve

theorem ends_loadConfig_self : Ends (loadConfig e) c
    (fun config c' => Config.load e c.disk = .ok config ∧ c' = c) fun _ => True :=
  ends_loadConfig.2 ⟨fun _ hconfig => ⟨hconfig, rfl⟩, fun _ => trivial⟩

theorem overlooks_loadConfig (h : c.disk.placeOf (e.configPath c.disk) ≠ q) :
    Overlooks q x id (loadConfig e) (loadConfig e) c := by
  refine overlooks_get.bind fun now c' hnow => ?_
  cases hnow
  have hload : Config.load e (c.refill q x).disk = Config.load e c.disk := Config.load_refill h
  rw [hload]
  exact overlooks_ofExcept_id _

section

variable (h : IsElsewhere e list q c) {k : Json × Desk → Action Unit}
  (hk : ∀ name desk, Opens e c list name desk →
    Overlooks q x id (k (name, desk)) (k (name, desk.refill q x)) c)

include h hk

/-- What follows is done on a desk with the same list. -/
theorem overlooks_openDesk {config : Config} (hconfig : Config.load e c.disk = .ok config) :
    Overlooks q x id (openDesk config list >>= k) (openDesk config list >>= k) c := by
  have hopen : Overlooks q x (fun o => (o.1, o.2.refill q x)) (openDesk config list)
      (openDesk config list) c := by
    refine (overlooks_ofExcept_id _).bind_id fun (name, path) c' hrun => ?_
    obtain ⟨hresolve, rfl⟩ := run_ofExcept_eq_ok hrun
    refine overlooks_get.bind fun now c' hnow => ?_
    cases hnow
    have hload : Desk.load (Config.spell name) path (c.refill q x).disk (c.refill q x).supply =
        (Desk.load (Config.spell name) path c.disk c.supply).map (Desk.refill q x) :=
      Desk.load_refill (h.list config name path hconfig hresolve)
    rw [hload]
    exact (overlooks_ofExcept _).bind fun desk c' _ => overlooks_pure _
  have hends : Ends (openDesk config list) c
      (fun o c' => Opens e c list o.1 o.2 ∧ c' = c) fun _ => True :=
    ends_openDesk_of_opens (fun name desk hopens => ⟨hopens, rfl⟩) trivial hconfig
  refine hopen.bind fun (name, desk) c' hrun => ?_
  obtain ⟨hopens, rfl⟩ := hends.of_run hrun
  exact hk name desk hopens

theorem overlooks_openList :
    Overlooks q x id (openList e list >>= k) (openList e list >>= k) c := by
  have hassoc : openList e list >>= k =
      loadConfig e >>= fun config => openDesk config list >>= k := by
    rw [openList, bind_assoc]
  rw [hassoc]
  refine (overlooks_loadConfig h.config).bind_id fun config c' hrun => ?_
  obtain ⟨hconfig, rfl⟩ := Ends.of_run ends_loadConfig_self hrun
  exact overlooks_openDesk h hk hconfig

end

/-! ### The commands -/

/-- What was done on the desk, and then told. -/
theorem overlooks_commit_bind {α : Type} {now : Console} {r r' : Except Fault α × Desk}
    (hr : r' = (r.1, r.2.refill q x)) {k : α → Action Unit}
    (hk : ∀ v c', Overlooks q x id (k v) (k v) c') :
    Overlooks q x id (commit r >>= k) (commit r' >>= k) now := by
  rw [hr]
  exact (overlooks_commit r).bind fun v c' _ => hk v c'

theorem overlooks_ifAgreed {agreed : Bool} {question : String} {act act' : Action Unit}
    {now : Console} (h : ∀ c', Overlooks q x id act act' c') :
    Overlooks q x id (ifAgreed agreed question act) (ifAgreed agreed question act') now := by
  have hgoOn : ∀ (goOn : Bool) (c' : Console), Overlooks q x id
      (if goOn then act else say cancelled) (if goOn then act' else say cancelled) c' :=
    fun goOn c' => (h c').ite (overlooks_say _)
  rw [ifAgreed, ifAgreed]
  apply Overlooks.ite
  · exact hgoOn true now
  · exact (overlooks_confirm question).bind fun goOn c' _ => hgoOn goOn c'

section

variable (h : IsElsewhere e list q c)

include h

theorem overlooks_addItem (words : List String) :
    Overlooks q x id (addItem e words list) (addItem e words list) c := by
  refine overlooks_openList h fun name desk hopens => ?_
  refine overlooks_commit_bind (Desk.add_refill (h.of_opens hopens) _) fun id c' => ?_
  exact (overlooks_ofExcept_id _).bind_id fun _ _ _ => overlooks_say _

theorem overlooks_listItems (query : String) (sort : Option String) :
    Overlooks q x id (listItems e query sort list) (listItems e query sort list) c := by
  refine (overlooks_loadConfig h.config).bind_id fun config c' hrun => ?_
  obtain ⟨hconfig, rfl⟩ := Ends.of_run ends_loadConfig_self hrun
  refine overlooks_openDesk h (fun name desk hopens => ?_) hconfig
  have hselect : ∀ order, (desk.refill q x).select query order = desk.select query order :=
    fun _ => rfl
  simp only [hselect]
  refine (overlooks_ofExcept_id _).bind_id fun order _ _ => ?_
  refine (overlooks_ofExcept_id _).bind_id fun found _ _ => ?_
  split
  · exact overlooks_say _
  · refine (overlooks_ofExcept_id _).bind_id fun table _ _ => ?_
    exact (overlooks_put _).bind_id fun _ _ _ => overlooks_say _

theorem overlooks_setStatus (word query : String) :
    Overlooks q x id (setStatus e word query list) (setStatus e word query list) c := by
  refine (overlooks_ofExcept_id _).bind_id fun target c' hrun => ?_
  obtain ⟨-, rfl⟩ := run_ofExcept_eq_ok hrun
  refine overlooks_openList h fun name desk hopens => ?_
  exact overlooks_commit_bind (Desk.change_refill (h.of_opens hopens) _ _) fun _ _ =>
    overlooks_say _

theorem overlooks_setTag (tag query : String) (remove : Bool) :
    Overlooks q x id (setTag e tag query remove list) (setTag e tag query remove list) c := by
  refine overlooks_openList h fun name desk hopens => ?_
  exact overlooks_commit_bind (Desk.change_refill (h.of_opens hopens) _ _) fun _ _ =>
    overlooks_say _

theorem overlooks_removeItems (query : String) (yes : Bool) :
    Overlooks q x id (removeItems e query yes list) (removeItems e query yes list) c := by
  refine overlooks_openList h fun name desk hopens => ?_
  have hids : (desk.refill q x).matchingIds query = desk.matchingIds query := rfl
  have hitems : (desk.refill q x).items = desk.items := rfl
  simp only [hids, hitems]
  refine (overlooks_ofExcept_id _).bind fun ids _ _ => (overlooks_say _).ite ?_
  refine (overlooks_ofExcept_id _).bind fun table _ _ => (overlooks_put _).bind fun _ _ _ => ?_
  refine overlooks_ifAgreed fun _ => ?_
  exact overlooks_commit_bind (Desk.change_refill (h.of_opens hopens) _ _) fun _ _ =>
    overlooks_say _

theorem overlooks_openShell :
    Overlooks q x id (openShell e list) (openShell e list) c := by
  refine overlooks_openList h fun name desk hopens => ?_
  refine Overlooks.ite ((overlooks_say _).bind_id fun _ _ _ => overlooks_throw _) ?_
  refine overlooks_get.bind fun now _ _ => ?_
  have hdesk : (Shell.start desk now.screen).desk.IsElsewhere q := h.of_opens hopens
  have hrun : (Shell.start (desk.refill q x) (now.refill q x).screen).run e.explain
      ((now.refill q x).input.map Shell.Entry.ofLine) =
        ((Shell.start desk now.screen).run e.explain
          (now.input.map Shell.Entry.ofLine)).refill q x :=
    Shell.run_refill hdesk _
  simp only [hrun]
  generalize (Shell.start desk now.screen).run e.explain (now.input.map Shell.Entry.ofLine) =
    dialogue
  refine (overlooks_append dialogue.output).bind fun _ _ _ => ?_
  refine overlooks_commit_bind rfl fun _ _ => ?_
  cases hfault : dialogue.fault with
  | some f => exact overlooks_throw f
  | none => exact overlooks_noteEnd.ite (overlooks_pure ())

theorem overlooks_perform {command : Command} (hlist : command.list? = some list) :
    Overlooks q x id (perform e command) (perform e command) c := by
  cases command with
  | newList | forgetList | showLists | useList => cases hlist
  | add words _ =>
    cases hlist
    exact overlooks_addItem h words
  | list query sort _ =>
    cases hlist
    exact overlooks_listItems h query sort
  | status word query _ =>
    cases hlist
    exact overlooks_setStatus h word query
  | tag tag query remove _ =>
    cases hlist
    exact overlooks_setTag h tag query remove
  | remove query yes _ =>
    cases hlist
    exact overlooks_removeItems h query yes
  | shell _ =>
    cases hlist
    exact overlooks_openShell h

end

/-! ### Runs -/

theorem overlooks_setUp (h : c.disk.placeOf (e.configPath c.disk) ≠ q) (verbose : Bool) :
    Overlooks q x id (setUp e verbose) (setUp e verbose) c := by
  have hcolor : ∀ now, Overlooks q x id (modify fun c => { c with colorOff := true })
      (modify fun c => { c with colorOff := true }) now := fun _ => overlooks_modify rfl
  refine (overlooks_loadConfig h).bind_id fun config _ _ => ?_
  split
  · exact ((hcolor _).bind_id fun _ _ _ => overlooks_say _).ite (overlooks_say _)
  · exact ((hcolor _).bind_id fun _ _ _ => overlooks_pure _).ite (overlooks_pure _)

theorem conclude_refill {a : Action Unit} (explain : Cause → String)
    (h : Overlooks q x id a a c) : conclude explain a (c.refill q x) =
      ((conclude explain a c).1, (conclude explain a c).2.refill q x) := by
  rw [Overlooks] at h
  rw [conclude, conclude, h]
  rcases a.run.run c with ⟨f | v, c'⟩
  · rfl
  · rfl

/-- A command on items comes to the same whatever is in any other file than the configuration and
the file of its list. -/
theorem run_refill {words : List String} {i : Invocation} {command : Command}
    (hread : Invocation.read words = .ok i) (hcommand : Command.read i.rest i.topic = .ok command)
    (hlist : command.list? = some list) (h : IsElsewhere e list q c) :
    run e words (c.refill q x) = ((run e words c).1, (run e words c).2.refill q x) := by
  have hsetUp := conclude_of_ends e.explain (looks_setUp (e := e) i.verbose c)
  rw [run, run, hread]
  simp only [conclude_refill e.explain (overlooks_setUp h.config i.verbose)]
  generalize conclude e.explain (setUp e i.verbose) c = r at hsetUp ⊢
  obtain ⟨code, c'⟩ := r
  rcases hsetUp with ⟨rfl, hsame⟩ | ⟨rfl, -⟩
  · simp only [ne_eq, not_true_eq_false, if_false, hcommand]
    exact conclude_refill e.explain (overlooks_perform (h.of_same hsame) hlist)
  · rfl

end CommandLine

end TodoLists
