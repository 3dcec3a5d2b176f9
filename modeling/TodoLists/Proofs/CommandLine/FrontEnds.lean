import TodoLists.Proofs.CommandLine.Failure
import TodoLists.Proofs.CommandLine.Frame
import TodoLists.Proofs.Shell.Updates

/-!
# The front ends agree

An update comes to the same whether it is typed in the shell or at the command line: the file is
left with the same bytes, and one reports an error when the other does. Both do what the update does
on the desk. The command line looks at the items before it removes them, which fails only when
removing does. A word that begins with a dash is another matter: the shell takes it as it is, and
the command line as an option unless it is set apart.
-/

namespace TodoLists

theorem Desk.disk_of_load {name : String} {path : Path} {disk : Disk} {supply : Supply}
    {desk : Desk} (h : Desk.load name path disk supply = .ok desk) : desk.disk = disk := by
  obtain ⟨l, -, hdesk⟩ := exists_of_bind_eq_ok h
  cases hdesk
  rfl

theorem ItemList.HasLooseTexts.lookUp {l : ItemList} (h : l.HasLooseTexts) (ids : List ItemId) :
    ∀ x ∈ l.lookUp ids, x.2.HasLooseTexts := by
  intro x hx
  obtain ⟨e, he, hex⟩ := exists_mem_of_mem_lookUp hx
  exact hex ▸ h e he

namespace CommandLine

open Console

variable {e : Environment} {c now : Console} {config : Config} {list : Option String} {name : Json}
  {path : Path} {desk : Desk} {α β : Type}

/-- The action leaves the disk of the outcome, and fails when it is a fault. -/
def Follows (a : Action α) (c : Console) (outcome : Except Fault β × Desk) : Prop :=
  Ends a c (fun _ c' => c'.disk = outcome.2.disk ∧ ¬ ∃ f, outcome.1 = .error f)
    fun c' => c'.disk = outcome.2.disk ∧ ∃ f, outcome.1 = .error f

/-- What is done on the desk decides, if what is shown then cannot fail. -/
theorem follows_commit_bind {done : Except Fault α × Desk} {outcome : Except Fault β × Desk}
    {k : α → Action Unit} (h : Desk.Agree done outcome)
    (hk : ∀ v c', Ends (k v) c' (fun _ c'' => c''.disk = c'.disk) fun _ => False) (c : Console) :
    Follows (commit done >>= k) c outcome := by
  rw [Follows, ← h.desk, ← h.fails, ends_bind, ends_commit]
  refine ⟨fun v hv => ?_, fun hfault => ⟨rfl, hfault⟩⟩
  refine (hk v _).imp (fun _ c' hdisk => ⟨hdisk, ?_⟩) fun _ hfalse => hfalse.elim
  rintro ⟨f, hf⟩
  rw [hv] at hf
  cases hf

theorem ends_say_only {text : String} (h : c.screen.shows (.line text) = true) :
    Ends (say text) c (fun _ c' => c'.disk = c.disk) fun _ => False :=
  (ends_say_of_shows h).2 rfl

theorem conclude_of_follows {a : Action Unit} {outcome : Except Fault β × Desk}
    (explain : Cause → String) (h : Follows a c outcome) :
    (conclude explain a c).2.disk = outcome.2.disk ∧
      ((conclude explain a c).1 ≠ 0 ↔ ∃ f, outcome.1 = .error f) := by
  rcases conclude_of_ends explain h with ⟨hcode, hdisk, hfails⟩ | ⟨hcode, c', ⟨hdisk, hfails⟩, hc'⟩
  · exact ⟨hdisk, fun hne => absurd hcode hne, fun hf => absurd hf hfails⟩
  · refine ⟨hc'.trans hdisk, fun _ => hfails, fun _ => ?_⟩
    rw [hcode]
    exact Nat.one_ne_zero

section

variable (hsame : c.Same now) (hconfig : Config.load e c.disk = .ok config)
  (hresolve : config.resolve list = .ok (name, path))
  (hload : Desk.load (Config.spell name) path c.disk c.supply = .ok desk)

include hsame hconfig hresolve hload

theorem ends_openList_of_load {done : Json × Desk → Console → Prop} {failed : Console → Prop} :
    Ends (openList e list) now done failed ↔ done (name, desk) now := by
  rw [openList, ends_bind, loadConfig, ends_bind, ends_get, hsame.disk, hconfig, ends_ofExcept_ok,
    openDesk, ends_bind, hresolve, ends_ofExcept_ok]
  simp only
  rw [ends_bind, ends_get, ends_bind, hsame.disk, hsame.supply, hload, ends_ofExcept_ok, ends_pure]

theorem follows_addItem (text : String) (hname : ∃ t, name = .str t) :
    Follows (addItem e [text] list) now ((Update.add text).apply desk) := by
  obtain ⟨t, rfl⟩ := hname
  rw [Follows, addItem, ends_bind, ends_openList_of_load hsame hconfig hresolve hload]
  exact follows_commit_bind (Desk.Agree.map _ _).symm
    (fun id _ => ends_say_only (shows_added _ id _)) now

theorem follows_setStatus (word : Word) (query : Phrase) :
    Follows (setStatus e word.text query.text list) now
      ((Update.setStatus word query).apply desk) := by
  rw [Follows, setStatus, Update.apply, ends_bind]
  cases Status.ofWord (Text.dropLeading '%' word.text.toList) with
  | error error =>
    refine ⟨?_, _, rfl⟩
    rw [hsame.disk, Desk.disk_of_load hload]
  | ok a =>
    simp only [Except.mapError, ends_ofExcept_ok]
    rw [ends_bind, ends_openList_of_load hsame hconfig hresolve hload]
    exact follows_commit_bind (Desk.Agree.map _ _).symm
      (fun _ _ => ends_say_only (shows_statusSet _ _ a)) now

theorem follows_setTag (tag : Word) (query : Phrase) (present : Bool) :
    Follows (setTag e tag.text query.text (!present) list) now
      ((Update.setTag tag query present).apply desk) := by
  rw [Follows, setTag, ends_bind, ends_openList_of_load hsame hconfig hresolve hload,
    Bool.not_not]
  have hreport : Markup.IsPlain (if !present then "Removed" else "Added").toList := by
    cases present <;> decide
  exact follows_commit_bind (Desk.Agree.map _ _).symm
    (fun _ _ => ends_say_only (shows_tagSet _ hreport _ _)) now

theorem follows_removeItems (hloose : desk.items.HasLooseTexts) (query : Phrase) :
    Follows (removeItems e query.text true list) now ((Update.remove query).apply desk) := by
  have hdisk : now.disk = desk.disk := by rw [hsame.disk, Desk.disk_of_load hload]
  rw [Follows, removeItems, Update.apply, Desk.remove, ends_bind,
    ends_openList_of_load hsame hconfig hresolve hload]
  simp only
  rw [ends_bind]
  cases hids : desk.matchingIds query.text with
  | error f =>
    rw [Desk.change, hids]
    exact ⟨hdisk, f, rfl⟩
  | ok ids =>
    rw [ends_ofExcept_ok]
    split
    · next hnone =>
      subst hnone
      have hshown : now.screen.shows (.line (noMatch query.text)) = true :=
        now.screen.shows_noMatch query.text
      rw [Desk.change, hids, ends_say_of_shows hshown]
      refine ⟨hdisk, ?_⟩
      rintro ⟨_, ⟨⟩⟩
    · obtain ⟨table, htable, -⟩ :=
        Display.exists_items (hloose.lookUp ids) "To be removed"
      have htitle : now.screen.canRead "To be removed" = true :=
        now.screen.canRead_of_harmless (.plain (by decide))
      rw [ends_bind, htable, ends_ofExcept_ok, ends_bind,
        ends_put_of_shows (now.screen.shows_items htitle htable), ifAgreed]
      exact follows_commit_bind (Desk.Agree.map _ _).symm
        (fun _ _ => ends_say_only (shows_removed _ _)) _

theorem follows_perform (hloose : desk.items.HasLooseTexts) (hname : ∃ t, name = .str t)
    (u : Update) : Follows (perform e (u.command list)) now (u.apply desk) := by
  cases u with
  | add text => exact follows_addItem hsame hconfig hresolve hload text hname
  | setStatus word query => exact follows_setStatus hsame hconfig hresolve hload word query
  | setTag tag query present =>
    exact follows_setTag hsame hconfig hresolve hload tag query present
  | remove query => exact follows_removeItems hsame hconfig hresolve hload hloose query

end

/-- A disk whose list has no file yet. -/
theorem isReadable_registered (name : Json) :
    ListFile.IsReadable (registered name).disk (.ofText "/list") := by
  refine Or.inl ?_
  rw [Disk.has, locate_list]
  rfl

end CommandLine

end TodoLists
