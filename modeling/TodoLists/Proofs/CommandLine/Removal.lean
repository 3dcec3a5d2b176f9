import TodoLists.Proofs.CommandLine.FrontEnds
import TodoLists.Proofs.Config.RoundTrip
import TodoLists.Proofs.Desk.Changes
import TodoLists.Proofs.Disk.Existing

/-!
# Removing what was shown

The command that removes items shows them first, then asks unless it was told not to, and finds them
once more to remove them. What it shows is what it removes, for nothing happens to the list in
between: each item on which some stage of the query is true has one row in the table, and afterwards
the file holds the other items in the order in which they were. When it is not told to go on, the
disk is left as it was.
-/

namespace TodoLists

/-! ### The file -/

namespace ListFile

variable {d : Disk} {p : Path} {l : ItemList}

/-- A list with an item was loaded from a file that is there. -/
theorem exists_read_of_load (hreadable : IsReadable d p) (hload : load d p = .ok l)
    (hne : l.entries ≠ []) : ∃ content, d.read p = .ok content := by
  rcases hreadable with hnone | ⟨content, _, _, -, hread, -⟩
  · rw [load, hnone] at hload
    cases hload
    exact absurd rfl hne
  · exact ⟨content, hread⟩

theorem isStorable_of_load (hreadable : IsReadable d p) (hload : load d p = .ok l) :
    l.IsStorable := by
  obtain ⟨m, hm, hstorable⟩ := load_of_isReadable hreadable
  cases hload.symm.trans hm
  exact hstorable

/-- A file that is there takes every list that can be stored, and gives it back. -/
theorem save_over (hstart : d.StartsInFolder) {content : ByteArray} (hread : d.read p = .ok content)
    (hl : l.IsStorable) :
    (save d p l).1 = .ok () ∧ ∃ m, load (save d p l).2 p = .ok m ∧ l.Same m := by
  obtain ⟨hfolders, d', hwrite⟩ := Disk.rewrites_of_read hstart hread ByteArray.empty
  have hok := save_eq_ok hl hfolders hwrite
  rcases load_after_save hl d p with ⟨e, he⟩ | hsaved
  · cases hok.symm.trans he
  · exact hsaved

end ListFile

namespace Desk

variable {d : Desk} {query : String} {q : Query}

/-- When something is found it is removed, and the file holds the other items. -/
theorem remove_found (hstart : d.disk.StartsInFolder)
    (hreadable : ListFile.IsReadable d.disk d.list.path)
    (hload : ListFile.load d.disk d.list.path = .ok d.items)
    (hids : d.matchingIds query = .ok (d.items.foundIds q)) (hne : d.items.foundIds q ≠ []) :
    (d.remove query).1 = .ok (d.items.foundIds q) ∧
      ∃ m, ListFile.load (d.remove query).2.disk d.list.path = .ok m ∧
        (d.items.removeAll (d.items.foundIds q)).Same m := by
  have hitems : d.items.entries ≠ [] := by
    intro hnil
    exact hne (ItemList.foundIds_eq_nil_iff.2 (by simp [hnil]))
  obtain ⟨content, hfile⟩ := ListFile.exists_read_of_load hreadable hload hitems
  have hstorable := ListFile.isStorable_of_load hreadable hload
  obtain ⟨hok, hleft⟩ :=
    ListFile.save_over hstart hfile (hstorable.removeAll (d.items.foundIds q))
  obtain ⟨hremoved, hdisk⟩ :=
    (changes_change (f := ItemList.removeAll) hids rfl).written hne
  rw [hok] at hremoved
  exact ⟨hremoved, hdisk ▸ hleft⟩

end Desk

namespace CommandLine

open Console

variable {e : Environment} {c now : Console} {config : Config} {list : Option String} {name : Json}
  {path : Path} {desk : Desk} {query : String} {yes : Bool}

/-! ### Going on -/

/-- The command is told to go on, or the first answer is a yes. -/
def GoesOn (yes : Bool) (input : List String) : Prop :=
  yes = true ∨ (firstAnswer input).1 = some true

/-- What is asked before going on. -/
def questions (yes : Bool) (question : String) : List Output :=
  if yes then [] else [.question question]

/-- What the command shows before it goes on: the rows, and unless it was told to go on the question
whether to remove as many items. -/
def offer (yes : Bool) (table : Table) : List Output :=
  .table table :: questions yes s!"Remove {table.rows.length} item(s)?"

/-- How the removal of so many items is reported. -/
def removal (n : Nat) : Output := .line s!"[green]✓ Removed {n} item(s)[/green]"

/-- An action that is agreed to starts from the disk as it was, behind the question. -/
theorem ends_ifAgreed_goesOn {question : String} {act : Action Unit}
    {done : Unit → Console → Prop} {failed : Console → Prop} (h : GoesOn yes c.input)
    (hact : ∀ c', c'.disk = c.disk → c'.shown = c.shown ++ questions yes question →
      Ends act c' done failed) : Ends (ifAgreed yes question act) c done failed := by
  cases yes with
  | true => exact hact c rfl (List.append_nil _).symm
  | false =>
    have hanswer := h.resolve_left Bool.false_ne_true
    change Ends (confirm question >>= fun goOn => if goOn then act else say cancelled) c done failed
    rw [ends_bind, ends_confirm_iff]
    refine ⟨fun b hb => ?_, fun hnone => nomatch hanswer.symm.trans hnone⟩
    cases hanswer.symm.trans hb
    exact hact _ rfl rfl

/-- Without an agreement nothing is done behind the question. -/
theorem ends_ifAgreed_stays {question : String} {act : Action Unit}
    {done : Unit → Console → Prop} {failed : Console → Prop} (h : ¬ GoesOn yes c.input)
    (hdone : ∀ c', c'.disk = c.disk → c.shown ++ questions yes question <+: c'.shown → done () c')
    (hfailed : ∀ c', c'.disk = c.disk → c.shown ++ questions yes question <+: c'.shown →
      failed c') : Ends (ifAgreed yes question act) c done failed := by
  obtain ⟨hyes, hanswer⟩ := not_or.1 h
  cases eq_false_of_ne_true hyes
  change Ends (confirm question >>= fun goOn => if goOn then act else say cancelled) c done failed
  rw [ends_bind, ends_confirm_iff]
  refine ⟨fun b hb => ?_, fun _ => hfailed _ rfl List.prefix_rfl⟩
  cases b with
  | true => exact absurd hb hanswer
  | false =>
    exact (ends_put _).2 ⟨fun _ => hdone _ rfl (List.prefix_append _ _),
      fun _ => hfailed _ rfl List.prefix_rfl⟩

/-! ### The command -/

/-- The action of removing, once it is agreed to. -/
def removeNow (desk : Desk) (query : String) : Action Unit := do
  let removed ← commit (desk.remove query)
  say s!"[green]✓ Removed {removed.length} item(s)[/green]"

section

variable (hsame : c.Same now) (hconfig : Config.load e c.disk = .ok config)
  (hresolve : config.resolve list = .ok (name, path))
  (hload : Desk.load (Config.spell name) path c.disk c.supply = .ok desk)
  {done : Unit → Console → Prop} {failed : Console → Prop}

include hsame hconfig hresolve hload

theorem ends_removeItems_of_error {f : Fault} (hids : desk.matchingIds query = .error f) :
    Ends (removeItems e query yes list) now done failed ↔ failed now := by
  rw [removeItems, ends_bind, ends_openList_of_load hsame hconfig hresolve hload]
  simp only
  rw [ends_bind, hids]
  exact Iff.rfl

theorem ends_removeItems_of_nil (hids : desk.matchingIds query = .ok []) :
    Ends (removeItems e query yes list) now done failed ↔
      done () { now with shown := now.shown ++ [.line (noMatch query)] } := by
  rw [removeItems, ends_bind, ends_openList_of_load hsame hconfig hresolve hload]
  have hshows : now.screen.shows (.line (noMatch query)) = true := now.screen.shows_noMatch query
  simp only
  rw [ends_bind, hids, ends_ofExcept_ok]
  exact ends_say_of_shows hshows

theorem ends_removeItems_of_found {ids : List ItemId} {table : Table}
    (hids : desk.matchingIds query = .ok ids) (hne : ids ≠ [])
    (htable : Display.items "To be removed" (desk.items.lookUp ids) = .ok table) :
    Ends (removeItems e query yes list) now done failed ↔
      Ends (ifAgreed yes s!"Remove {ids.length} item(s)?" (removeNow desk query))
        { now with shown := now.shown ++ [.table table] } done failed := by
  rw [removeItems, ends_bind, ends_openList_of_load hsame hconfig hresolve hload]
  have htitle : now.screen.canRead "To be removed" = true :=
    now.screen.canRead_of_harmless (.plain (by decide))
  simp only
  rw [ends_bind, hids, ends_ofExcept_ok, if_neg hne, ends_bind, htable, ends_ofExcept_ok, ends_bind,
    ends_put_of_shows (now.screen.shows_items htitle htable)]
  exact Iff.rfl

end

theorem ends_removeNow {ids : List ItemId} (h : (desk.remove query).1 = .ok ids)
    {done : Unit → Console → Prop} {failed : Console → Prop} :
    Ends (removeNow desk query) c done failed ↔ done () { c with
      disk := (desk.remove query).2.disk, supply := (desk.remove query).2.supply,
      shown := c.shown ++ [removal ids.length] } := by
  rw [removeNow, ends_bind, ends_commit, h]
  constructor
  · intro hdone
    exact (ends_say_of_shows (shows_removed _ _)).1 (hdone.1 ids rfl)
  · intro hdone
    refine ⟨?_, nofun⟩
    rintro _ ⟨⟩
    exact (ends_say_of_shows (shows_removed _ _)).2 hdone

/-! ### The table -/

/-- The table has a row for each item of the list on which some stage of the query is true, and no
other rows. Each row shows its item, and no id is in two rows. -/
structure IsPreview (l : ItemList) (q : Query) (es : List (ItemId × Item)) (table : Table) :
    Prop where
  mem : ∀ x, x ∈ es ↔ x ∈ l.entries ∧ ∃ f ∈ q.stageList, f.matches? x.2 = .ok true
  nodup : (es.map Prod.fst).Nodup
  title : table.title = "To be removed"
  columns : table.columns = ["ID", "Name", "Status", "Tags", "Description"]
  rows : List.Forall₂ Display.IsRow es table.rows
  distinct : (table.rows.map List.head?).Nodup

variable {l : ItemList} {q : Query}

theorem mem_firstFound_iff (hpriority : q.hasPriority = false) (x : ItemId × Item) :
    x ∈ ItemList.firstFound q.stageList l.entries ↔
      x ∈ l.entries ∧ ∃ f ∈ q.stageList, f.matches? x.2 = .ok true := by
  rw [(ItemList.firstFound_perm q.stageList l.entries).mem_iff, List.mem_filter]
  exact and_congr_right fun _ => Query.holds_eq_true_iff hpriority x.2

theorem lookUp_foundIds (hids : l.ids.Nodup) (hpriority : q.hasPriority = false) :
    l.lookUp (l.foundIds q) = ItemList.firstFound q.stageList l.entries :=
  ItemList.lookUp_map_fst hids fun x hx => ((mem_firstFound_iff hpriority x).1 hx).1

/-- What is looked up for the table are the items found, each once. -/
theorem exists_preview (hids : l.ids.Nodup) (hloose : l.HasLooseTexts)
    (hpriority : q.hasPriority = false) :
    ∃ es table, Display.items "To be removed" (l.lookUp (l.foundIds q)) = .ok table ∧
      IsPreview l q es table ∧ es.map Prod.fst = l.foundIds q := by
  obtain ⟨table, htable, htitle, hcolumns, hrows⟩ :=
    Display.exists_items (hloose.lookUp (l.foundIds q)) "To be removed"
  refine ⟨ItemList.firstFound q.stageList l.entries, table, htable, ?_, rfl⟩
  have hnodup := ItemList.foundIds_nodup hids q
  rw [lookUp_foundIds hids hpriority] at hrows
  exact ⟨mem_firstFound_iff hpriority, hnodup, htitle, hcolumns, hrows,
    Display.nodup_head? hrows hnodup⟩

theorem foundIds_eq_nil_iff_matches (hpriority : q.hasPriority = false) :
    l.foundIds q = [] ↔ ∀ x ∈ l.entries, ∀ f ∈ q.stageList, f.matches? x.2 ≠ .ok true := by
  rw [ItemList.foundIds, List.map_eq_nil_iff, List.eq_nil_iff_forall_not_mem]
  simp only [mem_firstFound_iff hpriority, not_and, not_exists]

/-! ### Runs -/

section

variable {code : Nat} {after : Console} {explain : Cause → String}

theorem conclude_eq_cases {a : Action Unit} (hrun : conclude explain a c = (code, after))
    {done failed : Console → Prop} (h : Ends a c (fun _ => done) failed) :
    code = 0 ∧ done after ∨
      code = 1 ∧ ∃ c', failed c' ∧ after.disk = c'.disk ∧ c'.shown <+: after.shown := by
  have hcases := conclude_cases explain h
  rw [hrun] at hcases
  refine hcases.imp_right fun ⟨hcode, c', f, hfailed, hafter⟩ => ⟨hcode, c', hfailed, ?_⟩
  rw [show after = _ from hafter]
  exact ⟨rfl, List.prefix_append _ _⟩

variable (hsame : c.Same now) (hconfig : Config.load e c.disk = .ok config)
  (hresolve : config.resolve list = .ok (name, path))
  (hload : Desk.load (Config.spell name) path c.disk c.supply = .ok desk)
  (hrun : conclude explain (removeItems e query yes list) now = (code, after))

include hsame hconfig hresolve hload hrun

theorem fails_of_error {f : Fault} (hids : desk.matchingIds query = .error f) :
    code = 1 ∧ after.disk = c.disk := by
  have hends : Ends (removeItems e query yes list) now (fun _ _ => False) (· = now) :=
    (ends_removeItems_of_error hsame hconfig hresolve hload hids).2 rfl
  rcases conclude_eq_cases hrun hends with ⟨-, hfalse⟩ | ⟨hcode, c', rfl, hdisk, -⟩
  · exact hfalse.elim
  · exact ⟨hcode, hdisk.trans hsame.disk⟩

theorem shows_noMatch_of_nil (hids : desk.matchingIds query = .ok []) :
    code = 0 ∧ after.disk = c.disk ∧ after.shown = now.shown ++ [.line (noMatch query)] := by
  have hends : Ends (removeItems e query yes list) now
      (fun _ c' => c'.disk = c.disk ∧ c'.shown = now.shown ++ [.line (noMatch query)])
      fun _ => False :=
    (ends_removeItems_of_nil hsame hconfig hresolve hload hids).2 ⟨hsame.disk, rfl⟩
  rcases conclude_eq_cases hrun hends with hdone | ⟨-, c', hfalse, -⟩
  · exact hdone
  · exact hfalse.elim

section

variable {ids : List ItemId} {table : Table} (hids : desk.matchingIds query = .ok ids)
  (hne : ids ≠ []) (htable : Display.items "To be removed" (desk.items.lookUp ids) = .ok table)
  (hrows : table.rows.length = ids.length)

include hids hne htable hrows

theorem removes_of_goesOn (hgo : GoesOn yes c.input) (hremoved : (desk.remove query).1 = .ok ids) :
    code = 0 ∧ after.disk = (desk.remove query).2.disk ∧
      after.shown = now.shown ++ offer yes table ++ [removal table.rows.length] := by
  have hends : Ends (removeItems e query yes list) now
      (fun _ c' => c'.disk = (desk.remove query).2.disk ∧
        c'.shown = now.shown ++ offer yes table ++ [removal table.rows.length])
      fun _ => False := by
    rw [ends_removeItems_of_found hsame hconfig hresolve hload hids hne htable, offer, hrows]
    refine ends_ifAgreed_goesOn (hsame.input ▸ hgo) fun c' _ hshown => ?_
    rw [ends_removeNow hremoved, hshown]
    exact ⟨rfl, by rw [← List.append_cons]⟩
  rcases conclude_eq_cases hrun hends with hdone | ⟨-, c', hfalse, -⟩
  · exact hdone
  · exact hfalse.elim

theorem stays_of_not_goesOn (hstay : ¬ GoesOn yes c.input) :
    after.disk = c.disk ∧ now.shown ++ offer yes table <+: after.shown := by
  let stays (c' : Console) : Prop := c'.disk = c.disk ∧ now.shown ++ offer yes table <+: c'.shown
  have hends : Ends (removeItems e query yes list) now (fun _ => stays) stays := by
    have hstays (c' : Console) (hdisk : c'.disk = now.disk)
        (hshown : now.shown ++ [.table table] ++ questions yes s!"Remove {ids.length} item(s)?" <+:
          c'.shown) : stays c' := by
      refine ⟨hdisk.trans hsame.disk, ?_⟩
      rwa [offer, hrows, List.append_cons]
    rw [ends_removeItems_of_found hsame hconfig hresolve hload hids hne htable]
    exact ends_ifAgreed_stays (hsame.input ▸ hstay) hstays hstays
  rcases conclude_eq_cases hrun hends with ⟨-, hdone⟩ | ⟨-, c', ⟨hdisk, hshown⟩, hafter, hmore⟩
  · exact hdone
  · exact ⟨hafter.trans hdisk, hshown.trans hmore⟩

end

end

/-- The disk of the configuration with one list, once that list has a file. -/
def stocked : Disk :=
  (registered (.str "chores")).disk.put ["list"] (.file Desk.sparse.write.toUTF8)

theorem write_stocked :
    (registered (.str "chores")).disk.write (.ofText "/list") Desk.sparse.write.toUTF8 =
      .ok stocked := by
  have hnone : (registered (.str "chores")).disk.node? ["list"] = none := rfl
  exact Disk.write_eq_ok_iff.2 ⟨_, locate_list _, by simp [hnone], rfl⟩

/-- The configuration is as it was before there was a file for the list. -/
theorem load_stocked : Config.load atRoot stocked =
    .ok ⟨[(.str "chores", .str "/list")], .str "chores", .default⟩ := by
  have hlocate : (registered (.str "chores")).disk.locate ⟨.root, ["todoq", "config.json"]⟩ =
      .ok ["todoq", "config.json"] := locate_config _
  have hhas : (registered (.str "chores")).disk.has ⟨.root, ["todoq", "config.json"]⟩ =
      .ok true := by
    rw [Disk.has, hlocate]
    rfl
  have hapart : (registered (.str "chores")).disk.placeOf ⟨.root, ["todoq", "config.json"]⟩ ≠
      (registered (.str "chores")).disk.placeOf (.ofText "/list") := by
    rw [← Disk.eq_placeOf_of_locate hlocate, ← Disk.eq_placeOf_of_locate (locate_list _)]
    decide
  rw [← load_registered (.str (LooseText.isJoined_ofString "chores")) rfl, Config.load, Config.load,
    configPath_atRoot, configPath_atRoot]
  exact Config.loadFrom_eq_of_writesOnly (Disk.writesOnly_of_write write_stocked) hapart hhas

theorem has_and_read_stocked : stocked.has (.ofText "/list") = .ok true ∧
    stocked.read (.ofText "/list") = .ok Desk.sparse.write.toUTF8 := by
  rw [Disk.has, Disk.read, locate_list]
  exact ⟨rfl, rfl⟩

theorem startsInFolder_stocked : stocked.StartsInFolder := by
  intro content h
  obtain ⟨place, hlocate, hnode⟩ := Disk.read_eq_ok_iff.1 h
  cases hlocate
  cases hnode

end CommandLine

end TodoLists
