import TodoLists.Desk
import TodoLists.Proofs.ListFile.Layout
import TodoLists.Proofs.ListFile.RoundTrip

/-!
# Runs of a desk

Whatever is done on a desk, and whether it succeeds or not, the file holds the list on the desk
afterwards, as long as the disk lets the file be written. A step either leaves both as they are or
ends with a list being saved, so it is enough that every list that comes up can be stored.
-/

namespace TodoLists

/-! ### Steps -/

/-- A first number that is free is taken. -/
theorem Supply.next_of_not_mem {s : Supply} {taken : List Int} (h : s.draw 0 ∉ taken) :
    (s.next taken).1 = s.draw 0 := by
  have hzero : (s.skipped taken : Nat) = 0 := by
    by_contra hne
    have hskip := (s.skipped taken).2.2 0 (Nat.pos_of_ne_zero hne)
    exact h (by simpa using hskip)
  rw [next, hzero]

/-- What can be asked of a desk. -/
inductive Operation where
  | reopen
  | select (query : String) (order : SortOrder)
  | matchingIds (query : String)
  | add (line : String)
  | remove (query : String)
  | setStatus (query : String) (status : Status)
  | setTag (query tag : String) (present : Bool)

namespace Desk

/-- Does what is asked and forgets the answer. A list that cannot be loaded again stays as it is. -/
def perform (d : Desk) : Operation → Except Fault Unit × Desk
  | .reopen =>
    match load d.list.name d.list.path d.disk d.supply with
    | .ok d' => (.ok (), d')
    | .error e => (.error e, d)
  | .select query order => ((d.select query order).map fun _ => (), d)
  | .matchingIds query => ((d.matchingIds query).map fun _ => (), d)
  | .add line => ((d.add line).1.map fun _ => (), (d.add line).2)
  | .remove query => ((d.remove query).1.map fun _ => (), (d.remove query).2)
  | .setStatus query s => ((d.setStatus query s).1.map fun _ => (), (d.setStatus query s).2)
  | .setTag query tag present =>
    ((d.setTag query tag present).1.map fun _ => (), (d.setTag query tag present).2)

/-- The outcome tells that the list file could not be written. -/
def WriteFailed {α : Type} (p : Path) (r : Except Fault α) : Prop :=
  ∃ e, r = .error (ListFile.saveFault p e)

/-- The id that an item would be added under. -/
def nextId (d : Desk) : ItemId := ⟨(d.supply.next (d.items.ids.map ItemId.value)).1⟩

/-- The file can be written if the step does, and an id that the step draws has a numeral. Drawn
ids have 64 bits, so only a supply of another kind could give one without. -/
structure Allows (d : Desk) (op : Operation) : Prop where
  written : ¬ WriteFailed d.list.path (d.perform op).1
  drawn : ∀ line, op = .add line → Text.isWritable d.nextId.value = true

/-- The desks that steps lead to in which no writing fails. -/
inductive Reaches (start : Desk) : Desk → Prop where
  | refl : Reaches start start
  | step {d : Desk} (h : Reaches start d) (op : Operation) (hop : d.Allows op) :
    Reaches start (d.perform op).2

/-! ### What a step preserves -/

/-- The file holds the list on the desk, and the list can be stored. -/
structure InSync (p : Path) (d : Desk) : Prop where
  path : d.list.path = p
  stored : ∃ l, ListFile.load d.disk p = .ok l ∧ d.items.Same l
  storable : d.items.IsStorable

variable {p : Path} {d : Desk}

theorem WriteFailed.map {α β : Type} {r : Except Fault α} (f : α → β) (h : WriteFailed p r) :
    WriteFailed p (r.map f) := by
  obtain ⟨e, rfl⟩ := h
  exact ⟨e, rfl⟩

/-- Saving a list that can be stored brings the file in step with it. -/
theorem inSync_saving {α : Type} (hpath : d.list.path = p) (hstorable : d.items.IsStorable)
    (answer : α) (hwritten : ¬ WriteFailed p (d.saving answer).1) :
    InSync p (d.saving answer).2 := by
  subst hpath
  rcases ListFile.load_after_save hstorable d.disk d.list.path with ⟨e, he⟩ | ⟨-, hload⟩
  · exact absurd (WriteFailed.map (fun _ => answer) ⟨e, he⟩) hwritten
  · exact ⟨rfl, hload, hstorable⟩

/-- A change leaves the desk as it is, or ends with the changed list being saved. -/
theorem change_cases (d : Desk) (query : String) (f : ItemList → List ItemId → ItemList) :
    (∃ r, d.change query f = (r, d)) ∨
      ∃ ids, d.change query f = (d.withItems (f d.items ids)).saving ids := by
  rw [Desk.change]
  split
  · exact Or.inl ⟨_, rfl⟩
  · exact Or.inl ⟨_, rfl⟩
  · exact Or.inr ⟨_, rfl⟩

theorem InSync.change (h : InSync p d) (query : String) {f : ItemList → List ItemId → ItemList}
    (hf : ∀ ids, (f d.items ids).IsStorable)
    (hwritten : ¬ WriteFailed p (d.change query f).1) : InSync p (d.change query f).2 := by
  rcases change_cases d query f with ⟨r, hr⟩ | ⟨ids, hids⟩
  · rwa [hr]
  · rw [hids] at hwritten ⊢
    exact inSync_saving (d := d.withItems (f d.items ids)) h.path (hf ids) ids hwritten

theorem InSync.add (h : InSync p d) (hid : Text.isWritable d.nextId.value = true) (line : String)
    (hwritten : ¬ WriteFailed p (d.add line).1) : InSync p (d.add line).2 := by
  rw [Desk.add] at hwritten ⊢
  split
  · exact h
  · next hname =>
    rw [if_neg hname] at hwritten
    let d' : Desk := { d.withItems (d.items.add (Draft.ofLine line.toList) d.supply).2.1 with
      supply := (d.items.add (Draft.ofLine line.toList) d.supply).2.2 }
    exact inSync_saving (d := d') h.path (h.storable.add _ hid) _ hwritten

/-- What is loaded again is what was on the desk. -/
theorem InSync.reopen (h : InSync p d) : InSync p (d.perform .reopen).2 := by
  obtain ⟨l, hl, hsame⟩ := h.stored
  rw [← h.path] at hl
  rw [perform, load, hl]
  exact ⟨h.path, ⟨l, h.path ▸ hl, .refl l⟩, hsame.isStorable h.storable⟩

/-- Every step in which no writing fails keeps the file in step with the list. -/
theorem InSync.perform (h : InSync p d) {op : Operation} (hop : d.Allows op) :
    InSync p (d.perform op).2 := by
  have hwritten := hop.written
  rw [h.path] at hwritten
  cases op with
  | reopen => exact h.reopen
  | select | matchingIds => exact h
  | add line => exact h.add (hop.drawn line rfl) line fun hfail => hwritten (hfail.map _)
  | remove query =>
    exact h.change query (fun ids => h.storable.removeAll ids) fun hfail => hwritten (hfail.map _)
  | setStatus query s =>
    exact h.change query (fun ids => h.storable.modifyAll ids fun _ hi => hi.setStatus s)
      fun hfail => hwritten (hfail.map _)
  | setTag query tag present =>
    exact h.change query (fun ids => h.storable.modifyAll ids fun _ hi => hi.setTag tag present)
      fun hfail => hwritten (hfail.map _)

theorem InSync.of_reaches {start : Desk} (h : InSync p start) (hreaches : Reaches start d) :
    InSync p d := by
  induction hreaches with
  | refl => exact h
  | step _ _ hop ih => exact ih.perform hop

/-! ### Runs -/

/-- From a missing file or one in the layout a desk can be opened, and wherever steps without a
failed write lead, the file holds the list on the desk. -/
theorem load_reaches (name : String) (p : Path) (disk : Disk) (supply : Supply)
    (hreadable : ListFile.IsReadable disk p) :
    ∃ start, load name p disk supply = .ok start ∧ ∀ d, Reaches start d →
      d.list.path = p ∧ ∃ l, ListFile.load d.disk p = .ok l ∧ d.items.Same l := by
  obtain ⟨l, hl, hstorable⟩ := ListFile.load_of_isReadable hreadable
  have hstart : InSync p ⟨⟨name, p, l⟩, disk, supply⟩ := ⟨rfl, ⟨l, hl, .refl l⟩, hstorable⟩
  refine ⟨⟨⟨name, p, l⟩, disk, supply⟩, ?_, fun d hd => ?_⟩
  · rw [load, hl]
    rfl
  · have h := hstart.of_reaches hd
    exact ⟨h.path, h.stored⟩

/-- The value of a file with one item, of which only the id and the name are given. -/
def sparse : Json := .obj [("items", .arr [.obj [("id", .int 1), ("name", .str "milk")]])]

theorem hasLayout_sparse : ListFile.HasLayout sparse := by
  refine ⟨_, rfl, ?_⟩
  rintro _ ⟨⟩
  refine ⟨_, rfl, List.forall_mem_singleton.2 ⟨_, rfl, ⟨1, rfl⟩, ⟨_, rfl⟩, ?_, ?_, ?_⟩⟩ <;>
    exact nofun

theorem regular_sparse : sparse.Regular fun _ => False := by
  have hjoined := LooseText.isJoined_ofString
  refine .obj (by simp) (List.forall_mem_singleton.2 (hjoined _))
    (List.forall_mem_singleton.2 (.arr (List.forall_mem_singleton.2 ?_)))
  refine .obj (by simp [LooseText.ofString_inj]) (by simp [hjoined]) ?_
  simpa using ⟨.int (by decide), .str (hjoined "milk")⟩

def groceries : Path := ⟨.root, ["groceries"]⟩

/-- A disk with that file. -/
def kitchen : Disk := ⟨[], [(["groceries"], .file sparse.write.toUTF8)]⟩

theorem locate_groceries (d : Disk) : d.locate groceries = .ok ["groceries"] := by cbv

theorem has_and_read_groceries : kitchen.has groceries = .ok true ∧
    kitchen.read groceries = .ok sparse.write.toUTF8 := by
  rw [Disk.has, Disk.read, locate_groceries]
  exact ⟨rfl, rfl⟩

theorem isReadable_kitchen : ListFile.IsReadable kitchen groceries :=
  Or.inr ⟨_, _, sparse, has_and_read_groceries.1, has_and_read_groceries.2, fromUTF8?_toUTF8 _,
    Json.read_write regular_sparse, hasLayout_sparse⟩

/-- Ids are drawn from 7, 1, 2, 3 and so on. -/
def pantry : Desk :=
  ⟨⟨"groceries", groceries, ⟨[(⟨1⟩, .ofTexts "milk" "" .waiting [])]⟩⟩, kitchen, .ofList [7]⟩

theorem load_kitchen : load "groceries" groceries kitchen (.ofList [7]) = .ok pantry := by
  rw [load, ListFile.load, has_and_read_groceries.1]
  simp only [has_and_read_groceries.2, ListFile.decode_write regular_sparse]
  rfl

theorem nextId_pantry : pantry.nextId = ⟨7⟩ := by
  rw [nextId, Supply.next_of_not_mem (by decide)]
  rfl

theorem fst_items_add (d : Desk) (draft : Draft) : (d.items.add draft d.supply).1 = d.nextId := rfl

/-- An item with a name is added if the disk takes the list. -/
theorem add_fst {d : Desk} {line : String} (h : (Draft.ofLine line.toList).name ≠ "") :
    (d.add line).1 = (ListFile.save d.disk d.list.path
      (d.items.add (Draft.ofLine line.toList) d.supply).2.1).1.map fun _ => d.nextId := by
  rw [Desk.add, if_neg h]
  rfl

theorem ensureFolders_kitchen : kitchen.ensureFolders groceries.parent = (.ok (), kitchen) := by
  rw [Disk.ensureFolders]
  rfl

theorem write_kitchen (content : ByteArray) : kitchen.write groceries content =
    .ok (kitchen.put ["groceries"] (.file content)) :=
  Disk.write_eq_ok_iff.2 ⟨_, locate_groceries kitchen, by decide, rfl⟩

/-- The list with the milk and the bread can be stored. -/
theorem isStorable_bread :
    (pantry.items.add (Draft.ofLine "bread".toList) pantry.supply).2.1.IsStorable := by
  have hstorable : pantry.items.IsStorable :=
    ItemList.isStorable_of_hasTexts
      (List.forall_mem_singleton.2 (Item.hasTexts_ofTexts _ _ _ _)) (by decide)
  apply hstorable.add
  rw [fst_items_add, nextId_pantry]
  decide

theorem allows_bread : pantry.Allows (.add "bread") := by
  have hsave : (ListFile.save pantry.disk pantry.list.path
      (pantry.items.add (Draft.ofLine "bread".toList) pantry.supply).2.1).1 = .ok () :=
    ListFile.save_eq_ok isStorable_bread ensureFolders_kitchen (write_kitchen _)
  have hadd : (pantry.add "bread").1 = .ok pantry.nextId := by
    rw [add_fst (by decide +kernel), hsave]
    rfl
  constructor
  · rintro ⟨e, he⟩
    rw [perform, hadd] at he
    cases he
  · intro _ _
    rw [nextId_pantry]
    decide

/-- After bread is added to the list with the milk, the file holds both. -/
theorem load_reaches_bread : ListFile.IsReadable kitchen groceries ∧
    ∃ start, load "groceries" groceries kitchen (.ofList [7]) = .ok start ∧
      start.Allows (.add "bread") ∧ ∃ l,
        ListFile.load (start.perform (.add "bread")).2.disk groceries = .ok l ∧
        (start.perform (.add "bread")).2.items.Same l := by
  obtain ⟨start, hstart, hrun⟩ :=
    load_reaches "groceries" groceries kitchen (.ofList [7]) isReadable_kitchen
  have hallows : start.Allows (.add "bread") := by
    rw [load_kitchen] at hstart
    cases hstart
    exact allows_bread
  exact ⟨isReadable_kitchen, start, hstart, hallows, (hrun _ (.step .refl _ hallows)).2⟩

end Desk

end TodoLists
