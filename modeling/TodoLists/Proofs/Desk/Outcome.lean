import TodoLists.Proofs.Desk.Runs
import TodoLists.Proofs.Disk.Folders
import TodoLists.Proofs.ListFile.Writable
import TodoLists.Proofs.Query.Support

/-!
# What comes of a change

A change of a list is refused and leaves the desk as it is, or it ends with the changed list being
saved. Of a list whose texts are texts, saving can only fail for the disk or for too long a numeral,
and when the disk refuses no file has changed. So every fault that a desk meets is one that a front
end reports.
-/

namespace TodoLists

/-- Front ends report the fault: it is not one that nothing foresees. -/
def Fault.IsReportable (f : Fault) : Prop := ∀ c, f = .unforeseen c → c.isBadValue = true

/-! ### Lists of texts -/

namespace ItemList

variable {l : ItemList}

/-- The names, descriptions and tags of all items are texts, perhaps with lone surrogates. -/
def HasLooseTexts (l : ItemList) : Prop := ∀ e ∈ l.entries, e.2.HasLooseTexts

theorem IsStorable.hasLooseTexts (h : l.IsStorable) : l.HasLooseTexts := fun e he => (h e he).2

theorem HasLooseTexts.removeAll (h : l.HasLooseTexts) (ids : List ItemId) :
    (l.removeAll ids).HasLooseTexts :=
  forall_mem_removeAll h ids

theorem HasLooseTexts.modifyAll (h : l.HasLooseTexts) (ids : List ItemId) {f : Item → Item}
    (hf : ∀ i : Item, i.HasLooseTexts → (f i).HasLooseTexts) :
    (l.modifyAll ids f).HasLooseTexts :=
  forall_mem_modifyAll h (fun _ he => hf _ he) ids

/-- A kind of list stays when items are removed, and when their texts become other texts. -/
structure IsKept (kind : ItemList → Prop) : Prop where
  removeAll : ∀ {l}, kind l → ∀ ids, kind (l.removeAll ids)
  modifyAll : ∀ {l}, kind l → ∀ ids {f : Item → Item},
    (∀ i : Item, i.HasLooseTexts → (f i).HasLooseTexts) → kind (l.modifyAll ids f)

theorem isKept_hasLooseTexts : IsKept HasLooseTexts where
  removeAll h ids := h.removeAll ids
  modifyAll h ids := h.modifyAll ids

theorem isKept_isStorable : IsKept IsStorable where
  removeAll h ids := h.removeAll ids
  modifyAll h ids := h.modifyAll ids

theorem HasLooseTexts.add (h : l.HasLooseTexts) (d : Draft) (supply : Supply) :
    (l.add d supply).2.1.HasLooseTexts :=
  List.forall_mem_append.2
    ⟨h, List.forall_mem_singleton.2 (Item.hasTexts_ofTexts _ _ _ _).loose⟩

end ItemList

/-! ### Saving -/

namespace ListFile

variable {l : ItemList}

theorem isReportable_saveFault (p : Path) (e : FileError) : (saveFault p e).IsReportable := by
  intro c hc
  rw [saveFault] at hc
  split at hc
  · next hbad =>
    cases hc
    exact hbad
  · cases hc

theorem isReportable_of_written {v : Json} {f : Fault} (h : written v = .error f) :
    f.IsReportable := by
  rw [written] at h
  split at h
  · cases h
  · cases h
    rintro c ⟨⟩
    rfl

theorem exists_ofList?_of_hasLooseTexts (h : l.HasLooseTexts) : ∃ v, ofList? l = some v :=
  exists_ofList?_iff.2 fun e he => (h e he).tags.exists_inOrder.imp fun _ hvs => hvs.1

/-- The disk refuses before any file is changed, or else the value decides. -/
theorem save_cases_of_ofList? {v : Json} (hv : ofList? l = some v) (d : Disk) (p : Path) :
    (∃ e, (save d p l).1 = .error (saveFault p e) ∧ d.OnlyFoldersMade (save d p l).2) ∨
      (save d p l).1 = written v := by
  have hmade := Disk.onlyFoldersMade_ensureFolders d p.parent
  rcases hfolders : d.ensureFolders p.parent with ⟨e | u, d₁⟩
  · rw [hfolders] at hmade
    rw [save, hfolders]
    exact Or.inl ⟨e, rfl, hmade⟩
  · rw [hfolders] at hmade
    cases hopen : d₁.write p ByteArray.empty with
    | error e =>
      rw [save, hfolders]
      simp only [hopen]
      exact Or.inl ⟨e, rfl, hmade⟩
    | ok d₂ =>
      obtain ⟨d₃, -, hsave⟩ := exists_save hv hfolders hopen
      exact Or.inr (by rw [hsave])

end ListFile

namespace Desk

variable {d : Desk} {α : Type}

theorem saving_fst (d : Desk) (answer : α) :
    (d.saving answer).1 = (ListFile.save d.disk d.list.path d.items).1.map fun _ => answer := rfl

theorem isReportable_of_saving (h : d.items.HasLooseTexts) {answer : α} {f : Fault}
    (hf : (d.saving answer).1 = .error f) : f.IsReportable := by
  obtain ⟨v, hv⟩ := ListFile.exists_ofList?_of_hasLooseTexts h
  have hsave := eq_error_of_map_eq_error (saving_fst d answer ▸ hf)
  rcases ListFile.save_cases_of_ofList? hv d.disk d.list.path with ⟨e, he, -⟩ | hwritten
  · rw [he] at hsave
    cases hsave
    exact ListFile.isReportable_saveFault _ e
  · exact ListFile.isReportable_of_written (hwritten ▸ hsave)

/-- Of a list that can be stored only the disk can refuse the file, and then no file has changed. -/
theorem saving_cases (h : d.items.IsStorable) (answer : α) :
    (WriteFailed d.list.path (d.saving answer).1 ∧
      d.disk.OnlyFoldersMade (d.saving answer).2.disk) ∨ (d.saving answer).1 = .ok answer := by
  obtain ⟨v, hv, hregular, -⟩ := ListFile.exists_ofList? h
  rw [saving_fst]
  rcases ListFile.save_cases_of_ofList? hv d.disk d.list.path with ⟨e, he, hmade⟩ | hwritten
  · rw [he]
    exact Or.inl ⟨⟨e, rfl⟩, hmade⟩
  · rw [hwritten, ListFile.written, if_pos hregular.isWritable]
    exact Or.inr rfl

/-! ### Refused or saved -/

/-- The outcome is a refusal that leaves the desk as it is, an answer for which nothing had to be
done, or that of saving a list of some kind. -/
def Settled (d : Desk) (kind : ItemList → Prop) (r : Except Fault α × Desk) : Prop :=
  (∃ answer, (∀ f, answer = .error f → f.IsReportable) ∧ r = (answer, d)) ∨
    ∃ d' : Desk, ∃ answer, d'.disk = d.disk ∧
      (d'.list.name = d.list.name ∧ d'.list.path = d.list.path) ∧ kind d'.items ∧
      r = d'.saving answer

namespace Settled

variable {kind : ItemList → Prop} {r : Except Fault α × Desk}

theorem refused {f : Fault} (hf : f.IsReportable) :
    d.Settled kind ((.error f : Except Fault α), d) := by
  refine Or.inl ⟨.error f, ?_, rfl⟩
  rintro _ ⟨⟩
  exact hf

theorem answered (a : α) : d.Settled kind (.ok a, d) := by
  refine Or.inl ⟨.ok a, ?_, rfl⟩
  intro f hf
  cases hf

/-- The answer may be put in other words. -/
theorem map {β : Type} (h : d.Settled kind r) (g : α → β) : d.Settled kind (r.1.map g, r.2) := by
  rcases h with ⟨answer, hanswer, rfl⟩ | ⟨d', answer, hdisk, hlist, hkind, rfl⟩
  · exact Or.inl ⟨answer.map g, fun f hf => hanswer f (eq_error_of_map_eq_error hf), rfl⟩
  · refine Or.inr ⟨d', g answer, hdisk, hlist, hkind, ?_⟩
    rw [saving, saving]
    rcases d'.save with ⟨e | u, d''⟩ <;> rfl

theorem items (h : d.Settled kind r) (hd : kind d.items) : kind r.2.items := by
  rcases h with ⟨answer, -, rfl⟩ | ⟨d', answer, -, -, hkind, rfl⟩
  · exact hd
  · exact hkind

theorem isReportable (h : d.Settled ItemList.HasLooseTexts r) {f : Fault} (hf : r.1 = .error f) :
    f.IsReportable := by
  rcases h with ⟨answer, hanswer, rfl⟩ | ⟨d', answer, -, -, hloose, rfl⟩
  · exact hanswer f hf
  · exact isReportable_of_saving hloose hf

/-- A refusal has changed no file. -/
theorem onlyFoldersMade (h : d.Settled ItemList.IsStorable r) {f : Fault} (hf : r.1 = .error f) :
    d.disk.OnlyFoldersMade r.2.disk := by
  rcases h with ⟨answer, -, rfl⟩ | ⟨d', answer, hdisk, -, hstorable, rfl⟩
  · exact .refl _
  · rcases saving_cases hstorable answer with ⟨-, hmade⟩ | hok
    · exact hdisk ▸ hmade
    · rw [hok] at hf
      cases hf

/-- A refusal that is not the disk's leaves everything as it was. -/
theorem unchanged (h : d.Settled ItemList.IsStorable r) {f : Fault} (hf : r.1 = .error f)
    (hwritten : ¬ WriteFailed d.list.path r.1) : r.2 = d := by
  rcases h with ⟨answer, -, rfl⟩ | ⟨d', answer, -, ⟨-, hpath⟩, hstorable, rfl⟩
  · rfl
  · rcases saving_cases hstorable answer with ⟨hfailed, -⟩ | hok
    · exact absurd (hpath ▸ hfailed) hwritten
    · rw [hok] at hf
      cases hf

end Settled

/-! ### What is asked of a desk -/

theorem isReportable_query (e : Query.SyntaxError) : (Fault.query e).IsReportable := nofun

theorem isReportable_unsupported (u : Unsupported) : (Fault.unsupported u).IsReportable := nofun

theorem isReportable_invalid (e : InvalidInput) : (Fault.invalid e).IsReportable := nofun

theorem isReportable_of_matchingIds {query : String} {f : Fault}
    (h : d.matchingIds query = .error f) : f.IsReportable := by
  rcases cases_of_bind_eq_error h with hparse | ⟨q, -, h⟩
  · obtain ⟨e, -, rfl⟩ := exists_of_mapError_eq_error hparse
    exact isReportable_query e
  · rcases cases_of_bind_eq_error h with hselect | ⟨ids, -, h⟩
    · obtain ⟨u, -, rfl⟩ := exists_of_mapError_eq_error hselect
      exact isReportable_unsupported u
    · cases h

theorem settled_change (d : Desk) (query : String) {f : ItemList → List ItemId → ItemList}
    {kind : ItemList → Prop} (hf : ∀ ids, kind (f d.items ids)) :
    d.Settled kind (d.change query f) := by
  rw [change]
  split
  · next e he => exact .refused (isReportable_of_matchingIds he)
  · exact .answered []
  · next ids _ _ => exact Or.inr ⟨d.withItems (f d.items ids), ids, rfl, ⟨rfl, rfl⟩, hf ids, rfl⟩

section

variable {kind : ItemList → Prop} (hkind : ItemList.IsKept kind) (hd : kind d.items)

include hkind hd

theorem settled_remove (query : String) : d.Settled kind (d.remove query) :=
  settled_change d query fun ids => hkind.removeAll hd ids

theorem settled_setStatus (query : String) (s : Status) : d.Settled kind (d.setStatus query s) :=
  settled_change d query fun ids => hkind.modifyAll hd ids fun _ hi => hi.setStatus s

theorem settled_setTag (query tag : String) (present : Bool) :
    d.Settled kind (d.setTag query tag present) :=
  settled_change d query fun ids => hkind.modifyAll hd ids fun _ hi => hi.setTag tag present

end

theorem settled_add (d : Desk) (line : String) {kind : ItemList → Prop}
    (hadd : ∀ draft, kind (d.items.add draft d.supply).2.1) : d.Settled kind (d.add line) := by
  rw [add]
  split
  · exact .refused (isReportable_invalid _)
  · exact Or.inr ⟨{ d.withItems (d.items.add (Draft.ofLine line.toList) d.supply).2.1 with
      supply := (d.items.add (Draft.ofLine line.toList) d.supply).2.2 }, _, rfl, ⟨rfl, rfl⟩, hadd _,
      rfl⟩

/-- After an item was added the disk is as saving the new list leaves it. -/
theorem disk_add {line : String} (h : (Draft.ofLine line.toList).name ≠ "") :
    (d.add line).2.disk = (ListFile.save d.disk d.list.path
      (d.items.add (Draft.ofLine line.toList) d.supply).2.1).2 := by
  rw [add, if_neg h]
  rfl

end Desk

end TodoLists
