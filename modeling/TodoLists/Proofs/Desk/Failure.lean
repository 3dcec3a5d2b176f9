import TodoLists.Proofs.Desk.Outcome
import TodoLists.Proofs.ListFile.Refusal

/-!
# What a failed change leaves in the file

A list file is opened, and so emptied, before the text of the list is made. The text can be made of
every list that is loaded, but for one thing: tags that have no order, such as a number and a text.
So when a change fails the file still holds what it held, unless the failure is that one; then the
file is empty. That is so at any point of a run, whatever has failed before.
-/

namespace TodoLists

/-! ### Saving -/

namespace ListFile

variable {d d₁ d₂ : Disk} {p : Path} {l : ItemList}

/-- Tags without an order come to light when the file is empty already. -/
theorem save_of_not_isOrdered (h : ¬ l.IsOrdered)
    (hfolders : d.ensureFolders p.parent = (.ok (), d₁))
    (hopen : d₁.write p ByteArray.empty = .ok d₂) :
    save d p l = (.error (.unforeseen .unordered), d₂) := by
  have hnone : ofList? l = none := by
    apply Option.eq_none_iff_forall_ne_some.2
    exact fun v hv => h (exists_ofList?_iff.1 ⟨v, hv⟩)
  rw [save, hfolders]
  simp only [hopen, hnone]

theorem save_cases_of_not_isOrdered (h : ¬ l.IsOrdered) (d : Disk) (p : Path) :
    (∃ e, (save d p l).1 = .error (saveFault p e) ∧ d.OnlyFoldersMade (save d p l).2) ∨
      (save d p l).1 = .error (.unforeseen .unordered) ∧
        (save d p l).2.read p = .ok ByteArray.empty := by
  have hmade := Disk.onlyFoldersMade_ensureFolders d p.parent
  rcases hfolders : d.ensureFolders p.parent with ⟨e | u, d₁⟩
  · rw [hfolders] at hmade
    rw [save, hfolders]
    exact Or.inl ⟨e, rfl, hmade⟩
  · rw [hfolders] at hmade
    cases hopen : d₁.write p ByteArray.empty with
    | error e =>
      rw [save, hfolders]
      simp only [hopen]
      exact Or.inl ⟨e, rfl, hmade⟩
    | ok d₂ =>
      rw [save_of_not_isOrdered h hfolders hopen]
      exact Or.inr ⟨rfl, (Disk.has_and_read_of_write hopen).2⟩

/-- The disk refuses before any file is changed, or the list is written, or its tags have no order
and the file is empty. -/
theorem save_outcome (h : l.IsWritable) (d : Disk) (p : Path) :
    (∃ e, (save d p l).1 = .error (saveFault p e) ∧ d.OnlyFoldersMade (save d p l).2) ∨
      (save d p l).1 = .ok () ∨
      (save d p l).1 = .error (.unforeseen .unordered) ∧ ¬ l.IsOrdered ∧
        (save d p l).2.read p = .ok ByteArray.empty := by
  by_cases hordered : l.IsOrdered
  · obtain ⟨v, hv⟩ := exists_ofList?_iff.2 hordered
    refine (save_cases_of_ofList? hv d p).imp_right fun hwritten => Or.inl ?_
    rw [hwritten, written, if_pos (isWritable_ofList? h hv)]
  · refine (save_cases_of_not_isOrdered hordered d p).imp_right fun hsave => Or.inr ?_
    exact ⟨hsave.1, hordered, hsave.2⟩

end ListFile

namespace Desk

variable {d : Desk} {α : Type} {r : Except Fault α × Desk}

/-- A failed step has changed no file, unless tags without an order came to light; then the list
file is empty. -/
structure Spares (d : Desk) (r : Except Fault α × Desk) : Prop where
  kept : ∀ f, r.1 = .error f → f ≠ .unforeseen .unordered → d.disk.OnlyFoldersMade r.2.disk
  emptied : r.1 = .error (.unforeseen .unordered) →
    ¬ r.2.items.IsOrdered ∧ r.2.disk.read d.list.path = .ok ByteArray.empty

theorem ne_unordered_of_isReportable {f : Fault} (h : f.IsReportable) :
    f ≠ .unforeseen .unordered := by
  rintro rfl
  exact absurd (h _ rfl) (by decide)

theorem saveFault_ne_unordered (p : Path) (e : FileError) :
    ListFile.saveFault p e ≠ .unforeseen .unordered :=
  ne_unordered_of_isReportable (ListFile.isReportable_saveFault p e)

/-- A step that leaves the desk as it is and finds no tags without an order. -/
theorem spares_of_unchanged {answer : Except Fault α}
    (h : answer ≠ .error (.unforeseen .unordered)) : d.Spares (answer, d) where
  kept _ _ _ := .refl _
  emptied hfault := absurd hfault h

theorem spares_saving (h : d.items.IsWritable) (answer : α) : d.Spares (d.saving answer) := by
  have hfst := saving_fst d answer
  rcases ListFile.save_outcome h d.disk d.list.path with
    ⟨e, hrefused, hmade⟩ | hok | ⟨hfault, hordered, hread⟩
  · rw [hrefused] at hfst
    refine ⟨fun _ _ _ => hmade, fun hunordered => ?_⟩
    exact absurd (Except.error.inj (hfst.symm.trans hunordered)) (saveFault_ne_unordered _ e)
  · rw [hok] at hfst
    constructor
    · intro f hf
      cases hfst.symm.trans hf
    · intro hf
      cases hfst.symm.trans hf
  · rw [hfault] at hfst
    refine ⟨fun f hf hne => ?_, fun _ => ⟨hordered, hread⟩⟩
    exact absurd (Except.error.inj (hf.symm.trans hfst)) hne

theorem Settled.spares (h : d.Settled ItemList.IsWritable r) : d.Spares r := by
  rcases h with ⟨answer, hanswer, rfl⟩ | ⟨d', answer, hdisk, ⟨-, hpath⟩, hwritable, rfl⟩
  · exact spares_of_unchanged fun hfault => ne_unordered_of_isReportable (hanswer _ hfault) rfl
  · have hspares := spares_saving hwritable answer
    exact ⟨hdisk ▸ hspares.kept, hpath ▸ hspares.emptied⟩

end Desk

/-! ### Runs -/

/-- Something that changes items. -/
def Operation.isUpdate : Operation → Bool
  | add _ => true
  | remove _ => true
  | setStatus _ _ => true
  | setTag _ _ _ => true
  | _ => false

namespace Desk

variable {p : Path}

/-- If the step adds an item then the id that it draws has a numeral. Drawn ids have 64 bits, so only
a supply of another kind could give one without. -/
def DrawsNumeral (d : Desk) (op : Operation) : Prop :=
  ∀ line, op = .add line → Text.isWritable d.nextId.value = true

/-- The desks that steps lead to, whether they failed or not. -/
inductive Leads (start : Desk) : Desk → Prop where
  | refl : Leads start start
  | step {d : Desk} (h : Leads start d) (op : Operation) (hop : d.DrawsNumeral op) :
    Leads start (d.perform op).2

/-- All numbers on the desk can be written to the file. -/
structure IsSound (p : Path) (d : Desk) : Prop where
  path : d.list.path = p
  items : d.items.IsWritable

theorem isSound_load {name : String} {disk : Disk} {supply : Supply}
    (hload : load name p disk supply = .ok d) : IsSound p d := by
  obtain ⟨l, hl, h⟩ := exists_of_bind_eq_ok hload
  cases h
  exact ⟨rfl, ListFile.isWritable_of_load hl⟩

section

variable (h : IsSound p d)

include h

theorem IsSound.of_settled (hsettled : d.Settled ItemList.IsWritable r) : IsSound p r.2 := by
  refine ⟨?_, hsettled.items h.items⟩
  rcases hsettled with ⟨answer, -, rfl⟩ | ⟨d', answer, -, ⟨-, hpath⟩, -, rfl⟩
  · exact h.path
  · exact hpath.trans h.path

/-- Every change is refused, or ends with a list being saved whose numbers can be written. -/
theorem IsSound.settled {op : Operation} (hop : op.isUpdate = true) (hdrawn : d.DrawsNumeral op) :
    d.Settled ItemList.IsWritable (d.perform op) := by
  cases op with
  | reopen | select | matchingIds => cases hop
  | add line =>
    exact (settled_add d line fun draft => h.items.add draft (hdrawn line rfl)).map _
  | remove query => exact (settled_change d query fun ids => h.items.removeAll ids).map _
  | setStatus query s =>
    exact (settled_change d query fun ids => h.items.modifyAll ids fun _ hi => hi.setStatus s).map _
  | setTag query tag present =>
    exact (settled_change d query fun ids =>
      h.items.modifyAll ids fun _ hi => hi.setTag tag present).map _

theorem IsSound.perform {op : Operation} (hdrawn : d.DrawsNumeral op) :
    IsSound p (d.perform op).2 := by
  cases op with
  | reopen =>
    rw [Desk.perform]
    split
    · next hload => exact isSound_load (h.path ▸ hload)
    · exact h
  | select | matchingIds => exact h
  | add | remove | setStatus | setTag => exact h.of_settled (h.settled rfl hdrawn)

end

theorem IsSound.of_leads {start : Desk} (h : IsSound p start) (hleads : Leads start d) :
    IsSound p d := by
  induction hleads with
  | refl => exact h
  | step _ _ hdrawn ih => exact ih.perform hdrawn

/-- Wherever steps from a loaded file have led, a change that fails leaves in the file what was
there, or the failure is that the tags of an item have no order; then nothing is left in it. -/
theorem read_failed_update {name : String} {disk : Disk} {supply : Supply} {start : Desk}
    (hload : load name p disk supply = .ok start) (hleads : Leads start d)
    {op : Operation} (hop : op.isUpdate = true) (hdrawn : d.DrawsNumeral op) {f : Fault}
    (hfail : (d.perform op).1 = .error f) {content : ByteArray}
    (hread : d.disk.read p = .ok content) :
    (f ≠ .unforeseen .unordered → (d.perform op).2.disk.read p = .ok content) ∧
    (f = .unforeseen .unordered → ¬ (d.perform op).2.items.IsOrdered ∧
      (d.perform op).2.disk.read p = .ok ByteArray.empty) := by
  have hsound : IsSound p d := (isSound_load hload).of_leads hleads
  have hspares : d.Spares (d.perform op) := (hsound.settled hop hdrawn).spares
  constructor
  · intro hne
    exact (hspares.kept f hfail hne).read hread
  · rintro rfl
    have hemptied := hspares.emptied hfail
    rwa [hsound.path] at hemptied

/-- After bread was added the empty query is refused, and the file still holds the bread. -/
theorem read_failed_update_bread : load "groceries" groceries kitchen (.ofList [7]) = .ok pantry ∧
    Leads pantry (pantry.perform (.add "bread")).2 ∧
    ∃ content, (pantry.perform (.add "bread")).2.disk.read groceries = .ok content ∧
      (∃ f, ((pantry.perform (.add "bread")).2.perform (.remove "")).1 = .error f) ∧
      ((pantry.perform (.add "bread")).2.perform (.remove "")).2.disk.read groceries =
        .ok content := by
  have hleads : Leads pantry (pantry.perform (.add "bread")).2 :=
    .step .refl _ allows_bread.drawn
  obtain ⟨v, hv, -⟩ := ListFile.exists_ofList? isStorable_bread
  obtain ⟨d, hwrite, hsave⟩ := ListFile.exists_save hv ensureFolders_kitchen (write_kitchen _)
  have hread : (pantry.perform (.add "bread")).2.disk.read groceries = .ok v.write.toUTF8 := by
    show (pantry.add "bread").2.disk.read groceries = _
    rw [disk_add (by decide +kernel)]
    show (ListFile.save kitchen groceries _).2.read groceries = _
    rw [hsave]
    exact (Disk.has_and_read_of_write hwrite).2
  have hfail : ∀ d : Desk, (d.perform (.remove "")).1 =
      .error (.query ⟨.emptyQuery, 0, ""⟩) := fun d => rfl
  have hdrawn : (pantry.perform (.add "bread")).2.DrawsNumeral (.remove "") := by
    intro line h
    cases h
  refine ⟨load_kitchen, hleads, _, hread, ⟨_, hfail _⟩, ?_⟩
  exact (read_failed_update load_kitchen hleads rfl hdrawn (hfail _) hread).1 (by simp)

/-! ### Tags without an order -/

/-- A file with an item whose tags are a number and a text. -/
def mixed : Json := .obj [("items", .arr [.obj [("id", .int 1), ("name", .str "tea"),
  ("tags", .arr [.int 1, .str "a"])]])]

theorem regular_mixed : mixed.Regular fun _ => False := by
  have hjoined := LooseText.isJoined_ofString
  have htags : ∀ tag ∈ [Json.int 1, .str "a"], tag.Regular fun _ => False :=
    List.forall_mem_cons.2 ⟨.int (by decide), List.forall_mem_singleton.2 (.str (hjoined "a"))⟩
  refine .obj (by simp) (List.forall_mem_singleton.2 (hjoined _))
    (List.forall_mem_singleton.2 (.arr (List.forall_mem_singleton.2 ?_)))
  refine .obj (by simp [LooseText.ofString_inj]) (by simp [hjoined]) ?_
  simpa using ⟨.int (by decide), .str (hjoined "tea"), .arr htags⟩

/-- The list of that file on a desk; 7 is drawn next. -/
def mixture : Desk where
  list := ⟨"shelf", ListFile.shelf, ⟨[(⟨1⟩, ⟨.str "tea", .str "", .waiting,
    .ofScalars [.int 1, .str "a"]⟩)]⟩⟩
  disk := ListFile.holding mixed
  supply := .ofList [7]

theorem load_mixed :
    load "shelf" ListFile.shelf (ListFile.holding mixed) (.ofList [7]) = .ok mixture := by
  rw [load, ListFile.load_holding regular_mixed]
  rfl

theorem not_isOrdered_mixture (draft : Draft) :
    ¬ (mixture.items.add draft mixture.supply).2.1.IsOrdered := by
  intro hordered
  obtain ⟨tags, htags⟩ := hordered _ (List.mem_append_left _ List.mem_cons_self)
  cases htags

theorem write_mixture (content : ByteArray) : mixture.disk.write ListFile.shelf content =
    .ok (mixture.disk.put ["shelf"] (.file content)) :=
  Disk.write_eq_ok_iff.2 ⟨_, ListFile.locate_shelf _, by decide, rfl⟩

/-- Milk is added to a list with an item that has a number and a text for tags. The list cannot be
written, and of its file nothing is left. -/
theorem add_empties_file :
    ¬ ∀ (name : String) (p : Path) (disk : Disk) (supply : Supply) (d : Desk) (op : Operation)
      (f : Fault) (content : ByteArray), load name p disk supply = .ok d →
      op.isUpdate = true → d.DrawsNumeral op → (d.perform op).1 = .error f →
      disk.read p = .ok content → (d.perform op).2.disk.read p = .ok content := by
  intro hall
  have hdrawn : mixture.DrawsNumeral (.add "milk") := by
    intro _ _
    rw [nextId, Supply.next_of_not_mem (by decide)]
    decide
  have hfolders : mixture.disk.ensureFolders mixture.list.path.parent = (.ok (), mixture.disk) := by
    rw [Disk.ensureFolders]
    rfl
  have hsave := ListFile.save_of_not_isOrdered
    (not_isOrdered_mixture (Draft.ofLine "milk".toList)) hfolders (write_mixture _)
  have hname : (Draft.ofLine "milk".toList).name ≠ "" := by decide +kernel
  have hfail : (mixture.perform (.add "milk")).1 = .error (.unforeseen .unordered) := by
    show (mixture.add "milk").1.map _ = _
    rw [add_fst hname, hsave]
    rfl
  have hempty : (mixture.perform (.add "milk")).2.disk.read ListFile.shelf =
      .ok ByteArray.empty := by
    show (mixture.add "milk").2.disk.read _ = _
    rw [disk_add hname, hsave]
    exact (Disk.has_and_read_of_write (write_mixture _)).2
  have hkept := hall _ _ _ _ _ _ _ _ load_mixed rfl hdrawn hfail (ListFile.read_holding mixed)
  have hbytes : mixed.write.toUTF8 = "".toUTF8 := Except.ok.inj (hkept.symm.trans hempty)
  have htext : mixed.write = "" := by
    have h := fromUTF8?_toUTF8 mixed.write
    rw [hbytes, fromUTF8?_toUTF8] at h
    exact (Option.some.inj h).symm
  exact absurd htext (by decide +kernel)

end Desk

end TodoLists
