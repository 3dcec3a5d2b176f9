import TodoLists.Proofs.Desk.Frame
import TodoLists.Proofs.Disk.Refill

/-!
# Work on a list reads no other file

When the content of a file is replaced that is not the list file, then whatever is done on a desk,
or typed into a shell on it, comes to the same answer and the same list.
-/

namespace TodoLists

variable {q : List LooseText} {x : ByteArray}

/-! ### List files -/

namespace ListFile

variable {d : Disk} {p : Path}

theorem load_refill (h : d.placeOf p ≠ q) : load (d.refill q x) p = load d p := by
  rw [load, load, Disk.has_refill, Disk.read_refill h]

theorem save_refill (h : d.placeOf p ≠ q) (l : ItemList) :
    save (d.refill q x) p l = ((save d p l).1, (save d p l).2.refill q x) := by
  have hfolder := (Disk.makesWay_ensureFolders d p.parent).folder
  rw [save, save, Disk.ensureFolders_refill]
  rcases hfolders : d.ensureFolders p.parent with ⟨e | u, d₁⟩
  · rfl
  · rw [hfolders] at hfolder
    have h₁ : d₁.placeOf p ≠ q := by rwa [Disk.placeOf_congr hfolder]
    simp only [Disk.write_refill h₁]
    cases hopen : d₁.write p ByteArray.empty with
    | error e => rfl
    | ok d₂ =>
      have h₂ : d₂.placeOf p ≠ q := by
        rwa [Disk.placeOf_congr (Disk.writesOnly_of_write hopen).folder]
      cases ofList? l with
      | none => rfl
      | some v =>
        simp only [Except.map, Disk.write_refill h₂]
        cases d₂.write p v.write.toUTF8 <;> rfl

end ListFile

/-! ### The desk -/

namespace Desk

/-- The desk with other content in a file of its disk. -/
def refill (q : List LooseText) (x : ByteArray) (d : Desk) : Desk :=
  { d with disk := d.disk.refill q x }

/-- The list file is another one. -/
def IsElsewhere (d : Desk) (q : List LooseText) : Prop := d.disk.placeOf d.list.path ≠ q

variable {d : Desk} {α : Type}

theorem WorksOn.isElsewhere {d' : Desk} (h : d.WorksOn d') (hd : d.IsElsewhere q) :
    d'.IsElsewhere q := by
  rwa [IsElsewhere, h.path, Disk.placeOf_congr h.disk.folder]

theorem load_refill {name : String} {p : Path} {disk : Disk} {supply : Supply}
    (h : disk.placeOf p ≠ q) : load name p (disk.refill q x) supply =
      (load name p disk supply).map (refill q x) := by
  rw [load, load, ListFile.load_refill h]
  cases ListFile.load disk p <;> rfl

theorem saving_refill (h : d.IsElsewhere q) (answer : α) : (d.refill q x).saving answer =
    ((d.saving answer).1, (d.saving answer).2.refill q x) := by
  have hsave : ListFile.save (d.refill q x).disk (d.refill q x).list.path (d.refill q x).items =
      ((ListFile.save d.disk d.list.path d.items).1,
        (ListFile.save d.disk d.list.path d.items).2.refill q x) :=
    ListFile.save_refill h d.items
  rw [saving, save, hsave]
  rfl

theorem add_refill (h : d.IsElsewhere q) (line : String) : (d.refill q x).add line =
    ((d.add line).1, (d.add line).2.refill q x) := by
  rw [add, add]
  split
  · rfl
  · exact saving_refill (d := { d.withItems (d.items.add (Draft.ofLine line.toList) d.supply).2.1 with
      supply := (d.items.add (Draft.ofLine line.toList) d.supply).2.2 }) h _

theorem change_refill (h : d.IsElsewhere q) (query : String)
    (f : ItemList → List ItemId → ItemList) : (d.refill q x).change query f =
      ((d.change query f).1, (d.change query f).2.refill q x) := by
  have hids : (d.refill q x).matchingIds query = d.matchingIds query := rfl
  rw [change, change, hids]
  split
  · rfl
  · rfl
  · next ids _ _ => exact saving_refill (d := d.withItems (f d.items ids)) h ids

end Desk

/-! ### The shell -/

namespace Shell

/-- The shell with other content in a file of its disk. -/
def refill (q : List LooseText) (x : ByteArray) (s : Shell) : Shell :=
  { s with desk := s.desk.refill q x }

variable {s : Shell} {explain : Cause → String}

section

variable (h : s.desk.IsElsewhere q)

include h

theorem add_refill (args : List Char) :
    (s.refill q x).add args = ((s.add args).1, (s.add args).2.refill q x) := by
  have hadd : (s.refill q x).desk.add (String.ofList args) =
      ((s.desk.add (String.ofList args)).1, (s.desk.add (String.ofList args)).2.refill q x) :=
    Desk.add_refill h _
  rw [add, hadd]
  rfl

theorem setStatus_refill (args : List Char) :
    (s.refill q x).setStatus args = ((s.setStatus args).1, (s.setStatus args).2.refill q x) := by
  rw [setStatus, setStatus]
  split
  · rfl
  · split
    · rfl
    · next word query _ _ status _ =>
      have hset : (s.refill q x).desk.setStatus (String.ofList query) status =
          ((s.desk.setStatus (String.ofList query) status).1,
            (s.desk.setStatus (String.ofList query) status).2.refill q x) :=
        Desk.change_refill h _ _
      rw [hset]
      rfl

theorem setTag_refill (args : List Char) (present : Bool) : (s.refill q x).setTag args present =
    ((s.setTag args present).1, (s.setTag args present).2.refill q x) := by
  rw [setTag, setTag]
  simp only
  split
  · rfl
  · next tag query _ =>
    have hset : ∀ tag, (s.refill q x).desk.setTag (String.ofList query) tag present =
        ((s.desk.setTag (String.ofList query) tag present).1,
          (s.desk.setTag (String.ofList query) tag present).2.refill q x) :=
      fun tag => Desk.change_refill h _ _
    rw [hset]
    rfl

theorem remove_refill (args : List Char) :
    (s.refill q x).remove args = ((s.remove args).1, (s.remove args).2.refill q x) := by
  rw [remove, remove]
  split
  · rfl
  · have hremove : (s.refill q x).desk.remove (String.ofList args) =
        ((s.desk.remove (String.ofList args)).1,
          (s.desk.remove (String.ofList args)).2.refill q x) :=
      Desk.change_refill h _ _
    rw [hremove]
    rfl

theorem perform_refill (args : List Char) (c : Command) :
    (s.refill q x).perform args c = ((s.perform args c).1, (s.perform args c).2.refill q x) := by
  cases c with
  | list | help | leave => rfl
  | add => exact add_refill h args
  | status => exact setStatus_refill h args
  | tag => exact setTag_refill h args true
  | untag => exact setTag_refill h args false
  | remove => exact remove_refill h args
  | sort =>
    rw [perform, perform, setSort, setSort]
    split
    · rfl
    · split <;> rfl

theorem execute_refill (line : String) : (s.refill q x).execute explain line =
    ((s.execute explain line).1, (s.execute explain line).2.refill q x) := by
  have hreporting : ∀ r : Answer, reporting explain (r.1, r.2.refill q x) =
      ((reporting explain r).1, (reporting explain r).2.refill q x) := by
    rintro ⟨f | out, s'⟩
    · simp only [reporting]
      split <;> rfl
    · rfl
  rw [execute_eq_answer, execute_eq_answer, answer, answer]
  simp only
  split
  · rfl
  · split
    · rfl
    · rw [perform_refill h, hreporting]

end

/-- The dialogue with other content in a file of the disk. -/
def Dialogue.refill (q : List LooseText) (x : ByteArray) (d : Dialogue) : Dialogue :=
  { d with shell := d.shell.refill q x }

theorem converse_refill (h : s.desk.IsElsewhere q) (entries : List Entry) :
    converse explain (s.refill q x) entries = (converse explain s entries).refill q x := by
  have hrunning : ∀ s : Shell, (s.refill q x).running = s.running := fun _ => rfl
  induction entries generalizing s with
  | nil =>
    rw [converse, converse, hrunning]
    split <;> rfl
  | cons entry entries ih =>
    rw [converse, converse, hrunning]
    split
    · cases entry with
      | interrupt =>
        simp only [ih h]
        rfl
      | line text =>
        have hworks : s.desk.WorksOn (s.execute explain text).2.desk := worksOn_execute s text
        have hline := hworks.isElsewhere h
        simp only [execute_refill h]
        rcases hout : s.execute explain text with ⟨f | out, s'⟩
        · rfl
        · rw [hout] at hline
          simp only [ih hline]
          rfl
    · rfl

theorem run_refill (h : s.desk.IsElsewhere q) (entries : List Entry) :
    (s.refill q x).run explain entries = (s.run explain entries).refill q x := by
  have hgreeting : (s.refill q x).greeting = s.greeting := rfl
  have hscreen : (s.refill q x).screen = s.screen := rfl
  rw [run, run, converse_refill h, hgreeting, hscreen]
  split <;> rfl

end Shell

end TodoLists
