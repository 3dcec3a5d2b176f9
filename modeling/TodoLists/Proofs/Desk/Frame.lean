import TodoLists.Proofs.Desk.Outcome
import TodoLists.Proofs.Disk.Straight
import TodoLists.Proofs.Shell.Printing

/-!
# Work on a list stays in its file

Whatever is done on a desk, or typed into a shell on it, the desk keeps its list file, and on the
disk nothing else is different afterwards than that file and the folders on the way to it.
-/

namespace TodoLists

theorem ListFile.writesOnly_save (d : Disk) (p : Path) (l : ItemList) :
    d.WritesOnly p (save d p l).2 := by
  have hmade := (Disk.makesWay_ensureFolders d p.parent).writesOnly
  rw [save]
  split
  · next hfolders =>
    rw [hfolders] at hmade
    exact hmade
  · next hfolders =>
    rw [hfolders] at hmade
    split
    · exact hmade
    · next hopen =>
      have hopened := hmade.trans (Disk.writesOnly_of_write hopen)
      split
      · exact hopened
      · split
        · exact hopened
        · next hwrite => exact hopened.trans (Disk.writesOnly_of_write hwrite)

/-- Writing a file leaves the lists in other files as they were. -/
theorem ListFile.load_eq_of_writesOnly {d d' : Disk} {p q : Path} (h : d.WritesOnly p d')
    (htree : d.IsTree) (hq : q.IsStraight) (hfits : q.Fits)
    (hway : ∀ k, d.placeOf q ≠ d.placeOf (p.upTo k)) : load d' q = load d q := by
  have hne : d.placeOf q ≠ d.placeOf p := by
    have := hway p.parts.length
    rwa [Path.upTo_length] at this
  rw [load, load, h.has_eq htree hq hway hfits]
  cases hhas : d.has q with
  | error e => rfl
  | ok there =>
    cases there with
    | false => rfl
    | true =>
      simp only
      rw [h.read_eq hne hhas]

/-! ### The desk -/

namespace Desk

variable {d d' d'' : Desk} {α : Type} {r : Except Fault α × Desk} {kind : ItemList → Prop}

/-- The second desk has the same list and list file, and only there anything was written. -/
structure WorksOn (d d' : Desk) : Prop where
  name : d'.list.name = d.list.name
  path : d'.list.path = d.list.path
  disk : d.disk.WritesOnly d.list.path d'.disk

theorem WorksOn.refl (d : Desk) : d.WorksOn d := ⟨rfl, rfl, .refl _ _⟩

theorem WorksOn.trans (h : d.WorksOn d') (h' : d'.WorksOn d'') : d.WorksOn d'' where
  name := h'.name.trans h.name
  path := h'.path.trans h.path
  disk := h.disk.trans (h.path ▸ h'.disk)

theorem Settled.worksOn (h : d.Settled kind r) : d.WorksOn r.2 := by
  rcases h with ⟨answer, -, rfl⟩ | ⟨d', answer, hdisk, ⟨hname, hpath⟩, -, rfl⟩
  · exact .refl d
  · refine ⟨hname, hpath, ?_⟩
    rw [← hdisk, ← hpath]
    exact ListFile.writesOnly_save d'.disk d'.list.path d'.items

theorem worksOn_add (d : Desk) (line : String) : d.WorksOn (d.add line).2 :=
  have hsettled : d.Settled (fun _ => True) (d.add line) := settled_add d line fun _ => trivial
  hsettled.worksOn

theorem worksOn_change (d : Desk) (query : String) (f : ItemList → List ItemId → ItemList) :
    d.WorksOn (d.change query f).2 :=
  have hsettled : d.Settled (fun _ => True) (d.change query f) :=
    settled_change d query fun _ => trivial
  hsettled.worksOn

end Desk

/-! ### The shell -/

namespace Shell

variable {explain : Cause → String}

theorem worksOn_setStatus (s : Shell) (args : List Char) :
    s.desk.WorksOn (s.setStatus args).2.desk := by
  rw [setStatus]
  split
  · exact .refl _
  · split
    · exact .refl _
    · exact Desk.worksOn_change _ _ _

theorem worksOn_setTag (s : Shell) (args : List Char) (present : Bool) :
    s.desk.WorksOn (s.setTag args present).2.desk := by
  rw [setTag]
  simp only
  split
  · exact .refl _
  · exact Desk.worksOn_change _ _ _

theorem worksOn_remove (s : Shell) (args : List Char) : s.desk.WorksOn (s.remove args).2.desk := by
  rw [remove]
  split
  · exact .refl _
  · exact Desk.worksOn_change _ _ _

theorem desk_setSort (s : Shell) (args : List Char) : (s.setSort args).2.desk = s.desk := by
  rw [setSort]
  split
  · rfl
  · split <;> rfl

theorem worksOn_perform (s : Shell) (args : List Char) (c : Command) :
    s.desk.WorksOn (s.perform args c).2.desk := by
  cases c with
  | list | help | leave => exact .refl _
  | add => exact Desk.worksOn_add _ _
  | status => exact worksOn_setStatus s args
  | tag | untag => exact worksOn_setTag s args _
  | remove => exact worksOn_remove s args
  | sort =>
    rw [perform, desk_setSort]
    exact .refl _

/-- Putting a fault into words changes nothing. -/
theorem snd_reporting (explain : Cause → String) (r : Answer) : (reporting explain r).2 = r.2 := by
  obtain ⟨f | out, s⟩ := r
  · rw [reporting]
    split <;> rfl
  · rfl

theorem worksOn_execute (s : Shell) (line : String) :
    s.desk.WorksOn (s.execute explain line).2.desk := by
  rw [execute_eq_answer, answer]
  simp only
  split
  · exact .refl _
  · split
    · exact .refl _
    · rw [snd_reporting]
      exact worksOn_perform _ _ _

theorem worksOn_converse (s : Shell) (entries : List Entry) :
    s.desk.WorksOn (converse explain s entries).shell.desk := by
  induction entries generalizing s with
  | nil =>
    rw [converse]
    split <;> exact .refl _
  | cons entry entries ih =>
    rw [converse]
    split
    · cases entry with
      | interrupt => exact ih s
      | line text =>
        have hline : s.desk.WorksOn (s.execute explain text).2.desk := worksOn_execute s text
        simp only
        split
        · next out s' hout =>
          rw [hout] at hline
          exact hline.trans (ih s')
        · next f s' hout =>
          rw [hout] at hline
          exact hline
    · exact .refl _

/-- However a dialogue goes, it stays in the list file. -/
theorem worksOn_run (s : Shell) (entries : List Entry) :
    s.desk.WorksOn (s.run explain entries).shell.desk := by
  rw [run]
  split
  · exact worksOn_converse s entries
  · exact .refl _

end Shell

end TodoLists
