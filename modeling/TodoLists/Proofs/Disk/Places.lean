import TodoLists.Proofs.Disk.ReadBack
import TodoLists.Proofs.Fault
import Mathlib.Data.List.Basic

/-!
# Places

A path leads to one place or nowhere, and which place that is does not depend on what is on the
disk. Disks are trees: what is somewhere is in a folder, and what is written is put in one.
-/

namespace TodoLists

/-- A part of the way to a path. -/
def Path.upTo (p : Path) (k : Nat) : Path := { p with parts := p.parts.take k }

theorem Path.upTo_length (p : Path) : p.upTo p.parts.length = p := by
  rw [upTo, List.take_length]

theorem Path.upTo_parent (p : Path) (k : Nat) :
    p.parent.upTo k = p.upTo (min k (p.parts.length - 1)) := by
  rw [upTo, parent, List.dropLast_eq_take, List.take_take, upTo]

namespace Disk

variable {d d' : Disk} {p : Path} {place : List LooseText}

/-! ### Where a path leads -/

/-- The place that a path leads to if it leads anywhere. -/
def placeOf (d : Disk) (p : Path) : List LooseText :=
  Path.collapse ((p.partsFrom d.folder).map DiskName.normalize)

theorem placeOf_congr (h : d'.folder = d.folder) (p : Path) : d'.placeOf p = d.placeOf p := by
  rw [placeOf, h, placeOf]

theorem walk_eq_foldl {parts here : List LooseText} (h : d.walk here parts = .ok place) :
    place = parts.foldl
      (fun done part => if part = Path.up then done.dropLast else done ++ [part]) here := by
  induction parts generalizing here with
  | nil => exact (Except.ok.inj h).symm
  | cons part parts ih =>
    rw [walk] at h
    split at h
    · split at h
      · cases h
      · exact ih h
    · cases h
    · cases h

theorem eq_placeOf_of_locate (h : d.locate p = .ok place) : place = d.placeOf p := by
  obtain ⟨u, -, hwalk⟩ := exists_of_bind_eq_ok h
  exact walk_eq_foldl hwalk

/-! ### Trees -/

/-- What is somewhere is in a folder. -/
def IsTree (d : Disk) : Prop :=
  ∀ place part, (d.node? (place ++ [part])).isSome → d.node? place = some .folder

/-- What is at a place, or could be put there, is in a folder. -/
def IsWithin (d : Disk) (place : List LooseText) : Prop :=
  d.node? place = some .folder ∨ ∃ init part, place = init ++ [part] ∧ d.node? init = some .folder

theorem IsTree.isWithin_of_walk (htree : d.IsTree) {parts here : List LooseText}
    (hhere : d.IsWithin here) (h : d.walk here parts = .ok place) : d.IsWithin place := by
  induction parts generalizing here with
  | nil => exact Except.ok.inj h ▸ hhere
  | cons part parts ih =>
    rw [walk] at h
    split at h
    · next hfolder =>
      split at h
      · cases h
      refine ih ?_ h
      split
      · rcases List.eq_nil_or_concat' here with rfl | ⟨init, last, rfl⟩
        · exact Or.inl hfolder
        · rw [List.dropLast_concat]
          exact Or.inl (htree init last (by rw [hfolder]; rfl))
      · exact Or.inr ⟨here, part, rfl, hfolder⟩
    · cases h
    · cases h

theorem IsTree.isWithin_of_locate (htree : d.IsTree) (h : d.locate p = .ok place) :
    d.IsWithin place := by
  obtain ⟨u, -, hwalk⟩ := exists_of_bind_eq_ok h
  exact htree.isWithin_of_walk (Or.inl rfl) hwalk

/-- A tree stays one when something is put in a folder and no folder is replaced. -/
theorem IsTree.put (htree : d.IsTree) (hwithin : d.IsWithin place)
    (hplace : d.node? place ≠ some .folder) (node : Node) : (d.put place node).IsTree := by
  obtain ⟨parent, last, rfl, hparent⟩ := hwithin.resolve_left hplace
  have hroot : parent ++ [last] ≠ [] := by simp
  intro init part hsome
  rw [node?_put d hroot] at hsome ⊢
  have hfolder : d.node? init = some .folder := by
    split at hsome
    · next heq =>
      obtain rfl := (List.append_inj' heq rfl).1
      exact hparent
    · exact htree init part hsome
  have hne : init ≠ parent ++ [last] := by
    rintro rfl
    exact hplace hfolder
  rwa [if_neg hne]

/-! ### Making a folder -/

theorem makeFolder_eq_ok_iff : d.makeFolder p = .ok d' ↔
    ∃ place, d.locate p = .ok place ∧ d.node? place = none ∧ d' = d.put place .folder := by
  rw [makeFolder]
  cases hlocate : d.locate p with
  | error e => exact ⟨nofun, fun ⟨_, h, _⟩ => nomatch h⟩
  | ok place =>
    simp only [bind, Except.bind, Except.ok.injEq, exists_eq_left']
    split
    · next hsome => simp [hsome, throw, throwThe, MonadExceptOf.throw]
    · next hnone => simp [hnone, pure, Except.pure, eq_comm]

end Disk

end TodoLists
