import TodoLists.Proofs.Disk.Frame
import TodoLists.Proofs.Disk.Names

/-!
# Straight paths

On a path from the root that never leads back up, every name is a folder inside the one before. So
on a tree such a path leads to its place as soon as something is there, and writing a file that is
elsewhere makes no difference to what is found at its end. For other paths this fails: a new folder
can open a way that leads through it and back up.
-/

namespace TodoLists

/-- The path starts at the root and does not lead back up. -/
structure Path.IsStraight (p : Path) : Prop where
  start : p.start ≠ .here
  up : Path.up ∉ p.parts

/-- No name on the path is too long. -/
def Path.Fits (p : Path) : Prop :=
  ∀ part ∈ p.parts.map DiskName.normalize, DiskName.size part ≤ DiskName.maxNameSize

namespace Path.IsStraight

variable {p : Path}

theorem partsFrom (h : p.IsStraight) (folder : List LooseText) : p.partsFrom folder = p.parts := by
  rw [Path.partsFrom]
  split
  · next hstart => exact absurd hstart h.start
  · rfl

theorem up_normalize (h : p.IsStraight) : Path.up ∉ p.parts.map DiskName.normalize := by
  intro hmem
  obtain ⟨part, hpart, heq⟩ := List.mem_map.1 hmem
  exact h.up (DiskName.normalize_eq_up_iff.1 heq ▸ hpart)

theorem upTo (h : p.IsStraight) (k : Nat) : (p.upTo k).IsStraight :=
  ⟨h.start, fun hmem => h.up (List.mem_of_mem_take hmem)⟩

theorem placeOf (h : p.IsStraight) (d : Disk) : d.placeOf p = p.parts.map DiskName.normalize := by
  rw [Disk.placeOf, h.partsFrom, Path.collapse_eq_self h.up_normalize]

end Path.IsStraight

namespace Disk

variable {d d' : Disk} {p q : Path} {place here parts : List LooseText}

theorem placeOf_extend (d : Disk) (p : Path) {more : List LooseText}
    (h : Path.up ∉ more.map DiskName.normalize) :
    d.placeOf (p.extend more) = d.placeOf p ++ more.map DiskName.normalize := by
  rw [placeOf, Path.partsFrom_extend, List.map_append, Path.collapse_append _ h, placeOf]

/-! ### Walking on a tree -/

/-- Whatever leads to something is a folder. -/
theorem IsTree.folder_of_isSome (htree : d.IsTree) {part : LooseText} {rest : List LooseText}
    (h : (d.node? (here ++ part :: rest)).isSome) : d.node? here = some .folder := by
  induction rest generalizing here part with
  | nil => exact htree here part h
  | cons next rest ih =>
    have hnext : d.node? (here ++ [part]) = some .folder := by
      have hsome : (d.node? (here ++ [part] ++ next :: rest)).isSome := by
        rwa [List.append_assoc]
      exact ih hsome
    exact htree here part (by rw [hnext]; rfl)

theorem IsTree.walk (htree : d.IsTree) (hup : Path.up ∉ parts)
    (hsize : ∀ part ∈ parts, DiskName.size part ≤ DiskName.maxNameSize)
    (h : (d.node? (here ++ parts)).isSome) : d.walk here parts = .ok (here ++ parts) := by
  induction parts generalizing here with
  | nil =>
    rw [Disk.walk, List.append_nil]
  | cons part parts ih =>
    obtain ⟨hpart, hparts⟩ := not_or.1 (mt List.mem_cons.2 hup)
    obtain ⟨hfit, hfits⟩ := List.forall_mem_cons.1 hsize
    have happend : here ++ part :: parts = here ++ [part] ++ parts := by rw [List.append_assoc]; rfl
    rw [Disk.walk, htree.folder_of_isSome h]
    simp only
    rw [if_neg (Nat.not_lt.2 hfit), if_neg (Ne.symm hpart), happend]
    exact ih hparts hfits (happend ▸ h)

theorem size_le_of_walk (h : d.walk here parts = .ok place) :
    ∀ part ∈ parts, DiskName.size part ≤ DiskName.maxNameSize := by
  induction parts generalizing here with
  | nil => exact nofun
  | cons part parts ih =>
    rw [walk] at h
    split at h
    · split at h
      · cases h
      · next hsize => exact List.forall_mem_cons.2 ⟨Nat.not_lt.1 hsize, ih h⟩
    · cases h
    · cases h

theorem walk_ne_nameTooLong (hsize : ∀ part ∈ parts, DiskName.size part ≤ DiskName.maxNameSize) :
    d.walk here parts ≠ .error .nameTooLong := by
  induction parts generalizing here with
  | nil => simp [walk]
  | cons part parts ih =>
    obtain ⟨hfit, hfits⟩ := List.forall_mem_cons.1 hsize
    rw [walk]
    split
    · rw [if_neg (Nat.not_lt.2 hfit)]
      exact ih hfits
    · simp
    · simp

/-! ### What is found at the end of a straight path -/

theorem locate_of_isStraight (hp : p.IsStraight) (hcheck : p.check = .ok ()) :
    d.locate p = d.walk [] (p.parts.map DiskName.normalize) := by
  rw [locate, hcheck, hp.partsFrom]
  rfl

theorem IsTree.locate (htree : d.IsTree) (hp : p.IsStraight) (hcheck : p.check = .ok ())
    (hfits : p.Fits) (h : (d.node? (d.placeOf p)).isSome) : d.locate p = .ok (d.placeOf p) := by
  rw [locate_of_isStraight hp hcheck]
  rw [hp.placeOf, ← List.nil_append (p.parts.map DiskName.normalize)] at h ⊢
  exact htree.walk hp.up_normalize hfits h

theorem has_of_none (hp : p.IsStraight) (hcheck : p.check = .ok ()) (hfits : p.Fits)
    (h : d.node? (d.placeOf p) = none) : d.has p = .ok false := by
  have hne : d.locate p ≠ .error .nameTooLong := by
    rw [locate_of_isStraight hp hcheck]
    exact walk_ne_nameTooLong hfits
  rw [has]
  split
  · next hlocate =>
    rw [eq_placeOf_of_locate hlocate, h]
    rfl
  · next hlocate => exact absurd hlocate hne
  · rfl

/-- What is neither on the way nor where the path leads is as it was. -/
theorem WritesOnly.node?_eq (h : d.WritesOnly p d') (hway : ∀ k, place ≠ d.placeOf (p.upTo k)) :
    d'.node? place = d.node? place := by
  rcases h.node? place with heq | ⟨-, -, k, -, hplace⟩ | ⟨-, -, hplace⟩
  · exact heq
  · rw [Path.upTo_parent] at hplace
    exact absurd hplace (hway _)
  · rw [← Path.upTo_length p] at hplace
    exact absurd hplace (hway _)

section

variable (h : d.WritesOnly p d') (htree : d.IsTree) (hq : q.IsStraight)
  (hway : ∀ k, d.placeOf q ≠ d.placeOf (p.upTo k))

include h htree hq hway

theorem WritesOnly.has_eq (hfits : q.Fits) : d'.has q = d.has q := by
  have hnode := h.node?_eq hway
  have hplace := placeOf_congr h.folder q
  cases hcheck : q.check with
  | error e =>
    have hlocate : ∀ d : Disk, d.locate q = .error e := fun d => by rw [Disk.locate, hcheck]; rfl
    rw [has, has, hlocate, hlocate]
    cases e <;> rfl
  | ok u =>
    by_cases hsome : (d.node? (d.placeOf q)).isSome
    · have hsome' : (d'.node? (d'.placeOf q)).isSome := by rwa [hplace, hnode]
      rw [has, has, htree.locate hq hcheck hfits hsome, (h.tree htree).locate hq hcheck hfits hsome']
      simp only [hplace, hnode]
    · have hnone : d.node? (d.placeOf q) = none := Option.not_isSome_iff_eq_none.1 hsome
      have hnone' : d'.node? (d'.placeOf q) = none := by rw [hplace, hnode, hnone]
      rw [has_of_none hq hcheck hfits hnone, has_of_none hq hcheck hfits hnone']

theorem WritesOnly.isSome_at?_elsewhere : (d'.at? q).isSome ↔ (d.at? q).isSome := by
  have hnode := h.node?_eq hway
  rw [Disk.isSome_at?_iff, Disk.isSome_at?_iff]
  constructor
  · rintro ⟨place, hlocate, hsome⟩
    rw [eq_placeOf_of_locate hlocate, placeOf_congr h.folder, hnode] at hsome
    obtain ⟨u, hcheck, hwalk⟩ := exists_of_bind_eq_ok hlocate
    rw [hq.partsFrom] at hwalk
    exact ⟨_, htree.locate hq hcheck (size_le_of_walk hwalk) hsome, hsome⟩
  · rintro ⟨place, hlocate, hsome⟩
    exact ⟨place, h.keepsFolders.locate hlocate, h.isSome_node? hsome⟩

end

end Disk

end TodoLists
