import TodoLists.Proofs.Disk.Refill

/-!
# Files that are there

A file is in a folder, so there is no folder to make before it is written again, and it can be
written again. The one path that names nothing leads to the folder that paths start from, which is
no file on any disk that can come up.
-/

namespace TodoLists

namespace Path

variable {p : Path}

/-! ### The path to the folder of a file can be followed -/

theorem intercalate_prefix (sep : List Nat) (init : List (List Nat)) (last : List Nat) :
    List.intercalate sep init <+: List.intercalate sep (init ++ [last]) := by
  induction init with
  | nil => exact List.nil_prefix
  | cons x init ih =>
    cases init with
    | nil =>
      rw [List.cons_append, List.nil_append, List.intercalate_cons_cons, List.intercalate_singleton,
        List.append_assoc]
      exact List.prefix_append _ _
    | cons y init =>
      rw [List.cons_append, List.cons_append, List.intercalate_cons_cons,
        List.intercalate_cons_cons, List.prefix_append_right_inj]
      exact ih

theorem toText_here {parts : List LooseText} (h : parts ≠ []) :
    (toText ⟨.here, parts⟩).points = List.intercalate [slash] (parts.map (·.points)) := by
  rw [toText]
  simp [h]

/-- The text of the path to the folder begins the text of the path, unless it is a dot. -/
theorem toText_parent (p : Path) :
    p.parent.toText = "." ∨ p.parent.toText.points <+: p.toText.points := by
  obtain ⟨start, parts⟩ := p
  have hnames : List.intercalate [slash] (parts.dropLast.map (·.points)) <+:
      List.intercalate [slash] (parts.map (·.points)) := by
    rcases List.eq_nil_or_concat' parts with rfl | ⟨init, last, rfl⟩
    · exact List.prefix_rfl
    · rw [List.dropLast_concat, List.map_append, List.map_singleton]
      exact intercalate_prefix _ _ _
  cases start with
  | here =>
    by_cases hdrop : parts.dropLast = []
    · left
      simp only [parent, toText, hdrop]
      rfl
    · have hparts : parts ≠ [] := by
        rintro rfl
        exact hdrop rfl
      right
      rw [parent, toText_here hdrop, toText_here hparts]
      exact hnames
  | root => exact Or.inr ((List.prefix_cons_inj slash).2 hnames)
  | doubleRoot =>
    exact Or.inr ((List.prefix_cons_inj slash).2 ((List.prefix_cons_inj slash).2 hnames))

theorem le_foldl_pointSize (ns : List Nat) (bytes : Nat) :
    bytes ≤ ns.foldl (fun bytes n => bytes + DiskName.pointSize n) bytes := by
  induction ns generalizing bytes with
  | nil => exact Nat.le_refl bytes
  | cons n ns ih => exact Nat.le_trans (Nat.le_add_right _ _) (ih _)

theorem size_le_of_begins {s t : LooseText} (h : s.points <+: t.points) :
    DiskName.size s ≤ DiskName.size t := by
  obtain ⟨more, hmore⟩ := h
  rw [DiskName.size, DiskName.size, ← hmore, List.foldl_append]
  exact le_foldl_pointSize more _

theorem check_eq_ok_iff : p.check = .ok () ↔
    (∀ n ∈ p.toText.points, (DiskName.isSurrogate n && !DiskName.isByte n) = false) ∧
      0 ∉ p.toText.points ∧ DiskName.size p.toText ≤ DiskName.maxPathSize := by
  have hsurrogate :
      (∀ n ∈ p.toText.points, (DiskName.isSurrogate n && !DiskName.isByte n) = false) ↔
      ¬ (p.toText.points.any fun n => DiskName.isSurrogate n && !DiskName.isByte n) = true := by
    simp
  rw [hsurrogate, ← List.contains_iff_mem, ← Nat.not_lt, check, holdsNul]
  split
  · next h => exact ⟨nofun, fun hall => absurd h hall.1⟩
  split
  · next h => exact ⟨nofun, fun hall => absurd h hall.2.1⟩
  split
  · next h => exact ⟨nofun, fun hall => absurd h hall.2.2⟩
  · next hlong => exact ⟨fun _ => ⟨‹_›, ‹_›, hlong⟩, fun _ => rfl⟩

/-- The folder of a path that can be followed can be followed to. -/
theorem check_parent (h : p.check = .ok ()) : p.parent.check = .ok () := by
  obtain ⟨hsurrogate, hnul, hsize⟩ := check_eq_ok_iff.1 h
  rcases toText_parent p with hdot | hbegins
  · rw [check, holdsNul, hdot]
    decide
  · exact check_eq_ok_iff.2 ⟨fun n hn => hsurrogate n (hbegins.subset hn),
      fun hn => hnul (hbegins.subset hn), Nat.le_trans (size_le_of_begins hbegins) hsize⟩

end Path

namespace Disk

variable {d : Disk} {p : Path} {place : List LooseText}

/-! ### The folder of a file -/

theorem walk_concat {parts here : List LooseText} {part : LooseText}
    (h : d.walk here (parts ++ [part]) = .ok place) :
    ∃ folder, d.walk here parts = .ok folder ∧ d.node? folder = some .folder := by
  induction parts generalizing here with
  | nil =>
    rw [List.nil_append, walk] at h
    split at h
    · next hfolder => exact ⟨here, rfl, hfolder⟩
    · cases h
    · cases h
  | cons next parts ih =>
    rw [List.cons_append, walk] at h
    split at h
    · next hfolder =>
      split at h
      · cases h
      · next hsize =>
        obtain ⟨folder, hwalk, hnode⟩ := ih h
        refine ⟨folder, ?_, hnode⟩
        rw [walk, hfolder]
        simp only
        rw [if_neg hsize]
        exact hwalk
    · cases h
    · cases h

theorem hasFolder_parent (hparts : p.parts ≠ []) (h : d.locate p = .ok place) :
    d.hasFolder p.parent = true := by
  obtain ⟨_, hcheck, hwalk⟩ := exists_of_bind_eq_ok h
  obtain ⟨init, last, hlast⟩ := (List.eq_nil_or_concat' p.parts).resolve_left hparts
  have hnames : (p.partsFrom d.folder) = p.parent.partsFrom d.folder ++ [last] := by
    rw [Path.partsFrom, Path.partsFrom, Path.parent, hlast, List.dropLast_concat]
    cases p.start with
    | here => exact (List.append_assoc _ _ _).symm
    | root | doubleRoot => rfl
  rw [hnames, List.map_append, List.map_singleton] at hwalk
  obtain ⟨folder, hfolder, hnode⟩ := walk_concat hwalk
  refine hasFolder_iff.2 ⟨folder, ?_, hnode⟩
  rw [locate, Path.check_parent hcheck]
  exact hfolder

/-- There is nothing to make on the way to a folder that is there. -/
theorem ensureFolders_of_hasFolder (h : d.hasFolder p = true) :
    d.ensureFolders p = (.ok (), d) := by
  obtain ⟨place, hlocate, hnode⟩ := hasFolder_iff.1 h
  have hmake : d.makeFolder p = .error .alreadyThere := by
    rw [makeFolder, hlocate]
    simp only [bind, Except.bind, hnode]
    rfl
  rw [ensureFolders, hmake]
  simp only [h, if_true]

/-- The folder that paths start from is no file. -/
def StartsInFolder (d : Disk) : Prop := ∀ content, d.read ⟨.here, []⟩ ≠ .ok content

/-- A file that is there can be written again, with no folder to make before. -/
theorem rewrites_of_read (hstart : d.StartsInFolder) {content : ByteArray}
    (h : d.read p = .ok content) (content' : ByteArray) :
    d.ensureFolders p.parent = (.ok (), d) ∧ ∃ d', d.write p content' = .ok d' := by
  obtain ⟨place, hlocate, hnode⟩ := read_eq_ok_iff.1 h
  have hnot : d.node? place ≠ some .folder := by
    rw [hnode]
    exact nofun
  have hparts : p.parts ≠ [] := by
    intro hnil
    obtain ⟨start, parts⟩ := p
    subst hnil
    cases start with
    | here => exact hstart content h
    | root | doubleRoot =>
      obtain ⟨_, -, hwalk⟩ := exists_of_bind_eq_ok hlocate
      cases hwalk
      exact hnot rfl
  exact ⟨ensureFolders_of_hasFolder (hasFolder_parent hparts hlocate), _,
    write_eq_ok_iff.2 ⟨place, hlocate, hnot, rfl⟩⟩

end Disk

end TodoLists
