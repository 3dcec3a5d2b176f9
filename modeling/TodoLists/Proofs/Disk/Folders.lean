import TodoLists.Proofs.Disk.Places

/-!
# Making folders changes no file

Before a file is written the folders on the way to it are made, and they stay when the file cannot be
written after all. A folder is only ever made where nothing was, so every path that led somewhere
still leads there, and no file comes, goes or changes.
-/

namespace TodoLists.Disk

variable {d d' d'' : Disk} {p : Path}

/-- The second disk has everything that the first has, and nothing more but folders. -/
structure OnlyFoldersMade (d d' : Disk) : Prop where
  folder : d'.folder = d.folder
  node? : ∀ place, d'.node? place = d.node? place ∨
    d.node? place = none ∧ d'.node? place = some .folder

namespace OnlyFoldersMade

theorem refl (d : Disk) : d.OnlyFoldersMade d := ⟨rfl, fun _ => Or.inl rfl⟩

/-- What is there stays. -/
theorem node?_of_some (h : d.OnlyFoldersMade d') {place : List LooseText} {node : Node}
    (hnode : d.node? place = some node) : d'.node? place = some node := by
  rcases h.node? place with heq | ⟨hnone, -⟩
  · exact heq.trans hnode
  · rw [hnone] at hnode
    cases hnode

/-- The files are the same ones. -/
theorem file_iff (h : d.OnlyFoldersMade d') (place : List LooseText) (content : ByteArray) :
    d'.node? place = some (.file content) ↔ d.node? place = some (.file content) := by
  refine ⟨fun hfile => ?_, h.node?_of_some⟩
  rcases h.node? place with heq | ⟨-, hfolder⟩
  · exact heq ▸ hfile
  · rw [hfolder] at hfile
    cases hfile

theorem keepsFolders (h : d.OnlyFoldersMade d') : d.KeepsFolders d' :=
  ⟨h.folder, fun _ => h.node?_of_some⟩

/-- A path that led to a file leads to the same bytes. -/
theorem read (h : d.OnlyFoldersMade d') {content : ByteArray} (hread : d.read p = .ok content) :
    d'.read p = .ok content := by
  obtain ⟨place, hlocate, hnode⟩ := read_eq_ok_iff.1 hread
  exact read_eq_ok_iff.2 ⟨place, h.keepsFolders.locate hlocate, h.node?_of_some hnode⟩

end OnlyFoldersMade

/-! ### The steps of making folders -/

/-- Nothing is different but new folders on the way to a path and there. -/
structure MakesWay (d : Disk) (p : Path) (d' : Disk) : Prop where
  folder : d'.folder = d.folder
  node? : ∀ place, d'.node? place = d.node? place ∨ d.node? place = none ∧
    d'.node? place = some .folder ∧ ∃ k ≤ p.parts.length, place = d.placeOf (p.upTo k)
  tree : d.IsTree → d'.IsTree

namespace MakesWay

theorem refl (d : Disk) (p : Path) : d.MakesWay p d := ⟨rfl, fun _ => Or.inl rfl, id⟩

theorem onlyFoldersMade (h : d.MakesWay p d') : d.OnlyFoldersMade d' :=
  ⟨h.folder, fun place => (h.node? place).imp_right fun ⟨hnone, hfolder, _⟩ => ⟨hnone, hfolder⟩⟩

theorem trans (h : d.MakesWay p d') (h' : d'.MakesWay p d'') : d.MakesWay p d'' where
  folder := h'.folder.trans h.folder
  node? place := by
    have hplaceOf := placeOf_congr h.folder
    rcases h.node? place with heq | ⟨hnone, hfolder, hway⟩
    · rcases h'.node? place with heq' | ⟨hnone', hfolder', hway'⟩
      · exact Or.inl (heq'.trans heq)
      · simp only [hplaceOf] at hway'
        exact Or.inr ⟨heq ▸ hnone', hfolder', hway'⟩
    · exact Or.inr ⟨hnone, h'.onlyFoldersMade.node?_of_some hfolder, hway⟩
  tree := h'.tree ∘ h.tree

/-- The way to a folder leads over the one that it is in. -/
theorem of_parent (h : d.MakesWay p.parent d') : d.MakesWay p d' where
  folder := h.folder
  node? place := by
    refine (h.node? place).imp_right fun ⟨hnone, hfolder, k, _, hplace⟩ => ?_
    refine ⟨hnone, hfolder, min k (p.parts.length - 1), by omega, ?_⟩
    rw [hplace, Path.upTo_parent]
  tree := h.tree

end MakesWay

theorem makesWay_of_makeFolder (h : d.makeFolder p = .ok d') : d.MakesWay p d' := by
  obtain ⟨place, hlocate, hnone, rfl⟩ := makeFolder_eq_ok_iff.1 h
  have hnot : d.node? place ≠ some .folder := by
    rw [hnone]
    exact nofun
  have hroot : place ≠ [] := by
    rintro rfl
    exact hnot rfl
  refine ⟨rfl, fun q => ?_, fun htree => htree.put (htree.isWithin_of_locate hlocate) hnot _⟩
  rw [node?_put d hroot]
  by_cases hq : q = place
  · subst hq
    refine Or.inr ⟨hnone, if_pos rfl, p.parts.length, Nat.le_refl _, ?_⟩
    rw [Path.upTo_length]
    exact eq_placeOf_of_locate hlocate
  · exact Or.inl (if_neg hq)

theorem makesWay_of_ensureFolder (h : d.ensureFolder p = .ok d') : d.MakesWay p d' := by
  rw [ensureFolder] at h
  split at h
  · next hmake =>
    cases h
    exact makesWay_of_makeFolder hmake
  · split at h
    · cases h
      exact .refl d p
    · cases h

/-- Whether all folders could be made or not, nothing else happened. -/
theorem makesWay_ensureFolders (d : Disk) (p : Path) : d.MakesWay p (d.ensureFolders p).2 := by
  fun_induction ensureFolders d p with
  | case1 p d' hmake => exact makesWay_of_makeFolder hmake
  | case2 p => exact .refl d p
  | case3 p _ _ e d' hparent ih =>
    rw [hparent] at ih
    exact ih.of_parent
  | case4 p _ _ d' _ hparent d'' hfolder ih =>
    rw [hparent] at ih
    exact ih.of_parent.trans (makesWay_of_ensureFolder hfolder)
  | case5 p _ _ d' _ hparent e _ ih =>
    rw [hparent] at ih
    exact ih.of_parent
  | case6 p => exact .refl d p

theorem onlyFoldersMade_ensureFolders (d : Disk) (p : Path) :
    d.OnlyFoldersMade (d.ensureFolders p).2 :=
  (makesWay_ensureFolders d p).onlyFoldersMade

end TodoLists.Disk
