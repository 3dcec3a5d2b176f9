import TodoLists.Proofs.Disk.Folders

/-!
# Writing reaches one place

Whatever comes of writing a file, the disk differs afterwards at most in the file at the place that
the path leads to and in folders on the way to it.
-/

namespace TodoLists.Disk

variable {d d' d'' : Disk} {p q : Path} {place : List LooseText}

/-- Nothing is different but the file that the path leads to and folders on the way to it. -/
structure WritesOnly (d : Disk) (p : Path) (d' : Disk) : Prop where
  folder : d'.folder = d.folder
  node? : ∀ place, d'.node? place = d.node? place ∨
    (d.node? place = none ∧ d'.node? place = some .folder ∧
      ∃ k ≤ p.parent.parts.length, place = d.placeOf (p.parent.upTo k)) ∨
    (d.node? place ≠ some .folder ∧ (∃ content, d'.node? place = some (.file content)) ∧
      place = d.placeOf p)
  tree : d.IsTree → d'.IsTree

namespace WritesOnly

theorem refl (d : Disk) (p : Path) : d.WritesOnly p d := ⟨rfl, fun _ => Or.inl rfl, id⟩

theorem trans (h : d.WritesOnly p d') (h' : d'.WritesOnly p d'') : d.WritesOnly p d'' where
  folder := h'.folder.trans h.folder
  node? place := by
    have hplaceOf := placeOf_congr h.folder
    rcases h'.node? place with heq | ⟨hnone, hmade, hway⟩ | ⟨hnot, hfile, hplace⟩
    · rw [heq]
      exact h.node? place
    · simp only [hplaceOf] at hway
      rcases h.node? place with heq | ⟨-, hfolder, -⟩ | ⟨-, ⟨_, hfile⟩, -⟩
      · exact Or.inr (Or.inl ⟨heq ▸ hnone, hmade, hway⟩)
      · cases hnone.symm.trans hfolder
      · cases hnone.symm.trans hfile
    · rw [hplaceOf] at hplace
      rcases h.node? place with heq | ⟨-, hfolder, -⟩ | ⟨hnot', -, -⟩
      · exact Or.inr (Or.inr ⟨heq ▸ hnot, hfile, hplace⟩)
      · exact absurd hfolder hnot
      · exact Or.inr (Or.inr ⟨hnot', hfile, hplace⟩)
  tree := h'.tree ∘ h.tree

theorem keepsFolders (h : d.WritesOnly p d') : d.KeepsFolders d' where
  folder := h.folder
  node? place hfolder := by
    rcases h.node? place with heq | ⟨hnone, -⟩ | ⟨hnot, -⟩
    · exact heq.trans hfolder
    · cases hnone.symm.trans hfolder
    · exact absurd hfolder hnot

theorem isSome_node? (h : d.WritesOnly p d') (hsome : (d.node? place).isSome) :
    (d'.node? place).isSome := by
  rcases h.node? place with heq | ⟨hnone, -⟩ | ⟨-, ⟨_, hfile⟩, -⟩
  · rwa [heq]
  · rw [hnone] at hsome
    cases hsome
  · rw [hfile]
    rfl

/-- A file at another place is as it was. -/
theorem file_iff (h : d.WritesOnly p d') (hne : place ≠ d.placeOf p) (content : ByteArray) :
    d'.node? place = some (.file content) ↔ d.node? place = some (.file content) := by
  rcases h.node? place with heq | ⟨hnone, hfolder, -⟩ | ⟨-, -, hplace⟩
  · rw [heq]
  · rw [hnone, hfolder]
    simp
  · exact absurd hplace hne

theorem isSome_at? (h : d.WritesOnly p d') (hsome : (d.at? q).isSome) : (d'.at? q).isSome := by
  obtain ⟨place, hlocate, hthere⟩ := isSome_at?_iff.1 hsome
  exact isSome_at?_iff.2 ⟨place, h.keepsFolders.locate hlocate, h.isSome_node? hthere⟩

theorem has_eq_true (h : d.WritesOnly p d') (hhas : d.has q = .ok true) : d'.has q = .ok true := by
  obtain ⟨place, hlocate, hsome⟩ := has_eq_true_iff.1 hhas
  exact has_eq_true_iff.2 ⟨place, h.keepsFolders.locate hlocate, h.isSome_node? hsome⟩

theorem read_eq (h : d.WritesOnly p d') (hne : d.placeOf q ≠ d.placeOf p)
    (hhas : d.has q = .ok true) : d'.read q = d.read q := by
  obtain ⟨place, hlocate, hsome⟩ := has_eq_true_iff.1 hhas
  have hnode : d'.node? place = d.node? place := by
    rcases h.node? place with heq | ⟨hnone, -⟩ | ⟨-, -, hplace⟩
    · exact heq
    · rw [hnone] at hsome
      cases hsome
    · exact absurd (eq_placeOf_of_locate hlocate ▸ hplace) hne
  rw [Disk.read, Disk.read, hlocate, h.keepsFolders.locate hlocate]
  simp only [bind, Except.bind, hnode]

end WritesOnly

/-! ### The steps of writing -/

theorem MakesWay.writesOnly (h : d.MakesWay p.parent d') : d.WritesOnly p d' :=
  ⟨h.folder, fun place => (h.node? place).imp_right Or.inl, h.tree⟩

theorem writesOnly_of_write {content : ByteArray} (h : d.write p content = .ok d') :
    d.WritesOnly p d' := by
  obtain ⟨place, hlocate, hplace, rfl⟩ := write_eq_ok_iff.1 h
  have hroot : place ≠ [] := by
    rintro rfl
    exact hplace rfl
  refine ⟨rfl, fun q => ?_, fun htree => htree.put (htree.isWithin_of_locate hlocate) hplace _⟩
  rw [node?_put d hroot]
  by_cases hq : q = place
  · subst hq
    exact Or.inr (Or.inr ⟨hplace, ⟨content, if_pos rfl⟩, eq_placeOf_of_locate hlocate⟩)
  · exact Or.inl (if_neg hq)

end TodoLists.Disk
