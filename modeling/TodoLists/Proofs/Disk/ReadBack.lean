import TodoLists.Disk
import Mathlib.Logic.Basic

/-!
# What is written is there

Writing a file changes what is at one place and nothing else. The folders on the way to the place
are still there, so the same path leads to the file afterwards.
-/

namespace TodoLists.Disk

variable {d d' : Disk} {p : Path} {place : List LooseText}

theorem find?_replace (nodes : List (List LooseText × Node)) (place q : List LooseText)
    (node : Node) :
    (nodes.map fun n => if n.1 == place then (place, node) else n).find? (·.1 == q) =
      if q = place ∧ nodes.any (·.1 == place) then some (place, node)
      else nodes.find? (·.1 == q) := by
  induction nodes with
  | nil => simp
  | cons n nodes ih =>
    rw [List.map_cons, List.find?_cons, List.find?_cons, ih]
    by_cases hn : n.1 = place
    · by_cases hq : q = place
      · simp [hn, hq]
      · have hpq : (place == q) = false := beq_eq_false_iff_ne.2 (Ne.symm hq)
        simp [hn, hq, hpq]
    · by_cases hnq : n.1 = q
      · have hq : q ≠ place := fun e => hn (hnq.trans e)
        simp [hnq, hq]
      · have hnq : (n.1 == q) = false := beq_eq_false_iff_ne.2 hnq
        have hn : (n.1 == place) = false := beq_eq_false_iff_ne.2 hn
        simp only [hn, Bool.false_eq_true, if_false, hnq, List.any_cons, Bool.false_or]

/-- Every other place keeps what it has. -/
theorem node?_put (d : Disk) (hplace : place ≠ []) (q : List LooseText) (node : Node) :
    (d.put place node).node? q = if q = place then some node else d.node? q := by
  by_cases hq : q = []
  · subst hq
    rw [if_neg (Ne.symm hplace)]
    rfl
  · rw [node?, if_neg hq, node?, if_neg hq, put]
    split
    · next hany =>
      simp only [find?_replace]
      by_cases hqp : q = place
      · simp only [hqp, hany, and_self, if_true, Option.map_some]
      · simp only [hqp, false_and, if_false]
    · next hany =>
      rw [List.find?_append]
      by_cases hqp : q = place
      · subst hqp
        have hnone : d.nodes.find? (·.1 == q) = none := by
          rw [List.find?_eq_none]
          exact fun n hn hnq => hany (List.any_eq_true.2 ⟨n, hn, hnq⟩)
        simp [hnone]
      · simp [hqp, Ne.symm hqp]

@[simp] theorem folder_put (d : Disk) (place : List LooseText) (node : Node) :
    (d.put place node).folder = d.folder := rfl

/-! ### Paths lead where they led -/

/-- What was a folder is still one. -/
structure KeepsFolders (d d' : Disk) : Prop where
  folder : d'.folder = d.folder
  node? : ∀ place, d.node? place = some .folder → d'.node? place = some .folder

/-- Only folders are on the way, so a path that leads somewhere still does. -/
theorem KeepsFolders.walk (h : d.KeepsFolders d') {parts here : List LooseText}
    (hwalk : d.walk here parts = .ok place) : d'.walk here parts = .ok place := by
  induction parts generalizing here with
  | nil => exact hwalk
  | cons part parts ih =>
    rw [Disk.walk] at hwalk ⊢
    split at hwalk
    · next hhere =>
      rw [h.node? here hhere]
      simp only
      split at hwalk
      · cases hwalk
      · next hsize =>
        rw [if_neg hsize]
        exact ih hwalk
    · cases hwalk
    · cases hwalk

theorem KeepsFolders.locate (h : d.KeepsFolders d') (hlocate : d.locate p = .ok place) :
    d'.locate p = .ok place := by
  rw [Disk.locate] at hlocate ⊢
  rw [h.folder]
  cases hcheck : p.check with
  | error e =>
    rw [hcheck] at hlocate
    cases hlocate
  | ok u =>
    rw [hcheck] at hlocate
    exact h.walk hlocate

/-- A file is put where no folder is. -/
theorem keepsFolders_put (hplace : d.node? place ≠ some .folder) (content : ByteArray) :
    d.KeepsFolders (d.put place (.file content)) where
  folder := rfl
  node? q hq := by
    have hroot : place ≠ [] := by
      rintro rfl
      exact hplace rfl
    have hne : q ≠ place := by
      rintro rfl
      exact hplace hq
    rwa [node?_put d hroot, if_neg hne]

/-- What writing does: the path leads to a place that is no folder, and the file is put there. -/
theorem write_eq_ok_iff {content : ByteArray} : d.write p content = .ok d' ↔
    ∃ place, d.locate p = .ok place ∧ d.node? place ≠ some .folder ∧
      d' = d.put place (.file content) := by
  rw [write]
  cases hlocate : d.locate p with
  | error e => exact ⟨nofun, fun ⟨_, h, _⟩ => nomatch h⟩
  | ok place =>
    simp only [bind, Except.bind, Except.ok.injEq, exists_eq_left']
    split
    · next hfolder => exact ⟨nofun, fun h => absurd hfolder h.1⟩
    · next hfolder =>
      simp only [pure, Except.pure, Except.ok.injEq]
      exact ⟨fun h => ⟨hfolder, h.symm⟩, fun h => h.2.symm⟩

theorem read_eq_ok_iff {content : ByteArray} : d.read p = .ok content ↔
    ∃ place, d.locate p = .ok place ∧ d.node? place = some (.file content) := by
  rw [read]
  cases hlocate : d.locate p with
  | error e => exact ⟨nofun, fun ⟨_, h, _⟩ => nomatch h⟩
  | ok place =>
    simp only [bind, Except.bind, Except.ok.injEq, exists_eq_left']
    split
    · next hnode => simp [hnode, pure, Except.pure]
    · next hnode => simp [hnode, throw, throwThe, MonadExceptOf.throw]
    · next hnode => simp [hnode, throw, throwThe, MonadExceptOf.throw]

theorem isSome_at?_iff : (d.at? p).isSome ↔ ∃ place, d.locate p = .ok place ∧
    (d.node? place).isSome := by
  rw [at?]
  cases hlocate : d.locate p with
  | error e => exact ⟨nofun, fun ⟨_, h, _⟩ => nomatch h⟩
  | ok place => simp

theorem has_eq_true_iff : d.has p = .ok true ↔ ∃ place, d.locate p = .ok place ∧
    (d.node? place).isSome := by
  rw [has]
  cases hlocate : d.locate p with
  | error e => cases e <;> exact ⟨nofun, fun ⟨_, h, _⟩ => nomatch h⟩
  | ok place => simp

/-- A written file is there, with the content that was written. -/
theorem has_and_read_of_write {content : ByteArray} (h : d.write p content = .ok d') :
    d'.has p = .ok true ∧ d'.read p = .ok content := by
  obtain ⟨place, hlocate, hfolder, rfl⟩ := write_eq_ok_iff.1 h
  have hroot : place ≠ [] := by
    rintro rfl
    exact hfolder rfl
  have hthere : (d.put place (.file content)).node? place = some (.file content) := by
    rw [node?_put d hroot, if_pos rfl]
  rw [has, read, (keepsFolders_put hfolder content).locate hlocate]
  simp only [bind, Except.bind, hthere]
  exact ⟨rfl, rfl⟩

/-- A file that has been written can be written again. -/
theorem exists_write_of_write {content : ByteArray} (h : d.write p content = .ok d')
    (content' : ByteArray) : ∃ d'', d'.write p content' = .ok d'' := by
  obtain ⟨place, hlocate, hfolder, rfl⟩ := write_eq_ok_iff.1 h
  have hroot : place ≠ [] := by
    rintro rfl
    exact hfolder rfl
  refine ⟨_, write_eq_ok_iff.2 ⟨place, (keepsFolders_put hfolder content).locate hlocate, ?_, rfl⟩⟩
  rw [node?_put d hroot, if_pos rfl]
  exact nofun

end TodoLists.Disk
