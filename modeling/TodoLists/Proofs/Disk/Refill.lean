import TodoLists.Proofs.Disk.Frame

/-!
# What is in other files does not matter

When the content of one file is replaced, every path leads where it led, and whatever is done with
paths that do not lead to that file comes to the same, with the new content in it afterwards.
-/

namespace TodoLists

/-- A file with other content; a folder stays a folder. -/
def Node.refill (x : ByteArray) : Node → Node
  | .folder => .folder
  | .file _ => .file x

namespace Disk

/-- The disk with other content in the file at a place, if there is one. -/
def refill (q : List LooseText) (x : ByteArray) (d : Disk) : Disk :=
  { d with nodes := d.nodes.map fun n => (n.1, if n.1 = q then n.2.refill x else n.2) }

variable {q : List LooseText} {x : ByteArray} {d : Disk} {p : Path}

@[simp] theorem folder_refill : (d.refill q x).folder = d.folder := rfl

theorem node?_refill (place : List LooseText) : (d.refill q x).node? place =
    (d.node? place).map fun n => if place = q then n.refill x else n := by
  by_cases hroot : place = []
  · rw [node?, if_pos hroot, node?, if_pos hroot, Option.map_some]
    split <;> rfl
  · rw [node?, if_neg hroot, node?, if_neg hroot, refill]
    induction d.nodes with
    | nil => rfl
    | cons n nodes ih =>
      rw [List.map_cons, List.find?_cons, List.find?_cons]
      by_cases hn : n.1 = place
      · simp only [hn, beq_self_eq_true, Option.map_some]
      · rw [beq_eq_false_iff_ne.2 hn]
        exact ih

/-- What is at other places is the same. -/
theorem node?_refill_of_ne {place : List LooseText} (h : place ≠ q) :
    (d.refill q x).node? place = d.node? place := by
  simp [node?_refill, h]

theorem node?_refill_eq_folder {place : List LooseText} :
    (d.refill q x).node? place = some .folder ↔ d.node? place = some .folder := by
  rw [node?_refill]
  rcases d.node? place with _ | _ | y
  · simp
  · by_cases h : place = q <;> simp [h, Node.refill]
  · by_cases h : place = q <;> simp [h, Node.refill]

theorem walk_refill (parts here : List LooseText) :
    (d.refill q x).walk here parts = d.walk here parts := by
  induction parts generalizing here with
  | nil => rfl
  | cons part parts ih =>
    rw [walk, walk, node?_refill]
    rcases d.node? here with _ | _ | y
    · rfl
    · have hfolder : (if here = q then Node.refill x .folder else .folder) = .folder := by
        split <;> rfl
      simp only [Option.map_some, hfolder, ih]
    · by_cases h : here = q <;> simp [h, Node.refill]

theorem locate_refill (p : Path) : (d.refill q x).locate p = d.locate p := by
  rw [locate, locate, walk_refill, folder_refill]

theorem has_refill (p : Path) : (d.refill q x).has p = d.has p := by
  rw [has, has, locate_refill]
  simp only [node?_refill, Option.isSome_map]

theorem isSome_at?_refill (p : Path) : ((d.refill q x).at? p).isSome = (d.at? p).isSome := by
  rw [at?, at?, locate_refill]
  cases d.locate p with
  | error e => rfl
  | ok place => simp only [node?_refill, Option.isSome_map]

theorem hasFolder_iff : d.hasFolder p = true ↔ ∃ place, d.locate p = .ok place ∧
    d.node? place = some .folder := by
  rw [hasFolder, at?]
  cases d.locate p with
  | error e => simp
  | ok place =>
    rcases hnode : d.node? place with _ | _ | y <;> simp [hnode]

theorem hasFolder_refill (p : Path) : (d.refill q x).hasFolder p = d.hasFolder p := by
  rw [Bool.eq_iff_iff, hasFolder_iff, hasFolder_iff, locate_refill]
  simp only [node?_refill_eq_folder]

theorem read_refill (h : d.placeOf p ≠ q) : (d.refill q x).read p = d.read p := by
  rw [read, read, locate_refill]
  cases hlocate : d.locate p with
  | error e => rfl
  | ok place =>
    rw [← eq_placeOf_of_locate hlocate] at h
    simp only [bind, Except.bind, node?_refill_of_ne h]

/-! ### Writing -/

theorem refill_put (place : List LooseText) (node : Node) : (d.put place node).refill q x =
    (d.refill q x).put place (if place = q then node.refill x else node) := by
  have hany : (d.refill q x).nodes.any (fun n => n.1 == place) =
      d.nodes.any fun n => n.1 == place := List.any_map
  rw [put, put, hany]
  split
  · simp only [refill, List.map_map, mk.injEq, true_and]
    apply List.map_congr_left
    intro n _
    simp only [Function.comp_apply]
    split <;> rfl
  · simp only [refill, List.map_append, List.map_cons, List.map_nil]

theorem write_refill (h : d.placeOf p ≠ q) (content : ByteArray) :
    (d.refill q x).write p content = (d.write p content).map (refill q x) := by
  rw [write, write, locate_refill]
  cases hlocate : d.locate p with
  | error e => rfl
  | ok place =>
    rw [← eq_placeOf_of_locate hlocate] at h
    simp only [bind, Except.bind, node?_refill_of_ne h]
    split
    · rfl
    · simp only [pure, Except.pure, Except.map, refill_put, if_neg h]

theorem makeFolder_refill (p : Path) :
    (d.refill q x).makeFolder p = (d.makeFolder p).map (refill q x) := by
  rw [makeFolder, makeFolder, locate_refill]
  cases d.locate p with
  | error e => rfl
  | ok place =>
    simp only [bind, Except.bind, node?_refill]
    cases d.node? place with
    | some node => rfl
    | none =>
      have hfolder : (if place = q then Node.refill x .folder else .folder) = .folder := by
        split <;> rfl
      simp only [Option.map_none, pure, Except.pure, Except.map, refill_put, hfolder]

theorem ensureFolder_refill (p : Path) :
    (d.refill q x).ensureFolder p = (d.ensureFolder p).map (refill q x) := by
  rw [ensureFolder, ensureFolder, makeFolder_refill, hasFolder_refill]
  cases d.makeFolder p with
  | ok d' => rfl
  | error e =>
    simp only [Except.map]
    split <;> rfl

theorem ensureFolders_refill (d : Disk) (p : Path) : (d.refill q x).ensureFolders p =
    ((d.ensureFolders p).1, (d.ensureFolders p).2.refill q x) := by
  fun_induction ensureFolders d p with
  | case1 p d' hmake =>
    rw [ensureFolders, makeFolder_refill, hmake]
    rfl
  | case2 p hmake hparts =>
    rw [ensureFolders, makeFolder_refill, hmake]
    simp only [Except.map, hparts, dif_pos]
  | case3 p hmake hparts e d' hparent ih =>
    rw [ensureFolders, makeFolder_refill, hmake]
    rw [hparent] at ih
    simp only [Except.map, hparts, dif_neg, not_false_eq_true, ih]
  | case4 p hmake hparts d' _ hparent d'' hfolder ih =>
    rw [ensureFolders, makeFolder_refill, hmake]
    rw [hparent] at ih
    simp only [Except.map, hparts, dif_neg, not_false_eq_true, ih, ensureFolder_refill, hfolder]
  | case5 p hmake hparts d' _ hparent e hfolder ih =>
    rw [ensureFolders, makeFolder_refill, hmake]
    rw [hparent] at ih
    simp only [Except.map, hparts, dif_neg, not_false_eq_true, ih, ensureFolder_refill, hfolder]
  | case6 p e hne hmake =>
    rw [ensureFolders, makeFolder_refill, hmake]
    simp only [Except.map, hasFolder_refill]

end Disk

end TodoLists
