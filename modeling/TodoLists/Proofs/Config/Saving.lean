import TodoLists.Config.File
import TodoLists.Proofs.Desk.Outcome

/-!
# Saving the configuration

A configuration that was loaded can be written again, also after lists were registered or forgotten:
its numbers were numerals in a file, and what this program adds are texts. So only the disk can
refuse to take it, and when the disk refuses no file has changed.
-/

namespace TodoLists

/-! ### Loaded configurations -/

theorem Options.isWritable_set {o o' : Options} {name : LooseText} {v : Json}
    (ho : o.toJson.isWritable = true) (hv : v.isWritable = true) (h : o.set name v = .ok o') :
    o'.toJson.isWritable = true := by
  simp only [toJson, Json.isWritable, Json.membersWritable, Bool.and_eq_true, and_true] at ho ⊢
  rw [set] at h
  split at h
  · cases h
    exact ⟨hv, ho.2⟩
  · split at h
    · cases h
      exact ⟨ho.1, hv, ho.2.2⟩
    · split at h
      · cases h
        exact ⟨ho.1, ho.2.1, hv⟩
      · cases h

theorem Options.isWritable_foldlM_set {ms : List (LooseText × Json)} {o o' : Options}
    (ho : o.toJson.isWritable = true) (hms : ∀ m ∈ ms, m.2.isWritable = true)
    (h : ms.foldlM (fun o m => o.set m.1 m.2) o = .ok o') : o'.toJson.isWritable = true := by
  induction ms generalizing o with
  | nil =>
    cases h
    exact ho
  | cons m ms ih =>
    rw [List.foldlM_cons] at h
    obtain ⟨o₁, hset, h⟩ := exists_of_bind_eq_ok h
    obtain ⟨hm, hms⟩ := List.forall_mem_cons.1 hms
    exact ih (isWritable_set ho hm hset) hms h

theorem Options.isWritable_ofJson {v : Json} (hv : v.isWritable = true) {o : Options}
    (h : ofJson v = .ok o) : o.toJson.isWritable = true := by
  cases v with
  | obj ms => exact isWritable_foldlM_set (by decide) (Json.isWritable_obj_iff.1 hv) h
  | _ => cases h

namespace Config

variable {c c' : Config}

theorem isWritable_toJson_iff : c.toJson.isWritable = true ↔
    (∀ l ∈ c.lists, l.2.isWritable = true) ∧ c.current.isWritable = true ∧
      c.options.toJson.isWritable = true := by
  simp only [toJson, Json.isWritable_obj_iff, List.forall_mem_cons, List.forall_mem_map,
    List.not_mem_nil, false_implies, implies_true, and_true]

theorem isWritable_putPair {name path : Json} (hpath : path.isWritable = true)
    {ls : List (Json × Json)} (hls : ∀ l ∈ ls, l.2.isWritable = true) :
    ∀ l ∈ putPair name path ls, l.2.isWritable = true := by
  induction ls with
  | nil => exact List.forall_mem_singleton.2 hpath
  | cons l ls ih =>
    obtain ⟨hl, hls⟩ := List.forall_mem_cons.1 hls
    rw [putPair]
    split
    · exact List.forall_mem_cons.2 ⟨hpath, hls⟩
    · exact List.forall_mem_cons.2 ⟨hl, ih hls⟩

theorem isWritable_readPair {v : Json} (hv : v.isWritable = true) {pair : Json × Json}
    (h : readPair v = .ok pair) : pair.2.isWritable = true := by
  rw [readPair] at h
  split at h
  · cases h
  · next name path hes =>
    split at h
    · cases h
      exact Json.isWritable_of_elements? hv hes _ (by simp)
    · cases h
  · cases h

theorem isWritable_foldl_putPair {pairs ls : List (Json × Json)}
    (hpairs : ∀ p ∈ pairs, p.2.isWritable = true) (hls : ∀ l ∈ ls, l.2.isWritable = true) :
    ∀ l ∈ pairs.foldl (fun ls p => putPair p.1 p.2 ls) ls, l.2.isWritable = true := by
  induction pairs generalizing ls with
  | nil => exact hls
  | cons p pairs ih =>
    obtain ⟨hp, hpairs⟩ := List.forall_mem_cons.1 hpairs
    exact ih hpairs (isWritable_putPair hp hls)

theorem isWritable_of_readPairs {es : List Json} (hes : ∀ e ∈ es, e.isWritable = true)
    {lists : List (Json × Json)}
    (h : es.mapM readPair >>= (fun ps => .ok (ps.foldl (fun ls p => putPair p.1 p.2 ls) [])) =
      .ok lists) : ∀ l ∈ lists, l.2.isWritable = true := by
  obtain ⟨pairs, hpairs, h⟩ := exists_of_bind_eq_ok h
  cases h
  have hall : ∀ p ∈ pairs, p.2.isWritable = true :=
    forall_of_mapM_eq_ok hpairs fun e he _ hread => isWritable_readPair (hes e he) hread
  exact isWritable_foldl_putPair hall fun l hl => absurd hl List.not_mem_nil

/-- The registry is made of the members of an object, or of pairs. -/
theorem isWritable_readLists {v : Json} (hv : v.isWritable = true) {lists : List (Json × Json)}
    (h : readLists v = .ok lists) : ∀ l ∈ lists, l.2.isWritable = true := by
  cases v with
  | obj ms =>
    cases h
    exact isWritable_foldl_putPair (List.forall_mem_map.2 (Json.isWritable_obj_iff.1 hv))
      fun l hl => absurd hl List.not_mem_nil
  | arr es => exact isWritable_of_readPairs (Json.isWritable_of_elements? hv rfl) h
  | str s => exact isWritable_of_readPairs (Json.isWritable_of_elements? hv rfl) h
  | _ => cases h

theorem isWritable_ofJson {v : Json} (hv : v.isWritable = true) (h : ofJson v = .ok c) :
    c.toJson.isWritable = true := by
  cases v with
  | obj ms =>
    obtain ⟨lists, hlists, h⟩ := exists_of_bind_eq_ok h
    obtain ⟨options, hoptions, h⟩ := exists_of_bind_eq_ok h
    cases h
    have hempty : (Json.obj []).isWritable = true := by decide
    exact isWritable_toJson_iff.2
      ⟨isWritable_readLists (Json.isWritable_getD_member? hv _ hempty) hlists,
        Json.isWritable_getD_member? hv _ (by decide),
        Options.isWritable_ofJson (Json.isWritable_getD_member? hv _ hempty) hoptions⟩
  | _ => cases h

theorem isWritable_decode {content : ByteArray} (h : decode content = .ok c) :
    c.toJson.isWritable = true := by
  rw [decode] at h
  split at h
  · cases h
  · next text _ =>
    obtain ⟨v, hparse, h⟩ := exists_of_bind_eq_ok h
    rw [ListFile.parse] at hparse
    split at hparse
    · next hread =>
      cases hparse
      exact isWritable_ofJson (Json.regular_of_read hread).isWritable h
    · cases hparse
    · cases hparse

/-- A configuration that was loaded can be written. -/
theorem isWritable_load {e : Environment} {d : Disk} (h : load e d = .ok c) :
    c.toJson.isWritable = true := by
  rw [load, loadFrom] at h
  split at h
  · cases h
  · cases h
    decide
  · split at h
    · cases h
    · exact isWritable_decode (eq_ok_of_mapError_eq_ok h)

/-! ### Changed configurations -/

theorem wanted_of_resolve {asked : Option String} {name : Json} {path : Path}
    (h : c.resolve asked = .ok (name, path)) :
    name = c.wanted asked ∧ name.isTruthy = true ∧ c.findPath name = .ok path := by
  rw [resolve] at h
  split at h
  · next htruthy =>
    obtain ⟨path', hpath, h⟩ := exists_of_bind_eq_ok h
    cases h
    exact ⟨rfl, htruthy, hpath⟩
  · cases h

section

variable (hc : c.toJson.isWritable = true) {name : String}

include hc

theorem isWritable_addList {path : Path} (h : c.addList name path = .ok c') :
    c'.toJson.isWritable = true := by
  obtain ⟨hlists, hcurrent, hoptions⟩ := isWritable_toJson_iff.1 hc
  rw [addList] at h
  split at h
  · cases h
  · cases h
    refine isWritable_toJson_iff.2 ⟨?_, ?_, hoptions⟩
    · exact List.forall_mem_append.2
        ⟨hlists, List.forall_mem_singleton.2 (Json.isWritable_str _)⟩
    · split
      · exact Json.isWritable_str _
      · exact hcurrent

theorem isWritable_removeList {path : Path} (h : c.removeList name = .ok (path, c')) :
    c'.toJson.isWritable = true := by
  obtain ⟨hlists, hcurrent, hoptions⟩ := isWritable_toJson_iff.1 hc
  obtain ⟨path', -, h⟩ := exists_of_bind_eq_ok h
  cases h
  refine isWritable_toJson_iff.2 ⟨fun l hl => hlists l (List.mem_filter.1 hl).1, ?_, hoptions⟩
  simp only
  split
  · decide
  · exact hcurrent

theorem isWritable_resolve {asked : Option String} {current : Json} {path : Path}
    (h : c.resolve asked = .ok (current, path)) :
    ({ c with current := current } : Config).toJson.isWritable = true := by
  obtain ⟨hlists, hcurrent, hoptions⟩ := isWritable_toJson_iff.1 hc
  refine isWritable_toJson_iff.2 ⟨hlists, ?_, hoptions⟩
  rw [(wanted_of_resolve h).1]
  cases asked with
  | none => exact hcurrent
  | some name =>
    rw [wanted]
    split
    · exact hcurrent
    · exact Json.isWritable_str _

end

/-! ### Saving -/

/-- Only the disk can refuse a configuration that can be written, and then no file has changed. -/
theorem save_cases (hc : c.toJson.isWritable = true) (e : Environment) (d : Disk) :
    ((∃ f, (c.save e d).1 = .error f) ∧ d.OnlyFoldersMade (c.save e d).2) ∨
      ∃ p, (c.save e d).1 = .ok p := by
  have hmade := Disk.onlyFoldersMade_ensureFolders d (e.configPath d).parent
  rw [save, saveTo]
  rcases hfolders : d.ensureFolders (e.configPath d).parent with ⟨err | u, d₁⟩
  · rw [hfolders] at hmade
    exact Or.inl ⟨⟨_, rfl⟩, hmade⟩
  · rw [hfolders] at hmade
    simp only
    split
    · exact Or.inl ⟨⟨_, rfl⟩, hmade⟩
    · rw [ListFile.written, if_pos hc]
      exact Or.inr ⟨_, rfl⟩

end Config

end TodoLists
