import TodoLists.Proofs.Config.Saving
import TodoLists.Proofs.Disk.Frame

/-!
# The configuration is read back

A configuration whose names and paths are texts comes back from its file when no name is registered
twice. Saving it writes this one file, or else only makes folders.
-/

namespace TodoLists

theorem Options.ofJson_toJson (o : Options) : ofJson o.toJson = .ok o := rfl

namespace Config

variable {c : Config} {e : Environment} {d d' : Disk} {p : Path}

/-- All fields have the types that they are meant to have: names and paths are texts, no name is
there twice, and the options are two switches and a text. The texts are those that a file gives back,
see `Json.read_write_str_iff`. -/
structure IsTyped (c : Config) : Prop where
  lists : ∀ l ∈ c.lists, ∃ n t, l = (.str n, .str t) ∧ n.IsJoined ∧ t.IsJoined
  distinct : (c.lists.map fun l => l.1.keyText).Nodup
  current : c.current = .null ∨ ∃ n, c.current = .str n ∧ n.IsJoined
  options : ∃ verbose color sort,
    c.options = ⟨.bool verbose, .bool color, .str sort⟩ ∧ sort.IsJoined

/-- A configuration of the kind that this program makes by itself, with the default options. -/
structure IsTextual (c : Config) : Prop where
  lists : ∀ l ∈ c.lists, ∃ n t, l = (.str n, .str t) ∧ n.IsJoined ∧ t.IsJoined
  distinct : (c.lists.map fun l => l.1.keyText).Nodup
  current : c.current = .null ∨ ∃ n, c.current = .str n ∧ n.IsJoined
  options : c.options = .default

theorem IsTextual.isTyped (h : c.IsTextual) : c.IsTyped where
  lists := h.lists
  distinct := h.distinct
  current := h.current
  options := ⟨_, _, _, h.options, LooseText.isJoined_ofString ""⟩

theorem IsTyped.regular (h : c.IsTyped) : c.toJson.Regular fun _ => False := by
  have hjoined := LooseText.isJoined_ofString
  have hlists : (Json.obj (c.lists.map fun l => (l.1.keyText, l.2))).Regular fun _ => False := by
    refine .obj ?_ (List.forall_mem_map.2 fun l hl => ?_) (List.forall_mem_map.2 fun l hl => ?_)
    · rw [List.map_map]
      exact h.distinct
    · obtain ⟨n, t, rfl, hn, -⟩ := h.lists l hl
      exact hn
    · obtain ⟨n, t, rfl, -, ht⟩ := h.lists l hl
      exact .str ht
  have hcurrent : c.current.Regular fun _ => False := by
    rcases h.current with heq | ⟨n, heq, hn⟩
    · rw [heq]
      exact .null
    · rw [heq]
      exact .str hn
  have hoptions : c.options.toJson.Regular fun _ => False := by
    obtain ⟨verbose, color, sort, heq, hsort⟩ := h.options
    rw [heq]
    refine .obj (by simp [LooseText.ofString_inj]) (by simp [hjoined]) ?_
    simp only [List.forall_mem_cons]
    exact ⟨.bool _, .bool _, .str hsort, List.forall_mem_nil _⟩
  refine .obj (by simp [LooseText.ofString_inj]) (by simp [hjoined]) ?_
  simp only [List.forall_mem_cons]
  exact ⟨hlists, hcurrent, hoptions, List.forall_mem_nil _⟩

/-! ### Reading -/

theorem putPair_of_not_mem {name path : Json} {ls : List (Json × Json)}
    (h : ∀ l ∈ ls, l.1.sameKey name = false) : putPair name path ls = ls ++ [(name, path)] := by
  induction ls with
  | nil => rfl
  | cons l ls ih =>
    obtain ⟨hl, hls⟩ := List.forall_mem_cons.1 h
    rw [putPair, hl, ih hls]
    rfl

/-- Pairs with different names are all kept, in their order. -/
theorem foldl_putPair {ms : List (LooseText × Json)} {ls : List (Json × Json)}
    (hls : ∀ l ∈ ls, ∃ n, l.1 = .str n)
    (h : ((ls.map fun l => l.1.keyText) ++ ms.map (·.1)).Nodup) :
    (ms.map fun m => (Json.str m.1, m.2)).foldl (fun ls p => putPair p.1 p.2 ls) ls =
      ls ++ ms.map fun m => (Json.str m.1, m.2) := by
  induction ms generalizing ls with
  | nil => simp
  | cons m ms ih =>
    have hnew : ∀ l ∈ ls, l.1.sameKey (.str m.1) = false := by
      intro l hl
      obtain ⟨n, hn⟩ := hls l hl
      have hne : n ≠ m.1 := by
        rintro rfl
        have hmem := List.mem_map_of_mem (f := fun l : Json × Json => l.1.keyText) hl
        simp only [hn, Json.keyText] at hmem
        exact (List.disjoint_of_nodup_append h) hmem (by simp)
      rw [hn, Json.sameKey_str]
      exact beq_eq_false_iff_ne.2 hne
    rw [List.map_cons, List.foldl_cons, putPair_of_not_mem hnew, ih]
    · rw [List.append_assoc]
      rfl
    · intro l hl
      rcases List.mem_append.1 hl with hl | hl
      · exact hls l hl
      · cases List.mem_singleton.1 hl
        exact ⟨m.1, rfl⟩
    · simpa [Json.keyText] using h

theorem IsTyped.readLists (h : c.IsTyped) :
    readLists (.obj (c.lists.map fun l => (l.1.keyText, l.2))) = .ok c.lists := by
  have hpairs : (c.lists.map fun l => (l.1.keyText, l.2)).map (fun m => (Json.str m.1, m.2)) =
      c.lists := by
    rw [List.map_map]
    conv_rhs => rw [← List.map_id c.lists]
    refine List.map_congr_left fun l hl => ?_
    obtain ⟨n, t, rfl, -⟩ := h.lists l hl
    rfl
  have hdistinct : (([] : List (Json × Json)).map (fun l => l.1.keyText) ++
      (c.lists.map fun l => (l.1.keyText, l.2)).map (·.1)).Nodup := by
    rw [List.map_nil, List.nil_append, List.map_map]
    exact h.distinct
  have hnone : ∀ l ∈ ([] : List (Json × Json)), ∃ n, l.1 = .str n := nofun
  have hfold := foldl_putPair hnone hdistinct
  rw [hpairs, List.nil_append] at hfold
  show Except.ok (((c.lists.map fun l => (l.1.keyText, l.2)).map
    (fun m => (Json.str m.1, m.2))).foldl (fun ls p => putPair p.1 p.2 ls) []) = _
  rw [hpairs, hfold]

theorem IsTyped.ofJson_toJson (h : c.IsTyped) : ofJson c.toJson = .ok c := by
  have hofJson : ofJson c.toJson =
      (Config.readLists (.obj (c.lists.map fun l => (l.1.keyText, l.2)))).bind fun lists =>
        (Options.ofJson c.options.toJson).map fun options => ⟨lists, c.current, options⟩ := rfl
  rw [hofJson, h.readLists, Options.ofJson_toJson]
  rfl

theorem IsTyped.decode_write (h : c.IsTyped) : decode c.toJson.write.toUTF8 = .ok c := by
  rw [decode, fromUTF8?_toUTF8]
  simp only [ListFile.parse, Json.read_write h.regular, bind, Except.bind, h.ofJson_toJson]

/-! ### Loading -/

/-- What is loaded is the default configuration, or stands in the file. -/
theorem loadFrom_eq_ok (h : loadFrom d p = .ok c) : c = .default ∨
    d.has p = .ok true ∧ ∃ content, d.read p = .ok content ∧ decode content = .ok c := by
  rw [loadFrom] at h
  split at h
  · cases h
  · cases h
    exact Or.inl rfl
  · next hhas =>
    split at h
    · cases h
    · next content hread => exact Or.inr ⟨hhas, content, hread, eq_ok_of_mapError_eq_ok h⟩

/-- A configuration that is there is read as before when another file is written. -/
theorem loadFrom_eq_of_writesOnly {q : Path} (h : d.WritesOnly p d')
    (hne : d.placeOf q ≠ d.placeOf p) (hhas : d.has q = .ok true) :
    loadFrom d' q = loadFrom d q := by
  rw [loadFrom, loadFrom, h.has_eq_true hhas, hhas, h.read_eq hne hhas]

/-! ### Saving -/

/-- Saving makes folders, and then it either fails or writes the file. -/
theorem save_disk (c : Config) (e : Environment) (d : Disk) :
    d.MakesWay (e.configPath d).parent (c.save e d).2 ∨
      ∃ d₁ : Disk, d.MakesWay (e.configPath d).parent d₁ ∧
        d₁.write (e.configPath d) c.toJson.write.toUTF8 = .ok (c.save e d).2 := by
  have hmade := Disk.makesWay_ensureFolders d (e.configPath d).parent
  rw [save, saveTo]
  rcases hfolders : d.ensureFolders (e.configPath d).parent with ⟨err | u, d₁⟩
  · rw [hfolders] at hmade
    exact Or.inl hmade
  · rw [hfolders] at hmade
    simp only
    split
    · exact Or.inl hmade
    · next hwrite => exact Or.inr ⟨d₁, hmade, hwrite⟩

theorem writesOnly_save (c : Config) (e : Environment) (d : Disk) :
    d.WritesOnly (e.configPath d) (c.save e d).2 := by
  rcases save_disk c e d with hmade | ⟨d₁, hmade, hwrite⟩
  · exact hmade.writesOnly
  · exact hmade.writesOnly.trans (Disk.writesOnly_of_write hwrite)

/-- In the place of the configuration there is afterwards what was there before or what was saved. -/
theorem file_save {content : ByteArray}
    (h : (c.save e d).2.node? (d.placeOf (e.configPath d)) = some (.file content)) :
    d.node? (d.placeOf (e.configPath d)) = some (.file content) ∨
      content = c.toJson.write.toUTF8 := by
  rcases save_disk c e d with hmade | ⟨d₁, hmade, hwrite⟩
  · exact Or.inl ((hmade.onlyFoldersMade.file_iff _ content).1 h)
  · obtain ⟨place, hlocate, hplace, hsaved⟩ := Disk.write_eq_ok_iff.1 hwrite
    have hroot : place ≠ [] := by
      rintro rfl
      exact hplace rfl
    rw [hsaved, Disk.node?_put d₁ hroot, Disk.eq_placeOf_of_locate hlocate,
      Disk.placeOf_congr hmade.folder, if_pos rfl] at h
    cases h
    exact Or.inr rfl

end Config

end TodoLists
