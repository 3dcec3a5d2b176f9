import TodoLists.Proofs.CommandLine.Separate

/-!
# What is saved is what is loaded

Loading gives back the configuration that was saved, whatever texts are its names and paths. Saving
can fail, but only because of the disk, which then would take no other configuration either. The
configuration is looked for anew when it is loaded: to find the file that was saved it has to stay
where it is, which needs that the home folder is not reached by way of `.config`.
-/

namespace TodoLists

theorem Disk.write_eq_error {d : Disk} {p : Path} {content : ByteArray} {err : FileError}
    (h : d.write p content = .error err) (content' : ByteArray) :
    d.write p content' = .error err := by
  rw [write] at h ⊢
  rcases cases_of_bind_eq_error h with hlocate | ⟨place, hlocate, h⟩
  · rw [hlocate]
    rfl
  · rw [hlocate]
    simp only [bind, Except.bind]
    split at h
    · exact congrArg Except.error (Except.error.inj h)
    · cases h

namespace Config

open CommandLine (atRoot bare isTree_bare isSettled_atRoot save_bare)

variable {c : Config} {e : Environment} {d d' : Disk} {p : Path}

theorem loadFrom_of_write (hc : c.IsTyped) (h : d.write p c.toJson.write.toUTF8 = .ok d') :
    loadFrom d' p = .ok c := by
  obtain ⟨hhas, hread⟩ := Disk.has_and_read_of_write h
  rw [loadFrom, hhas]
  simp only [hread, hc.decode_write]
  rfl

/-- Either the disk takes no configuration, or this one is written. -/
theorem save_eq (hc : c.toJson.isWritable = true) (e : Environment) (d : Disk) :
    (∃ err, ∀ c' : Config, (c'.save e d).1 = .error (saveFault (e.configPath d) err)) ∨
      (c.save e d).1 = .ok (e.configPath d) ∧
        ∃ d₁ : Disk, d₁.write (e.configPath d) c.toJson.write.toUTF8 = .ok (c.save e d).2 := by
  simp only [save, saveTo]
  rcases d.ensureFolders (e.configPath d).parent with ⟨err | u, d₁⟩
  · exact Or.inl ⟨err, fun c' => rfl⟩
  · cases hwrite : d₁.write (e.configPath d) c.toJson.write.toUTF8 with
    | error err =>
      refine Or.inl ⟨err, fun c' => ?_⟩
      simp only [Disk.write_eq_error hwrite]
      rfl
    | ok d₂ =>
      right
      simp only [hwrite, ListFile.written, if_pos hc]
      exact ⟨rfl, d₁, hwrite⟩

/-- The configuration that was saved is found again. -/
theorem configPath_save (htree : d.IsTree) (hsettled : e.IsSettled d) :
    e.configPath (c.save e d).2 = e.configPath d := by
  have hfolder := Environment.configFolder_of_apart htree hsettled
    Environment.sharedFolder_apart_config (writesOnly_save c e d)
  rw [Environment.configPath, hfolder.1]
  rfl

/-- A configuration that is saved is loaded as it was, from its file and wherever the program then
looks for it. -/
theorem save_then_load (hc : c.IsTyped) (e : Environment) (d : Disk) :
    (∃ err, ∀ c' : Config, (c'.save e d).1 = .error (saveFault (e.configPath d) err)) ∨
      (c.save e d).1 = .ok (e.configPath d) ∧
        loadFrom (c.save e d).2 (e.configPath d) = .ok c ∧
        (d.IsTree → e.IsSettled d → load e (c.save e d).2 = .ok c) := by
  refine (save_eq hc.regular.isWritable e d).imp_right fun ⟨hsaved, d₁, hwrite⟩ => ?_
  have hload := loadFrom_of_write hc hwrite
  refine ⟨hsaved, hload, fun htree hsettled => ?_⟩
  rw [load, configPath_save htree hsettled, hload]

/-- A quotation mark, a character outside the basic plane, a lone surrogate, and no name at all. -/
def errands : Config :=
  ⟨[(.str "say \"hi\"", .str "/\\\n😀"), (.str ⟨[0xd83d]⟩, .str "../é"), (.str "", .str ".")],
    .str ⟨[0xd83d]⟩, ⟨.bool true, .bool false, .str "-p"⟩⟩

theorem isTyped_errands : errands.IsTyped where
  lists := by
    have hjoined := LooseText.isJoined_ofString
    simp only [errands, List.forall_mem_cons]
    exact ⟨⟨_, _, rfl, hjoined _, hjoined _⟩,
      ⟨_, _, rfl, ListFile.isJoined_singleton (by decide), hjoined _⟩,
      ⟨_, _, rfl, hjoined _, hjoined _⟩, List.forall_mem_nil _⟩
  distinct := by decide
  current := Or.inr ⟨_, rfl, ListFile.isJoined_singleton (by decide)⟩
  options := ⟨_, _, _, rfl, LooseText.isJoined_ofString _⟩

theorem save_then_load_errands : errands.IsTyped ∧ bare.IsTree ∧ atRoot.IsSettled bare ∧
    (errands.save atRoot bare).1 = .ok ⟨.root, ["todoq", "config.json"]⟩ ∧
    load atRoot (errands.save atRoot bare).2 = .ok errands := by
  rcases save_then_load isTyped_errands atRoot bare with ⟨err, hfails⟩ | ⟨hsaved, -, hload⟩
  · rcases save_cases isTyped_errands.regular.isWritable atRoot bare with ⟨-, hmade⟩ | ⟨p, hp⟩
    · rw [save_bare] at hmade
      cases (hmade.file_iff ["todoq", "config.json"] _).1 rfl
    · cases (hfails errands).symm.trans hp
  · exact ⟨isTyped_errands, isTree_bare, isSettled_atRoot _, hsaved,
      hload isTree_bare (isSettled_atRoot _)⟩

end Config

end TodoLists
