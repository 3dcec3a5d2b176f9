import TodoLists.Proofs.CommandLine.OwnFiles

/-!
# The configuration stays where it is

Every run looks anew where the configuration is kept: without a folder named by the environment it
matters whether the home folder has one called `.config`. No command makes that folder, unless the
path of the home folder leads through it and back up.
-/

namespace TodoLists

namespace Environment

variable {e : Environment} {d d' : Disk} {p : Path} {n : String}

/-- What decides where the configuration is kept does not change any more. -/
def IsSettled (e : Environment) (d : Disk) : Prop :=
  (∃ x, e.configHome = some x ∧ x ≠ "") ∨ (d.at? e.sharedFolder).isSome ∨ e.home.IsStraight

section

variable (hhome : e.home.IsStraight)

include hhome

theorem isStraight_extend {more : List LooseText} (hmore : Path.up ∉ more) :
    (e.home.extend more).IsStraight :=
  ⟨hhome.start, fun hmem => (List.mem_append.1 hmem).elim hhome.up hmore⟩

/-- A path from the home folder into the one that is used when `.config` is not there. -/
theorem placeOf_sharedFolder_ne (hp : p.IsStraight) {more : List LooseText}
    (hparts : p.parts = e.home.parts ++ .ofString ".todoq" :: more) (k : Nat) :
    d.placeOf e.sharedFolder ≠ d.placeOf (p.upTo k) := by
  have hne : LooseText.ofString ".config" ≠ .ofString ".todoq" := by decide
  have hshared : e.sharedFolder.IsStraight := isStraight_extend hhome (by decide)
  rw [hshared.placeOf, (hp.upTo k).placeOf, Path.upTo, List.map_take, hparts, sharedFolder,
    Path.extend, List.map_append, List.map_append, List.map_cons, List.map_cons,
    DiskName.normalize_ofString, DiskName.normalize_ofString]
  exact Path.concat_ne_take hne k

theorem stem_of_isStraight (hfolder : e.configFolder d = e.home.extend [.ofString ".todoq"]) :
    e.stem d = e.home.parts ++ [.ofString ".todoq"] := by
  have hstraight : (e.home.extend [.ofString ".todoq"]).IsStraight :=
    isStraight_extend hhome (by decide)
  rw [stem, hfolder, Path.expandHome?_of_start hstraight.start]
  simp only
  rw [hstraight.partsFrom, Path.collapse_eq_self hstraight.up, Path.extend]

end

/-- The configuration, when it is in the home folder and `.config` is not there, is not reached
through `.config`. -/
theorem sharedFolder_apart_config (hhome : e.home.IsStraight)
    (hfolder : e.configFolder d = e.home.extend [.ofString ".todoq"]) (k : Nat) :
    d.placeOf e.sharedFolder ≠ d.placeOf ((e.configPath d).upTo k) := by
  rw [configPath_eq, hfolder, Path.extend_extend]
  exact placeOf_sharedFolder_ne hhome (isStraight_extend hhome (by decide)) rfl k

/-- What a run writes then does not lead through `.config` either. -/
theorem sharedFolder_apart (hnamed : e.IsNamed d.folder) (hhome : e.home.IsStraight)
    (hfolder : e.configFolder d = e.home.extend [.ofString ".todoq"])
    (hp : p = e.configPath d ∨ ∃ n, p = e.ownFile d n) (k : Nat) :
    d.placeOf e.sharedFolder ≠ d.placeOf (p.upTo k) := by
  rcases hp with rfl | ⟨n, rfl⟩
  · exact sharedFolder_apart_config hhome hfolder k
  · have hparts : (e.ownFile d n).parts = e.home.parts ++ .ofString ".todoq" :: fileNames n := by
      rw [ownFile, stem_of_isStraight hhome hfolder, List.append_assoc]
      rfl
    exact placeOf_sharedFolder_ne hhome (isStraight_ownFile hnamed) hparts k

theorem configFolder_eq_standard (h : ¬ ∃ x, e.configHome = some x ∧ x ≠ "") (d : Disk) :
    e.configFolder d = configFolder.standard e d := by
  rw [configFolder]
  split
  · next x hx =>
    by_cases hempty : x = ""
    · rw [if_pos hempty]
    · exact absurd ⟨x, hx, hempty⟩ h
  · rfl

/-- The configuration stays where it is when nothing is written that leads through `.config`. -/
theorem configFolder_of_apart (htree : d.IsTree) (hsettled : e.IsSettled d)
    (hapart : e.home.IsStraight → e.configFolder d = e.home.extend [.ofString ".todoq"] →
      ∀ k, d.placeOf e.sharedFolder ≠ d.placeOf (p.upTo k))
    (h : d.WritesOnly p d') : e.configFolder d' = e.configFolder d ∧ e.IsSettled d' := by
  by_cases hchosen : ∃ x, e.configHome = some x ∧ x ≠ ""
  · refine ⟨?_, Or.inl hchosen⟩
    obtain ⟨x, hx, hne⟩ := hchosen
    rw [configFolder, configFolder, hx]
    simp only [if_neg hne]
  · have hstandard := configFolder_eq_standard hchosen
    rw [hstandard, hstandard, configFolder_standard, configFolder_standard]
    by_cases hshared : (d.at? e.sharedFolder).isSome
    · have hshared' := h.isSome_at? hshared
      rw [if_pos hshared, if_pos hshared']
      exact ⟨rfl, Or.inr (Or.inl hshared')⟩
    · have hhome := (hsettled.resolve_left hchosen).resolve_left hshared
      have hfolder : e.configFolder d = e.home.extend [.ofString ".todoq"] := by
        rw [hstandard, configFolder_standard, if_neg hshared]
      have hstraight : e.sharedFolder.IsStraight := isStraight_extend hhome (by decide)
      have hshared' : ¬ (d'.at? e.sharedFolder).isSome := by
        rwa [h.isSome_at?_elsewhere htree hstraight (hapart hhome hfolder)]
      rw [if_neg hshared, if_neg hshared']
      exact ⟨rfl, Or.inr (Or.inr hhome)⟩

theorem configFolder_of_writesOnly (hnamed : e.IsNamed d.folder) (htree : d.IsTree)
    (hsettled : e.IsSettled d) (hp : p = e.configPath d ∨ ∃ n, p = e.ownFile d n)
    (h : d.WritesOnly p d') : e.configFolder d' = e.configFolder d ∧ e.IsSettled d' :=
  configFolder_of_apart htree hsettled
    (fun hhome hfolder => sharedFolder_apart hnamed hhome hfolder hp) h

end Environment

end TodoLists
