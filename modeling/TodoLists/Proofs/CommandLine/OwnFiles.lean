import TodoLists.CommandLine.Registry
import TodoLists.Proofs.Disk.Straight

/-!
# The files of lists that have no path of their own

A list that is registered by its name alone gets a file in the folder for lists, named after it. As
long as the name is a single part of a path, different lists get different files, and none of them
is the configuration. All this is read off the last two names on the way to a file.
-/

namespace TodoLists

/-! ### Names -/

/-- The name can be one part of a path. -/
def IsPlainName (name : String) : Prop := '/' ∉ name.toList

instance (name : String) : Decidable (IsPlainName name) :=
  inferInstanceAs (Decidable (¬ '/' ∈ name.toList))

theorem IsPlainName.isName {name : String} (h : IsPlainName name) :
    (LooseText.ofString (name ++ ".json")).IsName := by
  have hlength : (name ++ ".json").toList.length = name.toList.length + 5 := by simp
  refine LooseText.isName_ofString ⟨by simpa [IsPlainName] using h, ?_, ?_⟩
  · intro heq
    simp [heq] at hlength
  · intro heq
    simp [heq] at hlength

namespace Path

variable {p q home : Path} {accounts : List (String × Path)}

/-- A way that branches off leads elsewhere, however far it is followed. -/
theorem concat_ne_take {init more : List LooseText} {a b : LooseText} (hne : a ≠ b) (k : Nat) :
    init ++ [a] ≠ (init ++ b :: more).take k := by
  intro heq
  have hat := congrArg (fun parts => parts[init.length]?) heq
  simp only [List.getElem?_take, List.getElem?_concat_length] at hat
  split at hat
  · rw [List.getElem?_append_right (Nat.le_refl _), Nat.sub_self] at hat
    exact hne (Option.some.inj hat)
  · cases hat

/-- Only a path that does not start at the root can ask for a home folder. -/
theorem expandHome?_of_start (hp : p.start ≠ .here) : p.expandHome? home accounts = some p := by
  rw [expandHome?]
  split
  · next hstart _ => exact absurd hstart hp
  · rfl

/-- It can do so with its first name. -/
theorem expandHome?_extend (hp : p.parts ≠ []) (more : List LooseText) :
    (p.extend more).expandHome? home accounts =
      (p.expandHome? home accounts).map fun q => q.extend more := by
  rw [expandHome?]
  split
  · next hstart hparts =>
    obtain ⟨first, tail, hfirst⟩ := List.exists_cons_of_ne_nil hp
    rw [extend, hfirst] at hparts
    obtain ⟨rfl, rfl⟩ := List.cons.inj hparts
    have hhere : p.start = .here := hstart
    rw [expandHome?, hhere, hfirst]
    simp only [Option.map_map]
    congr 1
    funext folder
    simp [extend]
  · next hno =>
    rw [expandHome?]
    split
    · next name rest hstart hparts =>
      refine absurd ?_ (hno name (rest ++ more) hstart)
      show p.parts ++ more = _
      rw [hparts]
      rfl
    · rfl

theorem isName_expandHome? (hp : ∀ part ∈ p.parts, part.IsName)
    (hhome : ∀ part ∈ home.parts, part.IsName)
    (haccounts : ∀ a ∈ accounts, ∀ part ∈ a.2.parts, part.IsName)
    (h : p.expandHome? home accounts = some q) : ∀ part ∈ q.parts, part.IsName := by
  rw [expandHome?] at h
  split at h
  · next name rest _ hparts =>
    obtain ⟨folder, hfolder, rfl⟩ := Option.map_eq_some_iff.1 h
    have hrest : ∀ part ∈ rest, part.IsName := fun part hpart =>
      hp part (hparts ▸ List.mem_cons_of_mem _ hpart)
    refine List.forall_mem_append.2 ⟨?_, hrest⟩
    split at hfolder
    · cases hfolder
      exact hhome
    · obtain ⟨account, hmem, rfl⟩ := Option.map_eq_some_iff.1 hfolder
      exact haccounts account (List.mem_of_find?_eq_some hmem)
  · cases h
    exact hp

end Path

namespace Environment

variable {e : Environment} {d d' : Disk} {name : String}

/-! ### The folder for configurations -/

/-- The folders that the surroundings name have names on the disk. -/
structure IsNamed (e : Environment) (folder : List LooseText) : Prop where
  home : ∀ part ∈ e.home.parts, part.IsName
  accounts : ∀ a ∈ e.accounts, ∀ part ∈ a.2.parts, part.IsName
  folder : ∀ part ∈ folder, part.IsName

/-- The folder in the home folder that may be there for configurations. -/
def sharedFolder (e : Environment) : Path := e.home.extend [.ofString ".config"]

theorem configFolder_standard (e : Environment) (d : Disk) : configFolder.standard e d =
    if (d.at? e.sharedFolder).isSome then e.sharedFolder.extend [.ofString "todoq"]
    else e.home.extend [.ofString ".todoq"] := by
  rw [configFolder.standard, Path.div_ofString _ (LooseText.isName_ofString (by decide)),
    Path.div_ofString _ (LooseText.isName_ofString (by decide)),
    Path.div_ofString _ (LooseText.isName_ofString (by decide))]
  rfl

/-- The folder for configurations is called after the program. -/
theorem exists_configFolder_eq (h : e.IsNamed d.folder) : ∃ (p : Path) (s : String),
    (s = "todoq" ∨ s = ".todoq") ∧ e.configFolder d = p.extend [.ofString s] ∧
      ∀ part ∈ p.parts, part.IsName := by
  have hstandard : ∃ (p : Path) (s : String), (s = "todoq" ∨ s = ".todoq") ∧
      configFolder.standard e d = p.extend [.ofString s] ∧ ∀ part ∈ p.parts, part.IsName := by
    have hshared : (LooseText.ofString ".config").IsName := LooseText.isName_ofString (by decide)
    rw [configFolder_standard]
    split
    · exact ⟨e.sharedFolder, "todoq", Or.inl rfl, rfl,
        List.forall_mem_append.2 ⟨h.home, List.forall_mem_singleton.2 hshared⟩⟩
    · exact ⟨e.home, ".todoq", Or.inr rfl, rfl, h.home⟩
  rw [configFolder]
  split
  · next x _ =>
    split
    · exact hstandard
    · refine ⟨.ofString x, "todoq", Or.inl rfl, ?_, fun part => Path.isName_of_mem_ofString⟩
      rw [Path.div_ofString _ (LooseText.isName_ofString (by decide))]
  · exact hstandard

theorem configPath_eq (e : Environment) (d : Disk) :
    e.configPath d = (e.configFolder d).extend [.ofString "config.json"] :=
  Path.div_ofString _ (LooseText.isName_ofString (by decide))

/-! ### The files of lists -/

/-- The names on the way from the root to the folder for configurations, when a home folder is put
in for it. -/
def stem (e : Environment) (d : Disk) : List LooseText :=
  match (e.configFolder d).expandHome? e.home e.accounts with
  | some p => Path.collapse (p.partsFrom d.folder)
  | none => []

/-- The last two names on the way to the file of a list. -/
def fileNames (name : String) : List LooseText := ["lists", .ofString (name ++ ".json")]

/-- The file of a list that is registered by its name alone. -/
def ownFile (e : Environment) (d : Disk) (name : String) : Path :=
  ⟨.root, e.stem d ++ fileNames name⟩

theorem isName_fileNames (h : IsPlainName name) : ∀ part ∈ fileNames name, part.IsName := by
  have hlists : (LooseText.ofString "lists").IsName :=
    LooseText.isName_ofString (by decide)
  exact List.forall_mem_cons.2 ⟨hlists, List.forall_mem_singleton.2 h.isName⟩

theorem normalize_fileNames (name : String) :
    (fileNames name).map DiskName.normalize = fileNames name := by
  simp [fileNames, DiskName.normalize_ofString]

theorem up_not_mem_fileNames (name : String) : Path.up ∉ fileNames name := by
  intro hmem
  rcases List.mem_cons.1 hmem with heq | hmem
  · cases heq
  · have heq := LooseText.ofString_inj.1 (List.mem_singleton.1 hmem)
    have hlength := congrArg (fun s : String => s.toList.length) heq
    simp at hlength

theorem isName_stem (h : e.IsNamed d.folder) :
    ∀ part ∈ e.stem d, part.IsName ∧ part ≠ Path.up := by
  intro part hpart
  obtain ⟨p, s, hs, heq, hp⟩ := exists_configFolder_eq h
  have hfolder : ∀ part ∈ (e.configFolder d).parts, part.IsName := by
    rw [heq]
    refine List.forall_mem_append.2 ⟨hp, List.forall_mem_singleton.2 ?_⟩
    rcases hs with rfl | rfl <;> exact LooseText.isName_ofString (by decide)
  rw [stem] at hpart
  split at hpart
  · next q hq =>
    obtain ⟨hmem, hup⟩ := Path.mem_collapse hpart
    have hparts := Path.isName_expandHome? hfolder h.home h.accounts hq
    refine ⟨?_, hup⟩
    rw [Path.partsFrom] at hmem
    split at hmem
    · exact (List.mem_append.1 hmem).elim (h.folder part) (hparts part)
    · exact hparts part hmem
  · cases hpart

theorem newListPath_eq (h : IsPlainName name) : CommandLine.newListPath e d name none =
    (e.configFolder d).extend (fileNames name) := by
  have hlists : (LooseText.ofString "lists").IsName :=
    LooseText.isName_ofString (by decide)
  show e.listsFolder d / Path.ofString (name ++ ".json") = _
  rw [listsFolder, Path.div_ofString _ hlists, Path.div_ofString _ h.isName, Path.extend_extend]
  rfl

theorem eq_ownFile (hnamed : e.IsNamed d.folder) (h : IsPlainName name) {full : Path}
    (hfull : CommandLine.fullPath e d (CommandLine.newListPath e d name none) = .ok full) :
    full = e.ownFile d name := by
  obtain ⟨p, s, hs, heq, -⟩ := exists_configFolder_eq hnamed
  have hne : (e.configFolder d).parts ≠ [] := by
    rw [heq]
    simp [Path.extend]
  rw [newListPath_eq h, CommandLine.fullPath, Path.expandHome?_extend hne] at hfull
  rw [ownFile, stem]
  cases hexpand : (e.configFolder d).expandHome? e.home e.accounts with
  | none =>
    rw [hexpand] at hfull
    cases hfull
  | some q =>
    rw [hexpand] at hfull
    simp only [Option.map_some] at hfull
    split at hfull
    · cases hfull
    · cases hfull
      rw [Path.resolve, Path.partsFrom_extend, Path.collapse_append _ (up_not_mem_fileNames name)]

/-! ### Where the files are -/

section

variable (hnamed : e.IsNamed d.folder) {m n : String}

include hnamed

theorem isStraight_ownFile : (e.ownFile d n).IsStraight where
  start := nofun
  up hmem := (List.mem_append.1 hmem).elim (fun hmem => (isName_stem hnamed _ hmem).2 rfl)
    (up_not_mem_fileNames n)

theorem isName_ownFile (hn : IsPlainName n) : ∀ part ∈ (e.ownFile d n).parts, part.IsName :=
  List.forall_mem_append.2 ⟨fun part hpart => (isName_stem hnamed part hpart).1, isName_fileNames hn⟩

/-- The text that is kept for the file leads to it. -/
theorem ofText_toText_ownFile (hn : IsPlainName n) :
    Path.ofText (e.ownFile d n).toText = e.ownFile d n :=
  Path.ofText_toText (isName_ownFile hnamed hn)

theorem placeOf_ownFile (d' : Disk) : d'.placeOf (e.ownFile d n) =
    (e.stem d).map DiskName.normalize ++ fileNames n := by
  rw [(isStraight_ownFile hnamed).placeOf, ownFile, List.map_append, normalize_fileNames]

/-- Neither the file of one list nor a folder on the way to it is the file of another. -/
theorem placeOf_ownFile_ne (hne : m ≠ n) (d' : Disk) (k : Nat) :
    d'.placeOf (e.ownFile d m) ≠ d'.placeOf ((e.ownFile d n).upTo k) := by
  have hlast : LooseText.ofString (m ++ ".json") ≠ .ofString (n ++ ".json") := fun heq =>
    hne ((String.append_left_inj _).1 (LooseText.ofString_inj.1 heq))
  have hassoc : ∀ name, (e.stem d).map DiskName.normalize ++ fileNames name =
      ((e.stem d).map DiskName.normalize ++ [LooseText.ofString "lists"]) ++
        [LooseText.ofString (name ++ ".json")] := by
    intro name
    rw [List.append_assoc]
    rfl
  rw [placeOf_ownFile hnamed, ((isStraight_ownFile hnamed).upTo k).placeOf, Path.upTo,
    List.map_take, ownFile, List.map_append, normalize_fileNames, hassoc, hassoc]
  exact Path.concat_ne_take hlast k

/-- The file of a list is not the configuration: the two are in folders of different names. -/
theorem placeOf_ownFile_ne_config (d' d'' : Disk) :
    d'.placeOf (e.ownFile d n) ≠ d''.placeOf (e.configPath d) := by
  obtain ⟨p, s, hs, heq, -⟩ := exists_configFolder_eq hnamed
  have hplace : d''.placeOf (e.configPath d) =
      d''.placeOf p ++ [LooseText.ofString s, LooseText.ofString "config.json"] := by
    have hnames : [LooseText.ofString s, LooseText.ofString "config.json"].map DiskName.normalize =
        [LooseText.ofString s, LooseText.ofString "config.json"] := by
      simp [DiskName.normalize_ofString]
    rw [configPath_eq, heq, Path.extend_extend, List.singleton_append, Disk.placeOf_extend, hnames]
    rw [hnames]
    rcases hs with rfl | rfl <;> decide
  rw [placeOf_ownFile hnamed, hplace]
  intro h
  have hfolder := (List.cons.inj (List.append_inj' h rfl).2).1
  rcases hs with rfl | rfl
  · cases hfolder
  · cases hfolder

end

end Environment

end TodoLists
