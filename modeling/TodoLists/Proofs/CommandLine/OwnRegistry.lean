import TodoLists.Proofs.CommandLine.Registry
import TodoLists.Proofs.CommandLine.Settled

/-!
# Registries of lists that have no path of their own

When every list was registered by its name alone, the registry holds these names, each one once, and
beside each the path of its own file. The commands on the registry keep it so.
-/

namespace TodoLists

namespace Config

variable {e : Environment} {d : Disk} {names : List String} {c c' : Config} {n : String}

/-- The registry holds these names and their own files, and all else is as the program makes it. -/
structure HasOwnFiles (e : Environment) (d : Disk) (names : List String) (c : Config) : Prop where
  lists : c.lists = names.map fun n => (.str n, .str (e.ownFile d n).toText)
  distinct : names.Nodup
  plain : ∀ n ∈ names, IsPlainName n
  current : c.current = .null ∨ ∃ n : String, c.current = .str n
  options : c.options = .default

theorem hasOwnFiles_default (e : Environment) (d : Disk) : default.HasOwnFiles e d [] :=
  ⟨rfl, List.nodup_nil, nofun, Or.inl rfl, rfl⟩

namespace HasOwnFiles

variable (h : c.HasOwnFiles e d names)

include h

theorem isTextual (hnamed : e.IsNamed d.folder) : c.IsTextual where
  lists l hl := by
    rw [h.lists] at hl
    obtain ⟨n, hn, rfl⟩ := List.mem_map.1 hl
    exact ⟨_, _, rfl, LooseText.isJoined_ofString n,
      Path.isJoined_toText (Environment.isName_ownFile hnamed (h.plain n hn))⟩
  distinct := by
    have hnames : c.lists.map (fun l => l.1.keyText) = names.map LooseText.ofString := by
      rw [h.lists, List.map_map]
      rfl
    rw [hnames]
    exact h.distinct.map fun _ _ => LooseText.ofString_inj.1
  current := h.current.imp_right fun ⟨n, hn⟩ => ⟨n, hn, LooseText.isJoined_ofString n⟩
  options := h.options

/-! ### Looking up -/

theorem pathOf? (t : LooseText) : c.pathOf? (.str t) =
    (names.find? fun n => LooseText.ofString n == t).map fun n => .str (e.ownFile d n).toText := by
  rw [Config.pathOf?, h.lists, List.find?_map, Option.map_map]
  rfl

theorem isRegistered_iff : c.isRegistered n = true ↔ n ∈ names := by
  rw [isRegistered, h.pathOf?, Option.isSome_map, List.find?_isSome]
  simp [LooseText.ofString_inj]

/-- A name that is found is one of the names, and what is found is its own file. -/
theorem findPath_eq_ok (hnamed : e.IsNamed d.folder) {t : LooseText} {p : Path}
    (hp : c.findPath (.str t) = .ok p) :
    ∃ n ∈ names, t = .ofString n ∧ p = e.ownFile d n := by
  have hscalar : (Json.str t).isScalar = true := rfl
  rw [findPath, if_pos hscalar, h.pathOf?] at hp
  cases hfind : names.find? fun n => LooseText.ofString n == t with
  | none =>
    rw [hfind] at hp
    cases hp
  | some n =>
    rw [hfind] at hp
    have hn : n ∈ names := List.mem_of_find?_eq_some hfind
    have ht : LooseText.ofString n = t := by simpa using List.find?_some hfind
    have hread := Environment.ofText_toText_ownFile hnamed (h.plain n hn)
    exact ⟨n, hn, ht.symm, (Except.ok.inj hp).symm.trans hread⟩

theorem resolve_eq_ok (hnamed : e.IsNamed d.folder) {list : Option String} {name : Json} {p : Path}
    (hresolve : c.resolve list = .ok (name, p)) :
    ∃ n ∈ names, name = .str n ∧ p = e.ownFile d n := by
  have hcurrent : c.current = .null ∨ ∃ t, c.current = .str t :=
    h.current.imp_right fun ⟨n, hn⟩ => ⟨n, hn⟩
  obtain ⟨t, rfl⟩ := CommandLine.exists_text_of_resolve hcurrent hresolve
  obtain ⟨n, hn, rfl, hp⟩ := h.findPath_eq_ok hnamed (wanted_of_resolve hresolve).2.2
  exact ⟨n, hn, rfl, hp⟩

/-! ### The commands on the registry -/

theorem addList (hn : IsPlainName n) (hadd : c.addList n (e.ownFile d n) = .ok c') :
    c'.HasOwnFiles e d (names ++ [n]) := by
  rw [Config.addList] at hadd
  split at hadd
  · cases hadd
  · next hnew =>
    cases hadd
    have hnotMem : n ∉ names := fun hmem => hnew (h.isRegistered_iff.2 hmem)
    refine ⟨?_, ?_, ?_, ?_, h.options⟩
    · rw [h.lists, List.map_append]
      rfl
    · exact List.nodup_append.2 ⟨h.distinct, List.nodup_singleton n, by
        simpa using fun m hm (heq : m = n) => hnotMem (heq ▸ hm)⟩
    · exact List.forall_mem_append.2 ⟨h.plain, List.forall_mem_singleton.2 hn⟩
    · rcases h.current with hnull | ⟨m, hm⟩
      · exact Or.inr ⟨n, by rw [hnull]⟩
      · exact Or.inr ⟨m, by rw [hm]⟩

theorem removeList {p : Path} (hremove : c.removeList n = .ok (p, c')) :
    c'.HasOwnFiles e d (names.filter (· ≠ n)) := by
  obtain ⟨path, -, hremove⟩ := exists_of_bind_eq_ok hremove
  cases hremove
  refine ⟨?_, h.distinct.filter _, fun m hm => h.plain m (List.mem_of_mem_filter hm), ?_, h.options⟩
  · rw [h.lists, List.filter_map]
    refine congrArg (List.map _) (List.filter_congr fun m _ => ?_)
    simp [beq_eq_decide, LooseText.ofString_inj]
  · simp only
    split
    · exact Or.inl rfl
    · exact h.current

theorem useList {list : Option String} {current : Json} {p : Path}
    (hnamed : e.IsNamed d.folder) (hresolve : c.resolve list = .ok (current, p)) :
    ({ c with current := current } : Config).HasOwnFiles e d names := by
  obtain ⟨n, -, hcurrent, -⟩ := h.resolve_eq_ok hnamed hresolve
  exact ⟨h.lists, h.distinct, h.plain, Or.inr ⟨n, hcurrent⟩, h.options⟩

end HasOwnFiles

end Config

end TodoLists
