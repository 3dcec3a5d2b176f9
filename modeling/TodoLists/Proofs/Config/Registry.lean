import TodoLists.Config
import TodoLists.Proofs.Disk.Names
import Mathlib.Data.List.Nodup

/-!
# The registry stays consistent

Calls on the registry register a list, forget one, or choose the current one. However many of them
are made, with whatever names and paths, the current list is a registered one. So a name that is not
registered is not the current one either, and registering it and then forgetting it comes to
nothing.

A call that is refused gives no configuration, and the calls after it go on with the one before it.
-/

namespace TodoLists

namespace Config

/-- A call on the registry, with a path as it is spelled. -/
inductive Call where
  | add (name : String) (path : LooseText)
  | remove (name : String)
  | use (name : Option String)

/-- The configuration that a call makes. -/
def answer (c : Config) : Call → Except Fault Config
  | .add n path => c.addList n (.ofText path)
  | .remove n => (c.removeList n).map (·.2)
  | .use n => (c.resolve n).map fun r => { c with current := r.1 }

/-- The configuration behind a call. -/
def after (c : Config) (call : Call) : Config :=
  match c.answer call with
  | .ok c' => c'
  | .error _ => c

/-- The calls that are refused, with the reason. A list whose name is empty can be the current one,
but then nothing is selected. -/
inductive Refuses (c : Config) : Call → Fault → Prop where
  | taken {n : String} {path : LooseText} (h : c.isRegistered n = true) :
      c.Refuses (.add n path) (.listExists n)
  | unknown {n : String} (h : c.isRegistered n = false) : c.Refuses (.remove n) (.noSuchList n)
  | useless {n : String} (hn : n ≠ "") (h : c.isRegistered n = false) :
      c.Refuses (.use (some n)) (.noSuchList n)
  | nothing {n : Option String} (hn : n = none ∨ n = some "")
      (h : c.current = .null ∨ c.current = .str "") : c.Refuses (.use n) .noListSelected

/-- The registry holds these names and paths, no name twice, and the current list is one of them. -/
structure HasEntries (c : Config) (entries : List (String × LooseText)) : Prop where
  lists : c.lists = entries.map fun l => (.str l.1, .str l.2)
  distinct : (entries.map (·.1)).Nodup
  current : c.current = .null ∨ ∃ n ∈ entries.map (·.1), c.current = .str (.ofString n)

theorem hasEntries_default : default.HasEntries [] := ⟨rfl, List.nodup_nil, Or.inl rfl⟩

variable {c : Config} {entries : List (String × LooseText)} {n : String}

/-! ### Looking up -/

/-- A name that is not empty is looked up as it is. -/
theorem resolve_some (c : Config) (hn : n ≠ "") :
    c.resolve (some n) = (c.findPath (.str n)).map fun p => (.str n, p) := by
  have htruthy : (Json.str (LooseText.ofString n)).isTruthy = true := by
    have hchars : n.toList ≠ [] := by simpa using hn
    simpa [Json.isTruthy, LooseText.isEmpty, LooseText.ofString] using hchars
  have hwanted : c.wanted (some n) = .str n := if_neg hn
  rw [resolve, hwanted, if_pos htruthy]
  cases c.findPath (.str n) <;> rfl

theorem listPath_of_unregistered (h : c.isRegistered n = false) :
    c.listPath n = .error (.noSuchList n) := by
  have hnone : c.pathOf? (.str n) = none := by
    rw [isRegistered] at h
    simpa using h
  have hspell : spell (.str n) = n := LooseText.shown_ofString n
  have hscalar : (Json.str (LooseText.ofString n)).isScalar = true := rfl
  rw [listPath, findPath, if_pos hscalar, hnone]
  simp only [hspell]

theorem listPath_of_path {t : LooseText} (h : c.pathOf? (.str n) = some (.str t)) :
    c.listPath n = .ok (.ofText t) := by
  have hscalar : (Json.str (LooseText.ofString n)).isScalar = true := rfl
  rw [listPath, findPath, if_pos hscalar, h]

theorem resolve_of_unregistered (hn : n ≠ "") (h : c.isRegistered n = false) :
    c.resolve (some n) = .error (.noSuchList n) := by
  rw [resolve_some c hn, ← listPath, listPath_of_unregistered h]
  rfl

theorem resolve_of_path {t : LooseText} (hn : n ≠ "") (h : c.pathOf? (.str n) = some (.str t)) :
    c.resolve (some n) = .ok (.str n, .ofText t) := by
  rw [resolve_some c hn, ← listPath, listPath_of_path h]
  rfl

theorem resolve_congr {m n : Option String} (h : c.wanted m = c.wanted n) :
    c.resolve m = c.resolve n := by
  rw [resolve, resolve, h]

theorem wanted_of_none {asked : Option String} (h : asked = none ∨ asked = some "") :
    c.wanted asked = c.current := by
  rcases h with rfl | rfl <;> rfl

theorem answer_of_refuses {call : Call} {f : Fault} (h : c.Refuses call f) :
    c.answer call = .error f := by
  cases h with
  | taken h => exact if_pos h
  | unknown h =>
    rw [answer, removeList, listPath_of_unregistered h]
    rfl
  | useless hn h =>
    rw [answer, resolve_of_unregistered hn h]
    rfl
  | nothing hn h =>
    rw [answer, resolve, wanted_of_none hn]
    rcases h with h | h <;> rw [h] <;> rfl

theorem after_of_refuses {call : Call} {f : Fault} (h : c.Refuses call f) : c.after call = c := by
  rw [after, answer_of_refuses h]

namespace HasEntries

variable (h : c.HasEntries entries)

include h

theorem nodup_keyText : (c.lists.map fun l => l.1.keyText).Nodup := by
  have hkeys : c.lists.map (fun l => l.1.keyText) = (entries.map (·.1)).map LooseText.ofString := by
    rw [h.lists, List.map_map, List.map_map]
    rfl
  rw [hkeys]
  exact h.distinct.map fun _ _ => LooseText.ofString_inj.1

theorem pathOf? (n : String) : c.pathOf? (.str n) =
    (entries.find? fun l => l.1 == n).map fun l => .str l.2 := by
  have hsame : (fun l : Json × Json => l.1.sameKey (.str n)) ∘
      (fun l : String × LooseText => (Json.str l.1, Json.str l.2)) = fun l => l.1 == n := by
    funext l
    simp [beq_eq_decide, LooseText.ofString_inj]
  rw [Config.pathOf?, h.lists, List.find?_map, Option.map_map, hsame]
  rfl

theorem isRegistered_iff : c.isRegistered n = true ↔ n ∈ entries.map (·.1) := by
  rw [isRegistered, h.pathOf?, Option.isSome_map, List.find?_isSome]
  simp

theorem isRegistered_eq_false_iff : c.isRegistered n = false ↔ n ∉ entries.map (·.1) := by
  rw [← h.isRegistered_iff, Bool.not_eq_true]

theorem exists_pathOf? (hn : n ∈ entries.map (·.1)) : ∃ t, c.pathOf? (.str n) = some (.str t) := by
  obtain ⟨l, hl, rfl⟩ := List.mem_map.1 hn
  rw [h.pathOf?]
  cases hfind : entries.find? fun l' => l'.1 == l.1 with
  | none => exact absurd (beq_self_eq_true _) (List.find?_eq_none.1 hfind l hl)
  | some l' => exact ⟨l'.2, rfl⟩

/-! ### One call -/

/-- A list that is registered can be made the current one, unless its name is empty. -/
theorem answer_use {asked : Option String} (hwanted : c.wanted asked = c.wanted (some n))
    (hempty : n ≠ "") (hn : n ∈ entries.map (·.1)) :
    ∃ c', c.answer (.use asked) = .ok c' ∧ c'.HasEntries entries := by
  obtain ⟨t, ht⟩ := h.exists_pathOf? hn
  refine ⟨{ c with current := .str n }, ?_, h.lists, h.distinct, Or.inr ⟨n, hn, rfl⟩⟩
  rw [answer, resolve_congr hwanted, resolve_of_path hempty ht]
  rfl

theorem addList (path : Path) (hn : n ∉ entries.map (·.1)) :
    ∃ c', c.addList n path = .ok c' ∧ c'.HasEntries (entries ++ [(n, path.toText)]) := by
  have hnew : ¬ c.isRegistered n = true := mt h.isRegistered_iff.1 hn
  refine ⟨_, if_neg hnew, ?_, ?_, ?_⟩
  · rw [h.lists, List.map_append]
    rfl
  · rw [List.map_append, List.map_singleton, ← List.concat_eq_append]
    exact h.distinct.concat hn
  · rw [List.map_append]
    rcases h.current with hnull | ⟨m, hm, hcurrent⟩
    · exact Or.inr ⟨n, List.mem_append_right _ List.mem_cons_self, by rw [hnull]⟩
    · exact Or.inr ⟨m, List.mem_append_left _ hm, by rw [hcurrent]⟩

theorem removeList (hn : n ∈ entries.map (·.1)) :
    ∃ p c', c.removeList n = .ok (p, c') ∧ c'.HasEntries (entries.filter (·.1 != n)) := by
  obtain ⟨t, ht⟩ := h.exists_pathOf? hn
  refine ⟨_, _, by rw [Config.removeList, listPath_of_path ht]; rfl, ?_, ?_, ?_⟩
  · rw [h.lists, List.filter_map]
    refine congrArg (List.map _) (List.filter_congr fun l _ => ?_)
    simp [beq_eq_decide, bne, LooseText.ofString_inj]
  · exact h.distinct.sublist (List.filter_sublist.map _)
  · simp only
    split
    · exact Or.inl rfl
    · next hother =>
      refine h.current.imp_right fun ⟨m, hm, hcurrent⟩ => ⟨m, ?_, hcurrent⟩
      obtain ⟨l, hl, rfl⟩ := List.mem_map.1 hm
      refine List.mem_map_of_mem (List.mem_filter.2 ⟨hl, ?_⟩)
      rw [hcurrent, Json.sameKey_str, beq_iff_eq, LooseText.ofString_inj] at hother
      exact bne_iff_ne.2 hother

/-- A call is refused, or else the registry is consistent after it. -/
theorem step (call : Call) : (∃ f, c.Refuses call f) ∨
    ∃ c' entries', c.answer call = .ok c' ∧ c'.HasEntries entries' := by
  cases call with
  | add n path =>
    by_cases hn : n ∈ entries.map (·.1)
    · exact Or.inl ⟨_, .taken (h.isRegistered_iff.2 hn)⟩
    · obtain ⟨c', hc', hentries⟩ := h.addList (.ofText path) hn
      exact Or.inr ⟨c', _, hc', hentries⟩
  | remove n =>
    by_cases hn : n ∈ entries.map (·.1)
    · obtain ⟨p, c', hc', hentries⟩ := h.removeList hn
      refine Or.inr ⟨c', _, ?_, hentries⟩
      rw [answer, hc']
      rfl
    · exact Or.inl ⟨_, .unknown (h.isRegistered_eq_false_iff.2 hn)⟩
  | use asked =>
    by_cases hasked : asked = none ∨ asked = some ""
    · rcases h.current with hnull | ⟨n, hn, hcurrent⟩
      · exact Or.inl ⟨_, .nothing hasked (Or.inl hnull)⟩
      · by_cases hempty : n = ""
        · exact Or.inl ⟨_, .nothing hasked (Or.inr (hempty ▸ hcurrent))⟩
        · have hwanted : c.wanted asked = c.wanted (some n) := by
            rw [wanted_of_none hasked, hcurrent]
            exact (if_neg hempty).symm
          obtain ⟨c', hc', hentries⟩ := h.answer_use hwanted hempty hn
          exact Or.inr ⟨c', _, hc', hentries⟩
    · rw [not_or] at hasked
      obtain ⟨n, rfl⟩ := Option.ne_none_iff_exists'.1 hasked.1
      have hempty : n ≠ "" := fun heq => hasked.2 (congrArg some heq)
      by_cases hn : n ∈ entries.map (·.1)
      · obtain ⟨c', hc', hentries⟩ := h.answer_use rfl hempty hn
        exact Or.inr ⟨c', _, hc', hentries⟩
      · exact Or.inl ⟨_, .useless hempty (h.isRegistered_eq_false_iff.2 hn)⟩

theorem answer_eq_error_iff {call : Call} {f : Fault} :
    c.answer call = .error f ↔ c.Refuses call f := by
  refine ⟨fun hf => ?_, answer_of_refuses⟩
  rcases h.step call with ⟨f', hrefuses⟩ | ⟨c', -, hc', -⟩
  · cases (answer_of_refuses hrefuses).symm.trans hf
    exact hrefuses
  · cases hc'.symm.trans hf

theorem after (call : Call) : ∃ entries', (c.after call).HasEntries entries' := by
  rcases h.step call with ⟨f, hrefuses⟩ | ⟨c', entries', hc', hentries⟩
  · rw [after_of_refuses hrefuses]
    exact ⟨entries, h⟩
  · rw [Config.after, hc']
    exact ⟨entries', hentries⟩

/-! ### Many calls -/

theorem foldl_after (calls : List Call) :
    ∃ entries', (calls.foldl Config.after c).HasEntries entries' := by
  induction calls generalizing c entries with
  | nil => exact ⟨entries, h⟩
  | cons call calls ih =>
    obtain ⟨entries', hentries⟩ := h.after call
    exact ih hentries

/-! ### A list that comes and goes -/

theorem filter_append_eq_lists (hn : n ∉ entries.map (·.1)) (v : Json) :
    (c.lists ++ [(Json.str n, v)]).filter (fun l => !l.1.sameKey (.str n)) = c.lists := by
  have hothers : ∀ l ∈ c.lists, (!l.1.sameKey (.str n)) = true := by
    intro l hl
    rw [h.lists] at hl
    obtain ⟨entry, hentry, rfl⟩ := List.mem_map.1 hl
    have hne : entry.1 ≠ n := fun heq => hn (heq ▸ List.mem_map_of_mem hentry)
    simpa [LooseText.ofString_inj] using hne
  have hself : [(Json.str n, v)].filter (fun l => !l.1.sameKey (.str n)) = [] := by simp
  rw [List.filter_append, List.filter_eq_self.2 hothers, hself, List.append_nil]

theorem current_added (hn : n ∉ entries.map (·.1)) :
    let added : Json := match c.current with | .null => .str n | v => v
    (if added.sameKey (.str n) then .null else added) = c.current := by
  intro added
  rcases h.current with hnull | ⟨m, hm, hcurrent⟩
  · have hadded : added = .str n := by simp only [added, hnull]
    rw [hadded, hnull]
    simp
  · have hadded : added = .str m := by simp only [added, hcurrent]
    have hne : m ≠ n := fun heq => hn (heq ▸ hm)
    rw [hadded, hcurrent]
    simp [LooseText.ofString_inj, hne]

/-- Registering a list and forgetting it again comes to nothing, for it has not been the current
list. -/
theorem removeList_addList (hn : c.isRegistered n = false) (path : LooseText) :
    ∃ c', c.addList n (.ofText path) = .ok c' ∧ c'.removeList n = .ok (.ofText path, c) := by
  have hnames := h.isRegistered_eq_false_iff.1 hn
  obtain ⟨c', hadd, h'⟩ := h.addList (.ofText path) hnames
  refine ⟨c', hadd, ?_⟩
  have hfind : c'.pathOf? (.str n) = some (.str (Path.ofText path).toText) := by
    have hnone : entries.find? (fun l => l.1 == n) = none := by
      rw [List.find?_eq_none]
      exact fun l hl heq => hnames (beq_iff_eq.1 heq ▸ List.mem_map_of_mem hl)
    rw [h'.pathOf?, List.find?_append, hnone]
    simp
  rw [Config.removeList, listPath_of_path hfind, Path.ofText_toText_ofText]
  rw [Config.addList, hn] at hadd
  cases hadd
  show Except.ok (_, Config.mk _ _ _) = _
  rw [h.filter_append_eq_lists hnames]
  exact congrArg (fun v => Except.ok (_, Config.mk c.lists v c.options)) (h.current_added hnames)

end HasEntries

/-- After any calls no name is there twice and the current list is a registered one, what is refused
changes nothing, and a new list that is forgotten again has left no trace. -/
theorem registry_stays_consistent (calls : List Call) :
    let c := calls.foldl after default
    (c.lists.map fun l => l.1.keyText).Nodup ∧
    (c.current = .null ∨ ∃ n : String, c.current = .str n ∧ c.isRegistered n = true) ∧
    (∀ call f, c.answer call = .error f ↔ c.Refuses call f) ∧
    (∀ call f, c.Refuses call f → c.after call = c) ∧
    ∀ n path, c.isRegistered n = false →
      ∃ c', c.answer (.add n path) = .ok c' ∧ c'.removeList n = .ok (.ofText path, c) := by
  intro c
  obtain ⟨entries, h⟩ : ∃ entries, c.HasEntries entries := hasEntries_default.foldl_after calls
  exact ⟨h.nodup_keyText,
    h.current.imp_right fun ⟨n, hn, hcurrent⟩ => ⟨n, hcurrent, h.isRegistered_iff.2 hn⟩,
    fun _ _ => h.answer_eq_error_iff, fun _ _ => after_of_refuses,
    fun n path hn => h.removeList_addList hn path⟩

/-- A name that is taken, one that is unknown, and the empty name, which is registered but asks for
the current list. -/
def errandCalls : List Call :=
  [.add "home" "/l//a.json", .add "home" "b", .use (some "work"), .add "" ".", .use (some "")]

theorem registry_stays_consistent_errands :
    let c := errandCalls.foldl after default
    (c.current = .str "home" ∧ c.isRegistered "work" = false) ∧
    (c.answer (.use (some "work")) = .error (.noSuchList "work") ∧
      c.after (.use (some "work")) = c) ∧
    ∃ c', c.answer (.add "work" "./w//x/") = .ok c' ∧
      c'.removeList "work" = .ok (⟨.here, ["w", "x"]⟩, c) := by
  intro c
  have hwork : c.isRegistered "work" = false := by decide
  have hrefuses : c.Refuses (.use (some "work")) (.noSuchList "work") := .useless (by decide) hwork
  obtain ⟨-, -, hrefused, hunchanged, hrestored⟩ := registry_stays_consistent errandCalls
  exact ⟨⟨rfl, hwork⟩, ⟨(hrefused _ _).2 hrefuses, hunchanged _ _ hrefuses⟩,
    hrestored "work" "./w//x/" hwork⟩

end Config

end TodoLists
