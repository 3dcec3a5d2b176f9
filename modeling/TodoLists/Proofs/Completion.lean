import TodoLists.Completion
import TodoLists.Proofs.Fault
import TodoLists.Proofs.Item.Tags
import TodoLists.Proofs.Text.Words
import TodoLists.Shell.Command

/-!
# What completion offers and replaces

Behind the first word, each tag of the list is offered for every beginning of it. A choice is put in
place of as many characters as the word that is completed has, and it begins with that word. So it
keeps everything that was typed exactly when the word is what the text ends with. Words end at every
blank, but only a space is taken as the sign that a word has ended: behind a word and a tab, say,
the word is still completed, and it is the tab and the end of the word that are replaced.
-/

namespace TodoLists.Completion

variable {commands : List String} {l : ItemList} {s : List Char} {cs : List Choice} {c : Choice}

/-- The text after a choice has been put in place of the characters that it replaces. -/
def Choice.accept (c : Choice) (s : List Char) : List Char :=
  s.take (s.length - c.replaced) ++ c.text.toList

/-- The text has a word, and it ends in a blank that is no space. -/
def hidesWordEnd (s : List Char) : Bool :=
  !Text.allBlank s && s.getLast?.any fun x => Text.isBlank x && x != ' '

theorem hidesWordEnd_eq_false_iff : hidesWordEnd s = false ↔
    Text.allBlank s = true ∨ ∀ x ∈ s.getLast?, Text.isBlank x = true → x = ' ' := by
  cases hlast : s.getLast? <;> cases hblank : Text.allBlank s <;>
    simp [hidesWordEnd, hlast, hblank]

theorem choices_eq_ok (h : choices commands l s = .ok cs) : ∃ found,
    candidates commands l s = .ok found ∧
    cs = (found.filter fun t => (partialWord s).isPrefixOf t.toList).map
      fun t => ⟨t, (partialWord s).length⟩ := by
  obtain ⟨found, hfound, h⟩ := exists_of_bind_eq_ok h
  exact ⟨found, hfound, (Except.ok.inj h).symm⟩

theorem mem_choices (h : choices commands l s = .ok cs) :
    c ∈ cs ↔ ∃ found, candidates commands l s = .ok found ∧ c.text ∈ found ∧
      partialWord s <+: c.text.toList ∧ c.replaced = (partialWord s).length := by
  obtain ⟨found, hfound, rfl⟩ := choices_eq_ok h
  simp only [hfound, List.mem_map, List.mem_filter, List.isPrefixOf_iff_prefix, Except.ok.injEq]
  constructor
  · rintro ⟨t, ⟨ht, hword⟩, rfl⟩
    exact ⟨found, rfl, ht, hword, rfl⟩
  · rintro ⟨_, rfl, ht, hword, hreplaced⟩
    exact ⟨c.text, ⟨ht, hword⟩, by rw [← hreplaced]⟩

/-! ### The word that is completed -/

theorem partialWord_eq (hspace : endsWithSpace s = false) :
    partialWord s = (Text.words s).getLast?.getD [] := by
  rw [partialWord, if_neg (by simp [hspace])]

theorem partialWord_isInfix (s : List Char) : partialWord s <:+: s := by
  rw [partialWord]
  split
  · exact List.nil_infix
  · cases hlast : (Text.words s).getLast? with
    | none => exact List.nil_infix
    | some w => exact (Text.isRun_of_mem_words (List.mem_of_getLast? hlast)).2

theorem getLast?_of_endsWithSpace (h : endsWithSpace s = true) : s.getLast? = some ' ' := by
  simpa [endsWithSpace] using h

/-- The text ends with the word that is completed, unless the end of the word goes unnoticed. -/
theorem partialWord_suffix_iff : partialWord s <:+ s ↔ hidesWordEnd s = false := by
  cases hspace : endsWithSpace s with
  | true =>
    have hlast := getLast?_of_endsWithSpace hspace
    simp [partialWord, hspace, hidesWordEnd, hlast]
  | false =>
    rw [partialWord_eq hspace]
    cases hwords : (Text.words s).getLast? with
    | none =>
      have hblank := Text.words_eq_nil_iff.1 (List.getLast?_eq_none_iff.1 hwords)
      simp [hidesWordEnd, hblank]
    | some w =>
      have hblank : Text.allBlank s = false := by
        rw [← Bool.not_eq_true, ← Text.words_eq_nil_iff]
        exact List.ne_nil_of_mem (List.mem_of_getLast? hwords)
      rw [Option.getD_some, Text.getLast?_words_suffix_iff hwords, hidesWordEnd_eq_false_iff,
        hblank]
      constructor
      · exact fun hplain => Or.inr fun x hx hxblank => absurd hxblank (by simp [hplain x hx])
      · intro hseen x hx
        by_contra hxblank
        have hxspace := hseen.resolve_left (by simp) x hx (by simpa using hxblank)
        rw [endsWithSpace, Option.mem_def.1 hx, hxspace] at hspace
        exact absurd hspace (by decide)

/-! ### Tags of the list -/

theorem mem_texts_foldl_entries {e : ItemId × Item} {t : String} (ht : e.2.hasTag t = true)
    {es : List (ItemId × Item)} {tags : Tags} (h : t ∈ tags.texts ∨ e ∈ es) :
    t ∈ (es.foldl (fun tags e =>
      (e.2.tags.textValues ++ e.2.tags.others).foldl Tags.add tags) tags).texts := by
  induction es generalizing tags with
  | nil => exact h.resolve_right List.not_mem_nil
  | cons e' es ih =>
    rw [List.foldl_cons]
    refine ih ?_
    rw [Tags.mem_texts_foldl_add]
    rcases h with h | h
    · exact Or.inl (Or.inl h)
    · rcases List.mem_cons.1 h with rfl | h
      · have hvalue : Json.str t ∈ e.2.tags.textValues :=
          List.mem_map.2 ⟨t, of_decide_eq_true ht, rfl⟩
        have hstring : (Json.str t).string? = some t := LooseText.toString?_ofString t
        exact Or.inl (Or.inr ⟨.str t, List.mem_append_left _ hvalue, hstring⟩)
      · exact Or.inr h

/-- Every tag of an item is among the tags of the list. -/
theorem str_mem_of_allTags {ts : List Json} (h : allTags l = .ok ts) {e : ItemId × Item}
    (he : e ∈ l.entries) {t : String} (ht : e.2.hasTag t = true) : Json.str t ∈ ts := by
  rw [allTags, Display.tagsInOrder] at h
  split at h
  · next vs hvs =>
    cases h
    rw [(Tags.perm_of_inOrder? hvs).mem_iff]
    refine List.mem_append_left _ (List.mem_map.2 ⟨t, ?_, rfl⟩)
    exact mem_texts_foldl_entries ht (Or.inr he)
  · cases h

theorem areTexts_foldl_entries {es : List (ItemId × Item)} (h : ∀ e ∈ es, e.2.tags.AreTexts)
    {tags : Tags} (htags : tags.AreTexts) : (es.foldl (fun tags e =>
      (e.2.tags.textValues ++ e.2.tags.others).foldl Tags.add tags) tags).AreTexts := by
  induction es generalizing tags with
  | nil => exact htags
  | cons e es ih =>
    obtain ⟨he, hes⟩ := List.forall_mem_cons.1 h
    exact ih hes (htags.foldl_add fun _ hv => he.of_mem hv)

/-- Where all tags are texts there is nothing that completion could fail of. -/
theorem exists_choices (h : ∀ e ∈ l.entries, e.2.tags.AreTexts) (commands : List String)
    (s : List Char) : ∃ cs, choices commands l s = .ok cs := by
  have hempty : Tags.empty.AreTexts := Tags.areTexts_of_others rfl
  obtain ⟨ts, hts, -⟩ := (areTexts_foldl_entries h hempty).exists_inOrder
  have hall : allTags l = .ok ts := by rw [allTags, Display.tagsInOrder, hts]
  obtain ⟨found, hfound⟩ : ∃ found, candidates commands l s = .ok found := by
    rw [candidates, hall]
    split
    · exact ⟨_, rfl⟩
    · split <;> exact ⟨_, rfl⟩
  exact ⟨_, by rw [choices, hfound]; rfl⟩

/-- A tag of the list is offered when a beginning of it is typed behind the first word. -/
theorem mem_choices_of_hasTag (h : choices commands l s = .ok cs) {e : ItemId × Item}
    (he : e ∈ l.entries) {t : String} (ht : e.2.hasTag t = true) {p : List Char}
    (hword : partialWord s = '#' :: p) (hlater : 2 ≤ (Text.words s).length)
    (hp : p <+: t.toList) : ⟨"#" ++ t, p.length + 1⟩ ∈ cs := by
  have hshown : Config.spell (.str t) = t := LooseText.shown_ofString t
  have htext : ("#" ++ t).toList = '#' :: t.toList := by
    rw [String.toList_append]
    rfl
  obtain ⟨found, hfound, -⟩ := choices_eq_ok h
  refine (mem_choices h).2 ⟨found, hfound, ?_, ?_, ?_⟩
  · rw [candidates, if_neg (by omega), hword] at hfound
    obtain ⟨ts, hts, rfl⟩ := exists_of_map_eq_ok hfound
    exact List.mem_map.2 ⟨.str t, str_mem_of_allTags hts he ht, by rw [hshown]⟩
  · rw [hword, htext, List.cons_prefix_cons]
    exact ⟨rfl, hp⟩
  · rw [hword, List.length_cons]

/-! ### Accepting a choice -/

/-- What a choice replaces is as long as the word that it begins with. -/
theorem drop_prefix_iff (hword : partialWord s <+: c.text.toList)
    (hreplaced : c.replaced = (partialWord s).length) :
    s.drop (s.length - c.replaced) <+: c.text.toList ↔ partialWord s <:+ s := by
  rw [List.suffix_iff_eq_drop, hreplaced]
  have hlength := (partialWord_isInfix s).length_le
  constructor
  · intro h
    refine List.IsPrefix.eq_of_length ?_ ?_
    · exact List.prefix_of_prefix_length_le hword h (by simp; omega)
    · simp; omega
  · intro h
    rwa [← h]

/-- Accepting a choice keeps what stands before the replaced characters. -/
theorem prefix_accept_iff :
    s <+: c.accept s ↔ s.drop (s.length - c.replaced) <+: c.text.toList := by
  calc s <+: c.accept s
      ↔ s.take (s.length - c.replaced) ++ s.drop (s.length - c.replaced) <+:
          s.take (s.length - c.replaced) ++ c.text.toList := by
        rw [List.take_append_drop, Choice.accept]
    _ ↔ s.drop (s.length - c.replaced) <+: c.text.toList := List.prefix_append_right_inj _

/-- A choice replaces characters that are there, and it begins with what it replaces, so that
nothing that was typed is lost, exactly when the end of the last word does not go unnoticed. -/
theorem choice_extends (h : choices commands l s = .ok cs) (hc : c ∈ cs) :
    c.replaced ≤ s.length ∧
    (s.drop (s.length - c.replaced) <+: c.text.toList ↔ hidesWordEnd s = false) ∧
    (s <+: c.accept s ↔ hidesWordEnd s = false) := by
  obtain ⟨_, -, -, hword, hreplaced⟩ := (mem_choices h).1 hc
  have hextends := (drop_prefix_iff hword hreplaced).trans partialWord_suffix_iff
  refine ⟨?_, hextends, prefix_accept_iff.trans hextends⟩
  rw [hreplaced]
  exact (partialWord_isInfix s).length_le

theorem choice_extends_status :
    choices (Shell.Command.words.map (·.1)) .empty "ls %wo".toList = .ok [⟨"%working", 3⟩] ∧
    3 ≤ "ls %wo".toList.length ∧
    ("ls %wo".toList.drop 3 <+: "%working".toList ↔ hidesWordEnd "ls %wo".toList = false) ∧
    ("ls %wo".toList <+: (⟨"%working", 3⟩ : Choice).accept "ls %wo".toList ↔
      hidesWordEnd "ls %wo".toList = false) := by
  have hchoices : choices (Shell.Command.words.map (·.1)) .empty "ls %wo".toList =
      .ok [⟨"%working", 3⟩] := by decide +kernel
  exact ⟨hchoices, choice_extends hchoices List.mem_cons_self⟩

/-- Behind a word and a tab, the tab and the end of the word are replaced. -/
theorem choices_overwrite_tab :
    choices (Shell.Command.words.map (·.1)) .empty "ls %w\t".toList =
      .ok [⟨"%waiting", 2⟩, ⟨"%working", 2⟩] ∧
    (⟨"%waiting", 2⟩ : Choice).accept "ls %w\t".toList = "ls %%waiting".toList ∧
    ¬ "ls %w\t".toList.drop 4 <+: "%waiting".toList := by
  decide +kernel

end TodoLists.Completion
