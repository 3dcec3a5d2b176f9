import TodoLists.Item.Tags
import TodoLists.Proofs.Json.Order
import TodoLists.Proofs.Json.Texts
import Mathlib.Data.List.Perm.Subperm

/-!
# Tags as texts

The tags of an item that has only texts for tags can be put in order, and the tags that are made of
them in that order are the same as before. Texts with lone surrogates stand beside the others in the
order in which they were met, so they may come in another order; comparing tags disregards it.
-/

namespace TodoLists

/-- Two sets of texts with the same members are equal. -/
theorem TextSet.ext {a b : TextSet} (h : ∀ t, t ∈ a ↔ t ∈ b) : a = b := by
  have hnodup : ∀ s : TextSet, s.toList.Nodup := by
    refine fun s => s.sorted.imp fun hlt => ?_
    rintro rfl
    exact String.lt_irrefl _ hlt
  have hlist : a.toList = b.toList :=
    List.Perm.eq_of_pairwise (fun _ _ _ _ hlt hgt => absurd hgt (String.lt_asymm hlt)) a.sorted
      b.sorted ((List.perm_ext_iff_of_nodup (hnodup a) (hnodup b)).2 h)
  cases a
  cases b
  simpa using hlist

namespace Tags

/-- The tags are texts; those with lone surrogates are kept beside the rest, each once. -/
structure AreTexts (tags : Tags) : Prop where
  loose : ∀ v ∈ tags.others, ∃ t : LooseText, v = .str t ∧ t.IsJoined ∧ t.toString? = none
  distinct : tags.others.Nodup

/-- The same tags, in whatever order the texts with lone surrogates were met. -/
structure Same (a b : Tags) : Prop where
  texts : a.texts = b.texts
  others : a.others.Perm b.others

theorem Same.refl (tags : Tags) : tags.Same tags := ⟨rfl, .refl _⟩

theorem Same.areTexts {a b : Tags} (h : a.Same b) (ha : a.AreTexts) : b.AreTexts :=
  ⟨fun v hv => ha.loose v (h.others.mem_iff.2 hv), h.others.nodup_iff.1 ha.distinct⟩

theorem Same.eq_of_others {a b : Tags} (h : a.Same b) (ha : a.others = []) : a = b := by
  have hb : b.others = [] := List.nil_perm.1 (ha ▸ h.others)
  obtain ⟨texts, others⟩ := a
  obtain ⟨texts', others'⟩ := b
  rw [mk.injEq]
  exact ⟨h.texts, ha.trans hb.symm⟩

/-- Tags that are texts of characters are nothing but texts. -/
theorem areTexts_of_others {tags : Tags} (h : tags.others = []) : tags.AreTexts := by
  constructor
  · simp [h]
  · rw [h]
    exact List.nodup_nil

theorem AreTexts.set {tags : Tags} (h : tags.AreTexts) (t : String) (present : Bool) :
    (tags.set t present).AreTexts :=
  ⟨h.loose, h.distinct⟩

/-! ### Tags from a list of texts -/

theorem mem_texts_foldl_add {vs : List Json} {tags : Tags} {t : String} :
    t ∈ (vs.foldl add tags).texts ↔ t ∈ tags.texts ∨ ∃ v ∈ vs, v.string? = some t := by
  induction vs generalizing tags with
  | nil => simp
  | cons v vs ih =>
    rw [List.foldl_cons, ih]
    cases hv : v.string? with
    | none =>
      have htexts : (tags.add v).texts = tags.texts := by
        rw [add, hv]
        simp only
        split <;> rfl
      simp [htexts, hv]
    | some u =>
      have htexts : (tags.add v).texts = tags.texts.insert u := by rw [add, hv]
      simp only [htexts, TextSet.mem_insert, List.mem_cons, exists_eq_or_imp, hv,
        Option.some.injEq]
      rw [eq_comm, or_left_comm, ← or_assoc, or_comm (a := u = t), or_assoc]

theorem mem_texts_ofScalars {vs : List Json} {t : String} :
    t ∈ (ofScalars vs).texts ↔ ∃ v ∈ vs, v.string? = some t := by
  rw [ofScalars, mem_texts_foldl_add]
  simp [empty]

/-- A scalar that is no text of characters. -/
def isLoose (v : Json) : Bool := v.string?.isNone

theorem sameKey_str_iff {v : Json} {t : LooseText} : v.sameKey (.str t) = true ↔ v = .str t := by
  cases v with
  | str s => simp [Json.sameKey]
  | _ => simp [Json.sameKey, Json.number?]

theorem any_sameKey_str_iff {vs : List Json} {t : LooseText} :
    vs.any (·.sameKey (.str t)) = true ↔ Json.str t ∈ vs := by
  simp only [List.any_eq_true, sameKey_str_iff]
  exact ⟨fun ⟨v, hv, h⟩ => h ▸ hv, fun h => ⟨_, h, rfl⟩⟩

/-- Tags are found the same exactly if they are, where the first ones are texts. -/
theorem same_iff {a b : Tags} (ha : a.AreTexts) : a.same b = true ↔ a.Same b := by
  have hmembers : (a.others.all fun v => b.others.any (·.sameKey v)) = true ↔
      a.others ⊆ b.others := by
    rw [List.all_eq_true]
    refine forall₂_congr fun v hv => ?_
    obtain ⟨t, rfl, -, -⟩ := ha.loose v hv
    exact any_sameKey_str_iff
  rw [same, Bool.and_eq_true, Bool.and_eq_true, beq_iff_eq, beq_iff_eq, hmembers]
  constructor
  · rintro ⟨⟨htexts, hlength⟩, hsubset⟩
    exact ⟨htexts, (ha.distinct.subperm hsubset).perm_of_length_le hlength.ge⟩
  · exact fun h => ⟨⟨h.texts, h.others.length_eq⟩, h.others.subset⟩

/-- A loose text that is new goes after the others. -/
theorem others_add_new {tags : Tags} {t : LooseText} (hloose : isLoose (.str t) = true)
    (hnew : Json.str t ∉ tags.others) :
    (tags.add (.str t)).others = tags.others ++ [.str t] := by
  have hany : tags.others.any (·.sameKey (.str t)) = false :=
    Bool.eq_false_iff.2 fun h => hnew (any_sameKey_str_iff.1 h)
  rw [add, Option.isNone_iff_eq_none.1 hloose]
  simp only [hany, Bool.false_eq_true, if_false]

/-- Every other text leaves the others as they are. -/
theorem others_add_old {tags : Tags} {t : LooseText}
    (h : isLoose (.str t) = false ∨ Json.str t ∈ tags.others) :
    (tags.add (.str t)).others = tags.others := by
  cases hstring : (Json.str t).string? with
  | some u => rw [add, hstring]
  | none =>
    have hmem : Json.str t ∈ tags.others := by
      apply h.resolve_left
      intro hloose
      rw [isLoose, hstring] at hloose
      cases hloose
    rw [add, hstring]
    simp only [any_sameKey_str_iff.2 hmem, if_true]

theorem others_foldl_add {vs : List Json} (hvs : ∀ v ∈ vs, ∃ t, v = .str t) {tags : Tags}
    (h : (tags.others ++ vs.filter isLoose).Nodup) :
    (vs.foldl add tags).others = tags.others ++ vs.filter isLoose := by
  induction vs generalizing tags with
  | nil => simp
  | cons v vs ih =>
    obtain ⟨⟨t, rfl⟩, htail⟩ := List.forall_mem_cons.1 hvs
    rw [List.foldl_cons]
    cases hloose : isLoose (.str t) with
    | false =>
      have hadd : (tags.add (.str t)).others = tags.others := others_add_old (Or.inl hloose)
      rw [List.filter_cons_of_neg (by simp [hloose])] at h ⊢
      rw [ih htail (by rwa [hadd]), hadd]
    | true =>
      rw [List.filter_cons_of_pos hloose] at h ⊢
      have hmem : Json.str t ∉ tags.others :=
        fun hmem => (List.nodup_append.1 h).2.2 _ hmem _ List.mem_cons_self rfl
      have hassoc : (tags.add (.str t)).others ++ vs.filter isLoose =
          tags.others ++ Json.str t :: vs.filter isLoose := by
        rw [others_add_new hloose hmem, List.append_assoc, List.singleton_append]
      rw [ih htail (by rwa [hassoc]), hassoc]

theorem others_ofScalars {vs : List Json} (hvs : ∀ v ∈ vs, ∃ t, v = .str t)
    (h : (vs.filter isLoose).Nodup) : (ofScalars vs).others = vs.filter isLoose :=
  others_foldl_add hvs h

theorem AreTexts.add {tags : Tags} (h : tags.AreTexts) {t : LooseText} (ht : t.IsJoined) :
    (tags.add (.str t)).AreTexts := by
  by_cases hnew : isLoose (.str t) = true ∧ Json.str t ∉ tags.others
  · have hothers := others_add_new hnew.1 hnew.2
    constructor
    · rw [hothers]
      intro v hv
      rcases List.mem_append.1 hv with hv | hv
      · exact h.loose v hv
      · exact ⟨t, List.mem_singleton.1 hv, ht, Option.isNone_iff_eq_none.1 hnew.1⟩
    · rw [hothers]
      refine List.nodup_append.2 ⟨h.distinct, by simp, ?_⟩
      rintro a ha b hb rfl
      exact hnew.2 (List.mem_singleton.1 hb ▸ ha)
  · have hothers : (tags.add (.str t)).others = tags.others := by
      refine others_add_old ?_
      rwa [not_and_or, not_not, Bool.not_eq_true] at hnew
    exact ⟨hothers ▸ h.loose, hothers ▸ h.distinct⟩

theorem AreTexts.foldl_add {tags : Tags} (htags : tags.AreTexts) {vs : List Json}
    (h : ∀ v ∈ vs, ∃ t, v = .str t ∧ t.IsJoined) : (vs.foldl Tags.add tags).AreTexts := by
  induction vs generalizing tags with
  | nil => exact htags
  | cons v vs ih =>
    obtain ⟨⟨t, rfl, ht⟩, hvs⟩ := List.forall_mem_cons.1 h
    exact ih (htags.add ht) hvs

theorem areTexts_ofScalars {vs : List Json} (h : ∀ v ∈ vs, ∃ t, v = .str t ∧ t.IsJoined) :
    (ofScalars vs).AreTexts :=
  (areTexts_of_others rfl).foldl_add h

/-! ### Tags in order -/

/-- Tags in order are the same tags. -/
theorem perm_of_inOrder? {tags : Tags} {vs : List Json} (h : tags.inOrder? = some vs) :
    vs.Perm (tags.textValues ++ tags.others) := by
  rw [inOrder?] at h
  split at h
  · next hothers =>
    cases h
    rw [hothers, List.append_nil]
  · rw [Json.sort?] at h
    split at h
    · cases h
      exact List.mergeSort_perm _ _
    · cases h

/-- The values of tags that are texts. -/
theorem AreTexts.of_mem {tags : Tags} (h : tags.AreTexts) {v : Json}
    (hv : v ∈ tags.textValues ++ tags.others) : ∃ t, v = .str t ∧ t.IsJoined := by
  rcases List.mem_append.1 hv with hv | hv
  · obtain ⟨t, -, rfl⟩ := List.mem_map.1 hv
    exact ⟨_, rfl, LooseText.isJoined_ofString t⟩
  · obtain ⟨t, rfl, ht, -⟩ := h.loose v hv
    exact ⟨t, rfl, ht⟩

/-- The tags as texts, from the smallest on. -/
structure Lists (tags : Tags) (ts : List LooseText) : Prop where
  mem : ∀ t, t ∈ ts ↔ Json.str t ∈ tags.textValues ++ tags.others
  sorted : ts.Pairwise fun s t => compare s t = .lt

theorem textValues_eq (tags : Tags) :
    tags.textValues = (tags.texts.toList.map LooseText.ofString).map .str := by
  rw [textValues, List.map_map]
  rfl

theorem pairwise_texts (tags : Tags) :
    (tags.texts.toList.map LooseText.ofString).Pairwise fun s t => compare s t = .lt :=
  List.pairwise_map.2 (tags.texts.sorted.imp LooseText.compare_ofString)

theorem AreTexts.exists_map_str {tags : Tags} (h : tags.AreTexts) :
    ∃ ts : List LooseText, tags.textValues ++ tags.others = ts.map .str ∧ ts.Nodup := by
  let values := tags.textValues ++ tags.others
  have hvalues : (values.map Json.keyText).map .str = values := by
    rw [List.map_map, List.map_congr_left, List.map_id]
    intro v hv
    obtain ⟨t, rfl, -⟩ := h.of_mem hv
    rfl
  have hnodup : values.Nodup := by
    refine List.nodup_append.2 ⟨?_, h.distinct, ?_⟩
    · refine List.pairwise_map.2 (tags.texts.sorted.imp fun {s t} hlt heq => ?_)
      obtain rfl := LooseText.ofString_inj.1 (Json.str.inj heq)
      exact String.lt_irrefl s hlt
    · rintro a ha b hb rfl
      obtain ⟨t, -, rfl⟩ := List.mem_map.1 ha
      obtain ⟨u, hu, -, hnone⟩ := h.loose _ hb
      cases hu
      cases (LooseText.toString?_ofString t).symm.trans hnone
  rw [← hvalues] at hnodup
  refine ⟨values.map Json.keyText, hvalues.symm, ?_⟩
  exact (List.pairwise_map.1 hnodup).imp fun hne heq => hne (congrArg Json.str heq)

/-- Tags that are texts can be put in order. -/
theorem AreTexts.exists_lists {tags : Tags} (h : tags.AreTexts) :
    ∃ ts : List LooseText, tags.inOrder? = some (ts.map .str) ∧ tags.Lists ts := by
  obtain ⟨ts, hts, hnodup⟩ := h.exists_map_str
  cases hothers : tags.others with
  | nil =>
    refine ⟨tags.texts.toList.map LooseText.ofString, ?_, fun t => ?_, tags.pairwise_texts⟩
    · rw [inOrder?_of_texts hothers, textValues_eq]
    · rw [hothers, List.append_nil, textValues_eq]
      simp
  | cons v vs =>
    refine ⟨Json.sortTexts ts, ?_, fun t => ?_, Json.pairwise_sortTexts hnodup⟩
    · rw [inOrder?, hothers]
      simp only
      rw [← hothers, hts, Json.sort?_map_str]
    · rw [hts, (Json.perm_sortTexts ts).mem_iff]
      simp

theorem AreTexts.exists_inOrder {tags : Tags} (h : tags.AreTexts) :
    ∃ vs, tags.inOrder? = some vs ∧ vs.Perm (tags.textValues ++ tags.others) := by
  obtain ⟨ts, hts, -⟩ := h.exists_lists
  exact ⟨_, hts, perm_of_inOrder? hts⟩

theorem AreTexts.filter_isLoose {tags : Tags} (h : tags.AreTexts) :
    (tags.textValues ++ tags.others).filter isLoose = tags.others := by
  have htexts : tags.textValues.filter isLoose = [] := by
    apply List.filter_eq_nil_iff.2
    intro v hv
    obtain ⟨t, -, rfl⟩ := List.mem_map.1 hv
    have hstring : (Json.str (LooseText.ofString t)).string? = some t :=
      LooseText.toString?_ofString t
    simp [isLoose, hstring]
  have hothers : tags.others.filter isLoose = tags.others := by
    apply List.filter_eq_self.2
    intro v hv
    obtain ⟨t, rfl, -, ht⟩ := h.loose v hv
    exact Option.isNone_iff_eq_none.2 ht
  rw [List.filter_append, htexts, hothers, List.nil_append]

/-- The tags that are made of tags in order are the same. -/
theorem AreTexts.same_ofScalars {tags : Tags} (h : tags.AreTexts) {vs : List Json}
    (hperm : vs.Perm (tags.textValues ++ tags.others)) : tags.Same (ofScalars vs) := by
  have hvs : ∀ v ∈ vs, ∃ t, v = .str t := by
    intro v hv
    obtain ⟨t, rfl, -⟩ := h.of_mem (hperm.mem_iff.1 hv)
    exact ⟨t, rfl⟩
  have hloose : (vs.filter isLoose).Perm tags.others := by
    rw [← h.filter_isLoose]
    exact hperm.filter isLoose
  constructor
  · apply TextSet.ext
    intro t
    rw [mem_texts_ofScalars]
    constructor
    · intro ht
      refine ⟨.str t, hperm.mem_iff.2 (List.mem_append_left _ ?_), LooseText.toString?_ofString t⟩
      exact List.mem_map.2 ⟨t, ht, rfl⟩
    · rintro ⟨v, hv, hstring⟩
      rcases List.mem_append.1 (hperm.mem_iff.1 hv) with hv | hv
      · obtain ⟨u, hu, rfl⟩ := List.mem_map.1 hv
        have hu' : (Json.str (LooseText.ofString u)).string? = some u :=
          LooseText.toString?_ofString u
        rw [hu', Option.some.injEq] at hstring
        exact hstring ▸ hu
      · obtain ⟨u, rfl, -, hu⟩ := h.loose v hv
        exact absurd (hu.symm.trans hstring) nofun
  · rw [others_ofScalars hvs (hloose.nodup_iff.2 h.distinct)]
    exact hloose.symm

end Tags

end TodoLists
