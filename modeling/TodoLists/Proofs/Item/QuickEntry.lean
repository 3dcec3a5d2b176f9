import TodoLists.Proofs.ItemList.Distinct
import TodoLists.Proofs.Text.Words

/-!
# The normal form of quick entry

A line of quick entry comes to a name, a description and tags from which everything that has a
meaning in a line has been taken out: the name has no `#` and no colon, the description no `#`, both
are tidy, and the tags are the different ones that stand in the line, each where it stands first.
Such a draft can be written as a line again, its tags in front, and that line comes to the same
draft.

Only colons may be left in a description, and they do no harm there, since the first colon of the
written line is the one in front of the description.
-/

namespace TodoLists.Draft

variable {c : Char} {cs line s t u : List Char} {i : Nat}

theorem isTagChar_iff :
    isTagChar c = true ↔ Text.isBlank c = false ∧ c ≠ ':' ∧ c ≠ '#' := by
  simp [isTagChar, and_assoc]

/-! ### Where tags stand -/

/-- `#t` stands in the line after `i` characters, and the tag does not go on. -/
def TagAt (line : List Char) (i : Nat) (t : List Char) : Prop :=
  ∃ after, line.drop i = '#' :: (t ++ after) ∧ (∀ c ∈ t, isTagChar c = true) ∧
    ∀ c ∈ after.head?, isTagChar c = false

theorem not_tagAt_nil : ¬ TagAt [] i t := by
  rintro ⟨after, h, -⟩
  rw [List.drop_nil] at h
  cases h

theorem tagAt_succ : TagAt (c :: cs) (i + 1) t ↔ TagAt cs i t := Iff.rfl

/-- The tag that a `#` begins is all that can belong to it. -/
theorem tagAt_zero : TagAt (c :: cs) 0 t ↔ c = '#' ∧ t = cs.takeWhile isTagChar := by
  constructor
  · rintro ⟨after, h, ht, hafter⟩
    obtain ⟨rfl, rfl⟩ := List.cons.inj h
    refine ⟨rfl, ?_⟩
    rw [List.takeWhile_append_of_pos ht]
    cases after with
    | nil => simp
    | cons d after => simp [hafter d rfl]
  · rintro ⟨rfl, rfl⟩
    refine ⟨cs.dropWhile isTagChar, ?_, fun d hd => List.mem_takeWhile_imp hd, fun d hd => ?_⟩
    · rw [List.drop_zero, List.takeWhile_append_dropWhile]
    · have hhead := List.head?_dropWhile_not isTagChar cs
      rw [Option.mem_def.1 hd] at hhead
      exact hhead

/-- No tag stands where there is no `#`. -/
theorem tagAt_append (hs : '#' ∉ s) :
    TagAt (s ++ cs) i t ↔ ∃ k, i = s.length + k ∧ TagAt cs k t := by
  induction s generalizing i with
  | nil => simp
  | cons c s ih =>
    rw [List.mem_cons, not_or] at hs
    cases i with
    | zero =>
      rw [List.cons_append, tagAt_zero]
      constructor
      · rintro ⟨rfl, -⟩
        exact absurd rfl hs.1
      · rintro ⟨k, hk, -⟩
        rw [List.length_cons] at hk
        omega
    | succ i =>
      rw [List.cons_append, tagAt_succ, ih hs.2]
      refine exists_congr fun k => and_congr_left fun _ => ?_
      rw [List.length_cons]
      omega

/-- Behind a `#` the next tag stands where its own ends. -/
theorem tagAt_hash : TagAt ('#' :: cs) i t ↔ i = 0 ∧ t = cs.takeWhile isTagChar ∨
    ∃ k, i = (cs.takeWhile isTagChar).length + k + 1 ∧ TagAt (cs.dropWhile isTagChar) k t := by
  have hhash : '#' ∉ cs.takeWhile isTagChar :=
    fun h => absurd (isTagChar_iff.1 (List.mem_takeWhile_imp h)).2.2 (by simp)
  have hsplit : TagAt cs = TagAt (cs.takeWhile isTagChar ++ cs.dropWhile isTagChar) := by
    rw [List.takeWhile_append_dropWhile]
  cases i with
  | zero => simp [tagAt_zero]
  | succ i =>
    rw [tagAt_succ, hsplit, tagAt_append hhash]
    simp

/-- The tags that are taken out of a line are those that stand in it. -/
theorem mem_takeTags_iff : t ∈ (takeTags line).1 ↔ ∃ i, TagAt line i t := by
  fun_induction takeTags line with
  | case1 => simp [not_tagAt_nil]
  | case2 cs tags rest hrest ih =>
    rw [hrest] at ih
    simp only [tagAt_hash, List.mem_cons, ih]
    constructor
    · rintro (h | ⟨k, hk⟩)
      · exact ⟨0, Or.inl ⟨rfl, h⟩⟩
      · exact ⟨_, Or.inr ⟨k, rfl, hk⟩⟩
    · rintro ⟨i, ⟨-, h⟩ | ⟨k, -, hk⟩⟩
      · exact Or.inl h
      · exact Or.inr ⟨k, hk⟩
  | case3 c cs hc tags rest hrest ih =>
    rw [hrest] at ih
    rw [ih]
    constructor
    · rintro ⟨i, hi⟩
      exact ⟨i + 1, hi⟩
    · rintro ⟨_ | i, hi⟩
      · exact absurd (tagAt_zero.1 hi).1 hc
      · exact ⟨i, hi⟩

/-! ### The order of tags -/

/-- The first tag stands in the line before every place where the second one does. -/
def Leads (line t u : List Char) : Prop := ∃ i, TagAt line i t ∧ ∀ j, TagAt line j u → i < j

theorem Leads.ne (h : Leads line t u) : t ≠ u := by
  rintro rfl
  obtain ⟨i, hi, hlt⟩ := h
  exact Nat.lt_irrefl i (hlt i hi)

theorem leads_first (hu : u ≠ cs.takeWhile isTagChar) :
    Leads ('#' :: cs) (cs.takeWhile isTagChar) u := by
  refine ⟨0, tagAt_zero.2 ⟨rfl, rfl⟩, fun j hj => ?_⟩
  rcases tagAt_hash.1 hj with ⟨-, rfl⟩ | ⟨k, rfl, -⟩
  · exact absurd rfl hu
  · omega

theorem Leads.hash (h : Leads (cs.dropWhile isTagChar) t u) (hu : u ≠ cs.takeWhile isTagChar) :
    Leads ('#' :: cs) t u := by
  obtain ⟨i, hi, hlt⟩ := h
  refine ⟨_, tagAt_hash.2 (Or.inr ⟨i, rfl, hi⟩), fun j hj => ?_⟩
  rcases tagAt_hash.1 hj with ⟨-, rfl⟩ | ⟨k, rfl, hk⟩
  · exact absurd rfl hu
  · have := hlt k hk
    omega

theorem Leads.cons (h : Leads cs t u) (hc : c ≠ '#') : Leads (c :: cs) t u := by
  obtain ⟨i, hi, hlt⟩ := h
  refine ⟨i + 1, hi, fun j hj => ?_⟩
  cases j with
  | zero => exact absurd (tagAt_zero.1 hj).1 hc
  | succ j => exact Nat.succ_lt_succ (hlt j hj)

/-- Of the tags that pass, each taken where it comes first, earlier ones lead. The filter is any,
because taking a tag once filters the tags behind it. -/
theorem pairwise_leads (line : List Char) (p : List Char → Bool) :
    (((takeTags line).1.filter p).map String.ofList).eraseDups.Pairwise
      fun t u => Leads line t.toList u.toList := by
  fun_induction takeTags line generalizing p with
  | case1 => exact .nil
  | case2 cs tags rest hrest ih =>
    rw [hrest] at ih
    -- Where the first tag does not pass, every place in the rest is further on by the same.
    have hrest' : ∀ q : List Char → Bool, q (cs.takeWhile isTagChar) = false →
        ((tags.filter q).map String.ofList).eraseDups.Pairwise
          fun t u => Leads ('#' :: cs) t.toList u.toList := by
      intro q hq
      refine (ih q).imp_of_mem fun {t u} _ hu hlead => hlead.hash fun hfirst => ?_
      obtain ⟨v, hv, rfl⟩ := List.mem_map.1 (List.mem_eraseDups.1 hu)
      rw [String.toList_ofList] at hfirst
      rw [← hfirst, (List.mem_filter.1 hv).2] at hq
      cases hq
    cases hp : p (cs.takeWhile isTagChar) with
    | false =>
      rw [List.filter_cons_of_neg (ne_true_of_eq_false hp)]
      exact hrest' p hp
    | true =>
      rw [List.filter_cons_of_pos hp, List.map_cons, List.eraseDups_cons, List.filter_map,
        List.filter_filter]
      refine List.pairwise_cons.2 ⟨fun u hu => ?_, hrest' _ (by simp)⟩
      obtain ⟨v, hv, rfl⟩ := List.mem_map.1 (List.mem_eraseDups.1 hu)
      rw [String.toList_ofList, String.toList_ofList]
      refine leads_first fun hfirst => ?_
      have hne := (List.mem_filter.1 hv).2
      simp [hfirst] at hne
  | case3 c cs hc tags rest hrest ih =>
    rw [hrest] at ih
    exact (ih p).imp fun hlead => hlead.cons hc

theorem mem_tagsIn_iff {t : String} :
    t ∈ tagsIn line ↔ t ≠ "" ∧ ∃ i, TagAt line i t.toList := by
  rw [tagsIn, List.mem_eraseDups, List.mem_map, ← mem_takeTags_iff]
  constructor
  · rintro ⟨v, hv, rfl⟩
    obtain ⟨hv, hne⟩ := List.mem_filter.1 hv
    rw [String.toList_ofList]
    exact ⟨by simpa using hne, hv⟩
  · rintro ⟨hne, ht⟩
    exact ⟨t.toList, List.mem_filter.2 ⟨ht, by simpa using hne⟩, String.ofList_toList⟩

/-! ### What a line comes to -/

/-- What has a meaning in a line is in no part of the draft but a colon in its description. -/
structure IsNormal (d : Draft) : Prop where
  name : '#' ∉ d.name.toList ∧ ':' ∉ d.name.toList ∧ Text.IsTidy d.name.toList
  description : '#' ∉ d.description.toList ∧ Text.IsTidy d.description.toList
  status : d.status = .default
  tags : ∀ t ∈ d.tags, t ≠ "" ∧ ∀ c ∈ t.toList, Text.isBlank c = false ∧ c ≠ ':' ∧ c ≠ '#'
  distinct : d.tags.Nodup

theorem hash_not_mem_takeTags (line : List Char) : '#' ∉ (takeTags line).2 := by
  fun_induction takeTags line with
  | case1 => exact List.not_mem_nil
  | case2 cs tags rest hrest ih => rwa [hrest] at ih
  | case3 c cs hc tags rest hrest ih =>
    rw [hrest] at ih
    rw [List.mem_cons, not_or]
    exact ⟨Ne.symm hc, ih⟩

theorem not_mem_squeeze (hc : c ≠ ' ') (h : c ∉ s) : c ∉ Text.squeeze s :=
  fun hmem => (Text.mem_squeeze hmem).elim hc h

theorem isNormal_ofLine (line : List Char) : (ofLine line).IsNormal := by
  have hhash := hash_not_mem_takeTags line
  obtain ⟨name, description, hname, hdescription, hcolon, hofLine⟩ :
      ∃ name description, '#' ∉ name ∧ '#' ∉ description ∧ ':' ∉ name ∧
        ofLine line = ⟨String.ofList (Text.squeeze name),
          String.ofList (Text.squeeze description), .default, tagsIn line⟩ := by
    rcases Text.cut_cases ':' (takeTags line).2 with
      ⟨hcolon, hcut⟩ | ⟨name, description, hcolon, hline, hcut⟩
    · exact ⟨_, [], hhash, List.not_mem_nil, hcolon, by rw [ofLine, hcut]; rfl⟩
    · rw [hline, List.mem_append, List.mem_cons, not_or, not_or] at hhash
      exact ⟨name, description, hhash.1, hhash.2.2, hcolon, by rw [ofLine, hcut]; rfl⟩
  rw [hofLine]
  constructor
  · simp only [String.toList_ofList]
    exact ⟨not_mem_squeeze (by decide) hname, not_mem_squeeze (by decide) hcolon,
      Text.isTidy_squeeze name⟩
  · simp only [String.toList_ofList]
    exact ⟨not_mem_squeeze (by decide) hdescription, Text.isTidy_squeeze description⟩
  · rfl
  · intro t ht
    obtain ⟨hne, i, after, -, hplain, -⟩ := mem_tagsIn_iff.1 ht
    exact ⟨hne, fun c hc => isTagChar_iff.1 (hplain c hc)⟩
  · exact (pairwise_leads line fun t => !t.isEmpty).imp fun hlead htu =>
      hlead.ne (congrArg String.toList htu)

/-! ### Writing a draft as a line -/

/-- The description behind a colon, if there is one. -/
def lineEnd (d : Draft) : List Char :=
  if d.description = "" then [] else ':' :: ' ' :: d.description.toList

/-- The draft as a line: its tags, each with its `#`, then the name and the description. -/
def toLine (d : Draft) : List Char :=
  Text.unwords (d.tags.map (fun t => '#' :: t.toList) ++ [d.name.toList]) ++ d.lineEnd

theorem takeTags_of_not_mem (hs : '#' ∉ s) : takeTags s = ([], s) := by
  induction s with
  | nil => rw [takeTags]
  | cons c s ih =>
    rw [List.mem_cons, not_or] at hs
    rw [takeTags, if_neg (Ne.symm hs.1), ih hs.2]

theorem takeTags_space (s : List Char) :
    takeTags (' ' :: s) = ((takeTags s).1, ' ' :: (takeTags s).2) := by
  rw [takeTags, if_neg (by decide)]

theorem takeTags_tag (ht : ∀ c ∈ t, isTagChar c = true) (s : List Char) :
    takeTags ('#' :: (t ++ ' ' :: s)) = (t :: (takeTags s).1, ' ' :: (takeTags s).2) := by
  have hspace : isTagChar ' ' = false := by decide
  rw [takeTags, if_pos rfl, List.takeWhile_append_of_pos ht, List.dropWhile_append_of_pos ht,
    List.takeWhile_cons_of_neg (by simp [hspace]), List.dropWhile_cons_of_neg (by simp [hspace]),
    takeTags_space, List.append_nil]

/-- The tags in front of a text are taken out, and each leaves a space behind. -/
theorem takeTags_unwords {ts : List (List Char)} (hts : ∀ t ∈ ts, ∀ c ∈ t, isTagChar c = true)
    {name e : List Char} (hname : '#' ∉ name) (he : '#' ∉ e) :
    takeTags (Text.unwords (ts.map (fun t => '#' :: t) ++ [name]) ++ e) =
      (ts, List.replicate ts.length ' ' ++ (name ++ e)) := by
  induction ts with
  | nil =>
    refine takeTags_of_not_mem (s := name ++ e) ?_
    rw [List.mem_append, not_or]
    exact ⟨hname, he⟩
  | cons t ts ih =>
    obtain ⟨ht, hts⟩ := List.forall_mem_cons.1 hts
    rw [List.map_cons, List.cons_append, Text.unwords_cons _ (by simp), List.cons_append,
      List.cons_append, List.append_assoc, List.cons_append, takeTags_tag ht, ih hts]
    rfl

namespace IsNormal

variable {d : Draft}

theorem takeTags_toLine (h : d.IsNormal) :
    takeTags d.toLine = (d.tags.map String.toList,
      List.replicate d.tags.length ' ' ++ (d.name.toList ++ d.lineEnd)) := by
  have htags : ∀ t ∈ d.tags.map String.toList, ∀ c ∈ t, isTagChar c = true := by
    intro t ht c hc
    obtain ⟨u, hu, rfl⟩ := List.mem_map.1 ht
    exact isTagChar_iff.2 ((h.tags u hu).2 c hc)
  have hend : '#' ∉ d.lineEnd := by
    rw [lineEnd]
    split
    · exact List.not_mem_nil
    · simp [h.description.1]
  have htake := takeTags_unwords htags h.name.1 hend
  rw [List.map_map, List.length_map] at htake
  exact htake

theorem tagsIn_toLine (h : d.IsNormal) : tagsIn d.toLine = d.tags := by
  have hne : ((d.tags.map String.toList).filter fun t => !t.isEmpty) =
      d.tags.map String.toList := by
    apply List.filter_eq_self.2
    intro t ht
    obtain ⟨u, hu, rfl⟩ := List.mem_map.1 ht
    simpa using (h.tags u hu).1
  have hmap : (d.tags.map String.toList).map String.ofList = d.tags := by simp
  rw [tagsIn, h.takeTags_toLine, hne, hmap, eraseDups_of_nodup h.distinct]

/-- The first colon of the line is the one in front of the description. -/
theorem cut_toLine (h : d.IsNormal) : Text.cut ':' (takeTags d.toLine).2 =
    (List.replicate d.tags.length ' ' ++ d.name.toList,
      if d.description = "" then none else some (' ' :: d.description.toList)) := by
  have hcolon : ':' ∉ List.replicate d.tags.length ' ' ++ d.name.toList := by
    simp [h.name.2.1]
  rw [h.takeTags_toLine]
  simp only
  rw [← List.append_assoc, Text.cut_append hcolon, lineEnd]
  split <;> simp [Text.cut]

/-- A draft that a line can come to is what its own line comes to. -/
theorem ofLine_toLine (h : d.IsNormal) : ofLine d.toLine = d := by
  have hblanks : Text.allBlank (List.replicate d.tags.length ' ') = true := by
    simp [Text.allBlank, Text.isBlank]
  have hname : Text.squeeze (List.replicate d.tags.length ' ' ++ d.name.toList) =
      d.name.toList := by
    rw [Text.squeeze_blank_append hblanks, h.name.2.2.squeeze_eq]
  have hdescription : Text.squeeze ((if d.description = "" then none
      else some (' ' :: d.description.toList)).getD []) = d.description.toList := by
    split
    · next hnil =>
      rw [hnil]
      rfl
    · rw [Option.getD_some, ← List.singleton_append, Text.squeeze_blank_append (by decide),
        h.description.2.squeeze_eq]
  rw [ofLine, h.cut_toLine, h.tagsIn_toLine]
  simp only [hname, hdescription, String.ofList_toList, ← h.status]

end IsNormal

/-- A line comes to a draft in normal form, its tags the different ones of the line in the order in
which they stand there first, and that draft written as a line comes to itself. -/
theorem ofLine_normal_form (line : List Char) :
    (ofLine line).IsNormal ∧
    (∀ t, t ∈ (ofLine line).tags ↔ t ≠ "" ∧ ∃ i, TagAt line i t.toList) ∧
    ((ofLine line).tags.Pairwise fun t u => Leads line t.toList u.toList) ∧
    ofLine (ofLine line).toLine = ofLine line :=
  ⟨isNormal_ofLine line, fun _ => mem_tagsIn_iff, pairwise_leads line fun t => !t.isEmpty,
    (isNormal_ofLine line).ofLine_toLine⟩

example : (ofLine "b#x:: c#y#x \u00a0 d".toList).toLine = "#x #y b: : c d".toList := by
  decide +kernel

end TodoLists.Draft
