import TodoLists.Proofs.Desk.Outcome
import TodoLists.Proofs.ItemList.LeadsBack
import TodoLists.Proofs.ListFile.Refusal
import TodoLists.Proofs.ListFile.Writable

/-!
# What a loaded list can be relied on for

An item that is added gets an id no other item has, and texts for its name, its description and its
tags. An item from a file gets whatever the file says. Nothing compares the ids of different items,
and nothing asks whether a name is a text, so a loaded list is as good as the file: its ids are
distinct, its fields are texts and queries lead back to what they found exactly if the file was
written that way.
-/

namespace TodoLists

/-! ### Tags from scalars -/

namespace Tags

theorem str_sameKey_iff {v : Json} {t : LooseText} :
    (Json.str t).sameKey v = true ↔ v = .str t := by
  cases v with
  | str s => rw [Json.sameKey_str, beq_iff_eq, Json.str.injEq, eq_comm]
  | _ => simp [Json.sameKey, Json.number?]

theorem mem_others_add_of_mem {tags : Tags} {w : Json} (h : w ∈ tags.others) (v : Json) :
    w ∈ (tags.add v).others := by
  rw [add]
  split
  · exact h
  · split
    · exact h
    · exact List.mem_append_left _ h

theorem mem_others_foldl_add {tags : Tags} {w : Json} (h : w ∈ tags.others) (vs : List Json) :
    w ∈ (vs.foldl add tags).others := by
  induction vs generalizing tags with
  | nil => exact h
  | cons v vs ih => exact ih (mem_others_add_of_mem h v)

/-- A scalar that is no text of characters is kept, or else an equal one that was there before. -/
theorem exists_other_add (tags : Tags) {v : Json} (h : v.string? = none) :
    ∃ w ∈ (tags.add v).others, w = v ∨ w.sameKey v = true := by
  rw [add, h]
  cases hany : tags.others.any (·.sameKey v) with
  | true =>
    obtain ⟨w, hw, hsame⟩ := List.any_eq_true.1 hany
    exact ⟨w, hw, Or.inr hsame⟩
  | false => exact ⟨v, List.mem_append_right _ (List.mem_singleton_self v), Or.inl rfl⟩

theorem exists_other_of_mem {vs : List Json} {v : Json} (hv : v ∈ vs) (h : v.string? = none) :
    ∃ w ∈ (ofScalars vs).others, w = v ∨ w.sameKey v = true := by
  obtain ⟨before, after, rfl⟩ := List.append_of_mem hv
  obtain ⟨w, hw, hsame⟩ := exists_other_add (before.foldl add empty) h
  refine ⟨w, ?_, hsame⟩
  rw [ofScalars, List.foldl_append, List.foldl_cons]
  exact mem_others_foldl_add hw after

/-- Only texts make tags that are texts. -/
theorem forall_str_of_areTexts {vs : List Json} (h : (ofScalars vs).AreTexts) :
    ∀ v ∈ vs, ∃ t, v = .str t := by
  intro v hv
  cases hstring : v.string? with
  | some s =>
    obtain ⟨t, ht, -⟩ := Option.bind_eq_some_iff.1 hstring
    cases v with
    | str t' => exact ⟨t', rfl⟩
    | _ => cases ht
  | none =>
    obtain ⟨w, hw, hsame⟩ := exists_other_of_mem hv hstring
    obtain ⟨t, rfl, -⟩ := h.loose w hw
    rcases hsame with rfl | hsame
    · exact ⟨t, rfl⟩
    · exact ⟨t, str_sameKey_iff.1 hsame⟩

end Tags

namespace ListFile

variable {d : Disk} {p : Path} {content : ByteArray}

/-! ### One item -/

/-- The id that the members of an item give it. -/
def idOf? (ms : List (LooseText × Json)) : Option ItemId :=
  (Json.member? "id" ms).bind fun v => (readId v).toOption

/-- Where the members of an item give a name, a description and tags, they give texts. -/
structure GivesTexts (ms : List (LooseText × Json)) : Prop where
  name : ∀ v ∈ Json.member? "name" ms, ∃ t, v = .str t
  description : ∀ v ∈ Json.member? "description" ms, ∃ t, v = .str t
  tags : ∀ v ∈ Json.member? "tags" ms, ∀ es, elements? v = some es → ∀ e ∈ es, ∃ t, e = .str t

/-- What is read of the members of an item. -/
structure IsReadOf (ms : List (LooseText × Json)) (e : ItemId × Item) : Prop where
  id : idOf? ms = some e.1
  name : Json.member? "name" ms = some e.2.name
  description : (Json.member? "description" ms).getD (.str "") = e.2.description
  tags : ∃ es, elements? ((Json.member? "tags" ms).getD (.arr [])) = some es ∧
    e.2.tags = .ofScalars es

theorem exists_isReadOf {v : Json} {e : ItemId × Item} (h : readEntry v = .ok e) :
    ∃ ms, v = .obj ms ∧ IsReadOf ms e := by
  cases v with
  | obj ms =>
    obtain ⟨idValue, hidMember, h⟩ := exists_of_bind_eq_ok h
    obtain ⟨id, hid, h⟩ := exists_of_bind_eq_ok h
    obtain ⟨name, hname, h⟩ := exists_of_bind_eq_ok h
    obtain ⟨status, -, h⟩ := exists_of_bind_eq_ok h
    obtain ⟨tags, htags, h⟩ := exists_of_bind_eq_ok h
    cases h
    refine ⟨ms, rfl, ?_, member_eq_ok_iff.1 hname, rfl, ?_⟩
    · rw [idOf?, member_eq_ok_iff.1 hidMember, Option.bind_some, hid]
      rfl
    · obtain ⟨es, hes, htags⟩ := exists_of_bind_eq_ok htags
      refine ⟨es, elements_eq_ok_iff.1 hes, ?_⟩
      split at htags
      · exact (Except.ok.inj htags).symm
      · cases htags
  | _ => cases h

/-- The fields of an item are texts exactly if those that are given are. -/
theorem IsReadOf.hasLooseTexts_iff {ms : List (LooseText × Json)} {e : ItemId × Item}
    (h : IsReadOf ms e) {float : Binary64 → Prop} (hregular : (Json.obj ms).Regular float) :
    e.2.HasLooseTexts ↔ GivesTexts ms := by
  obtain ⟨es, helements, htags⟩ := h.tags
  constructor
  · intro htexts
    constructor
    · intro v hv
      obtain ⟨t, ht, -⟩ := htexts.name
      cases hv.symm.trans h.name
      exact ⟨t, ht⟩
    · intro v hv
      obtain ⟨t, ht, -⟩ := htexts.description
      rw [← h.description, hv, Option.getD_some] at ht
      exact ⟨t, ht⟩
    · intro v hv es' hes'
      rw [hv, Option.getD_some, hes'] at helements
      cases helements
      exact Tags.forall_str_of_areTexts (htags ▸ htexts.tags)
  · intro hgives
    constructor
    · obtain ⟨t, ht⟩ := hgives.name _ h.name
      exact ⟨t, ht, isJoined_of_regular (ht ▸ regular_of_member? hregular h.name)⟩
    · rw [← h.description]
      refine getD_of_forall (P := fun v => ∃ t, v = .str t ∧ t.IsJoined) (fun v hv => ?_)
        ⟨"", rfl, LooseText.isJoined_ofString ""⟩
      obtain ⟨t, rfl⟩ := hgives.description v hv
      exact ⟨t, rfl, isJoined_of_regular (regular_of_member? hregular hv)⟩
    · rw [htags]
      have hnone : (Json.arr []).Regular float := .arr (List.forall_mem_nil _)
      have hjoined := regular_of_elements? (regular_getD_member? hregular "tags" hnone) helements
      have hstrs : ∀ e ∈ es, ∃ t, e = .str t := by
        cases hmember : Json.member? "tags" ms with
        | none =>
          rw [hmember] at helements
          cases helements
          exact List.forall_mem_nil _
        | some v =>
          rw [hmember] at helements
          exact hgives.tags v hmember es helements
      refine Tags.areTexts_ofScalars fun e he => ?_
      obtain ⟨t, rfl⟩ := hstrs e he
      exact ⟨t, rfl, isJoined_of_regular (hjoined _ he)⟩

/-! ### The whole file -/

/-- The bytes spell an object whose items are objects with these members. -/
def Spells (content : ByteArray) (items : List (List (LooseText × Json))) : Prop :=
  ∃ text ms, String.fromUTF8? content = some text ∧ Json.read text = .ok (.obj ms) ∧
    elements? ((Json.member? "items" ms).getD (.arr [])) = some (items.map .obj)

theorem Spells.regular {items : List (List (LooseText × Json))} (h : Spells content items) :
    ∀ ms ∈ items, (Json.obj ms).Regular Binary64.IsModest := by
  obtain ⟨text, top, -, hread, helements⟩ := h
  have hnone : (Json.arr []).Regular Binary64.IsModest := .arr (List.forall_mem_nil _)
  have hitems := regular_of_elements?
    (regular_getD_member? (Json.regular_of_read hread) "items" hnone) helements
  exact fun ms hms => hitems _ (List.mem_map_of_mem hms)

theorem forall₂_isReadOf {vs : List Json} {es : List (ItemId × Item)}
    (h : vs.mapM readEntry = .ok es) :
    ∃ items, vs = items.map .obj ∧ List.Forall₂ IsReadOf items es := by
  induction vs generalizing es with
  | nil =>
    cases h
    exact ⟨[], rfl, .nil⟩
  | cons v vs ih =>
    rw [List.mapM_cons] at h
    obtain ⟨e, he, h⟩ := exists_of_bind_eq_ok h
    obtain ⟨es', hes, h⟩ := exists_of_bind_eq_ok h
    cases h
    obtain ⟨ms, rfl, hread⟩ := exists_isReadOf he
    obtain ⟨items, rfl, hreads⟩ := ih hes
    exact ⟨ms :: items, rfl, .cons hread hreads⟩

/-- What was loaded was read, item by item, of what the file spells. -/
theorem exists_spells {l : ItemList} (h : decode content = .ok l) :
    ∃ items, Spells content items ∧ List.Forall₂ IsReadOf items l.entries := by
  rw [decode] at h
  split at h
  · cases h
  · next text htext =>
    obtain ⟨v, hv, h⟩ := exists_of_bind_eq_ok h
    cases v with
    | obj ms =>
      obtain ⟨es, hes, h⟩ := exists_of_bind_eq_ok h
      obtain ⟨entries, hentries, h⟩ := exists_of_bind_eq_ok h
      cases h
      obtain ⟨items, rfl, hreads⟩ := forall₂_isReadOf hentries
      exact ⟨items, ⟨text, ms, htext, parse_eq_ok_iff.1 hv, elements_eq_ok_iff.1 hes⟩, hreads⟩
    | _ => cases h

theorem map_idOf?_eq {items : List (List (LooseText × Json))} {es : List (ItemId × Item)}
    (h : List.Forall₂ IsReadOf items es) : items.map idOf? = (es.map (·.1)).map some := by
  induction h with
  | nil => rfl
  | cons hread _ ih => rw [List.map_cons, List.map_cons, List.map_cons, hread.id, ih]

theorem forall_hasLooseTexts_iff {items : List (List (LooseText × Json))}
    {es : List (ItemId × Item)} (h : List.Forall₂ IsReadOf items es)
    (hregular : ∀ ms ∈ items, (Json.obj ms).Regular Binary64.IsModest) :
    (∀ e ∈ es, e.2.HasLooseTexts) ↔ ∀ ms ∈ items, GivesTexts ms := by
  induction h with
  | nil => simp
  | cons hread _ ih =>
    obtain ⟨hfirst, hrest⟩ := List.forall_mem_cons.1 hregular
    rw [List.forall_mem_cons, List.forall_mem_cons, hread.hasLooseTexts_iff hfirst, ih hrest]

/-- A list that was loaded has distinct ids exactly if the file gives distinct ids, and texts
exactly if the file gives texts. Every query leads back to what it found exactly if items with one
id are alike, so always if ids are distinct. -/
theorem load_as_spelled {l : ItemList} (hread : d.read p = .ok content)
    (hload : load d p = .ok l) :
    ∃ items, Spells content items ∧
      (l.ids.Nodup ↔ (items.map idOf?).Nodup) ∧
      (l.HasLooseTexts ↔ ∀ ms ∈ items, GivesTexts ms) ∧
      ((∀ q, l.LeadsBack q) ↔ l.IsFaithful) ∧ (l.ids.Nodup → ∀ q, l.LeadsBack q) := by
  rw [load_of_read hread] at hload
  obtain ⟨items, hspells, hreads⟩ := exists_spells (eq_ok_of_mapError_eq_ok hload)
  refine ⟨items, hspells, ?_, forall_hasLooseTexts_iff hreads hspells.regular,
    ItemList.leadsBack_iff, fun h => (ItemList.isFaithful_of_nodup h).leadsBack⟩
  rw [map_idOf?_eq hreads, List.nodup_map_iff (Option.some_injective _)]
  rfl

/-- The value of a file with items that have these members. -/
def ofItems (items : List (List (LooseText × Json))) : Json :=
  .obj [("items", .arr (items.map .obj))]

/-- A file spells the items it was written with. -/
theorem eq_of_spells_write {items items' : List (List (LooseText × Json))}
    (hregular : (ofItems items).Regular fun _ => False)
    (h : Spells (ofItems items).write.toUTF8 items') : items = items' := by
  obtain ⟨text, ms, htext, hvalue, helements⟩ := h
  obtain rfl := Option.some.inj ((fromUTF8?_toUTF8 _).symm.trans htext)
  obtain rfl := Json.obj.inj (Except.ok.inj ((Json.read_write hregular).symm.trans hvalue))
  exact List.map_injective_iff.2 (fun _ _ h => Json.obj.inj h) (Option.some.inj helements)

/-- Milk and rye, the second with an id that has to be converted. -/
def shopping (secondId : String) : List (List (LooseText × Json)) :=
  [[("id", .int 1), ("name", .str "milk"), ("tags", .arr [.str "home"])],
    [("id", .str secondId), ("name", .str "rye")]]

theorem regular_shopping (secondId : String) :
    (ofItems (shopping secondId)).Regular fun _ => False := by
  have hjoined := LooseText.isJoined_ofString
  have hmilk : (Json.obj [("id", .int 1), ("name", .str "milk"),
      ("tags", .arr [.str "home"])]).Regular fun _ => False := by
    have hdistinct : (["id", "name", "tags"] : List LooseText).Nodup := by decide
    refine .obj hdistinct (by simp [hjoined]) ?_
    simp only [List.forall_mem_cons, List.not_mem_nil, false_implies, implies_true, and_true]
    exact ⟨.int (by decide), .str (hjoined _),
      .arr (List.forall_mem_singleton.2 (.str (hjoined _)))⟩
  have hrye : (Json.obj [("id", .str secondId), ("name", .str "rye")]).Regular fun _ => False := by
    have hdistinct : (["id", "name"] : List LooseText).Nodup := by decide
    refine .obj hdistinct (by simp [hjoined]) ?_
    simp only [List.forall_mem_cons, List.not_mem_nil, false_implies, implies_true, and_true]
    exact ⟨.str (hjoined _), .str (hjoined _)⟩
  exact .obj (by simp) (List.forall_mem_singleton.2 (hjoined _))
    (List.forall_mem_singleton.2 (.arr (List.forall_mem_cons.2
      ⟨hmilk, List.forall_mem_singleton.2 hrye⟩)))

/-- What is loaded of them. -/
def shoppingList (second : ItemId) : ItemList :=
  ⟨[(⟨1⟩, .ofTexts "milk" "" .waiting ["home"]), (second, .ofTexts "rye" "" .waiting [])]⟩

theorem load_shopping {secondId : String} {second : ItemId}
    (h : readId (.str secondId) = .ok second) :
    load (holding (ofItems (shopping secondId))) shelf = .ok (shoppingList second) := by
  have hrye : readEntry (.obj [("id", .str secondId), ("name", .str "rye")]) =
      .ok (second, .ofTexts "rye" "" .waiting []) := by
    change (readId (.str secondId)).bind _ = _
    rw [h]
    rfl
  rw [load_holding (regular_shopping secondId)]
  change (Except.mapError _ ((([_, _] : List Json).mapM readEntry).bind _)) = _
  rw [List.mapM_cons, List.mapM_cons, hrye]
  rfl

/-- A file in good order: its ids are distinct, and what should be texts are texts. -/
theorem load_as_spelled_shopping : ∃ content l,
    (holding (ofItems (shopping "2"))).read shelf = .ok content ∧
      load (holding (ofItems (shopping "2"))) shelf = .ok l ∧ l.ids.Nodup ∧ l.HasLooseTexts ∧
      ∀ q, l.LeadsBack q := by
  have hread := read_holding (ofItems (shopping "2"))
  have hload : load (holding (ofItems (shopping "2"))) shelf = .ok (shoppingList ⟨2⟩) :=
    load_shopping (by decide +kernel)
  obtain ⟨items, hspells, hids, htexts, -, hback⟩ := load_as_spelled hread hload
  obtain rfl := eq_of_spells_write (regular_shopping "2") hspells
  have hdistinct := hids.2 (by decide +kernel)
  refine ⟨_, _, hread, hload, hdistinct, htexts.2 ?_, hback hdistinct⟩
  have hmilk : GivesTexts
      [("id", .int 1), ("name", .str "milk"), ("tags", .arr [.str "home"])] := by
    constructor
    · exact fun v hv => ⟨"milk", (Option.some.inj hv).symm⟩
    · exact fun v hv => absurd hv (Option.not_mem_none v)
    · intro v hv es hes
      obtain rfl : .arr [.str "home"] = v := Option.some.inj hv
      obtain rfl : [.str "home"] = es := Option.some.inj hes
      exact List.forall_mem_singleton.2 ⟨"home", rfl⟩
  have hrye : GivesTexts [("id", .str "2"), ("name", .str "rye")] := by
    constructor
    · exact fun v hv => ⟨"rye", (Option.some.inj hv).symm⟩
    · exact fun v hv => absurd hv (Option.not_mem_none v)
    · exact fun v hv => absurd hv (Option.not_mem_none v)
  exact List.forall_mem_cons.2 ⟨hmilk, List.forall_mem_singleton.2 hrye⟩

/-- Two ids that are written differently may be one number. The list is loaded, and what finds the
second item leads to the first. -/
theorem load_repeats_id : ∃ content l,
    (holding (ofItems (shopping "1"))).read shelf = .ok content ∧
      load (holding (ofItems (shopping "1"))) shelf = .ok l ∧ ¬ l.ids.Nodup ∧
      ¬ l.LeadsBack (.of (.name "rye")) := by
  have hload : load (holding (ofItems (shopping "1"))) shelf = .ok (shoppingList ⟨1⟩) :=
    load_shopping (by decide +kernel)
  refine ⟨_, _, read_holding _, hload, by decide, fun hback => ?_⟩
  obtain ⟨i, hget, f, hf, hmatches⟩ := hback [⟨1⟩] rfl ⟨1⟩ (List.mem_singleton_self _)
  obtain rfl : f = .name "rye" := List.mem_singleton.1 hf
  obtain rfl : .ofTexts "milk" "" .waiting ["home"] = i := Option.some.inj hget
  have hnamed : (Item.ofTexts "milk" "" .waiting ["home"]).isNamed "rye" = true :=
    Except.ok.inj hmatches
  exact absurd hnamed (by decide)

end ListFile

end TodoLists
