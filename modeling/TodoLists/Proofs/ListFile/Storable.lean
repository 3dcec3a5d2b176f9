import TodoLists.ListFile
import TodoLists.Proofs.Item.Tags
import TodoLists.Proofs.Json.RoundTrip
import Mathlib.Data.List.Forall2

/-!
# Lists that files can hold

A list whose names, descriptions and tags are texts, and whose ids have numerals, is written as a
value from which the same list is read: the same ids and items in the same order, with the same
tags.
-/

namespace TodoLists

/-- The item's name, description and tags are texts, perhaps with lone surrogates. -/
structure Item.HasLooseTexts (i : Item) : Prop where
  name : ∃ t : LooseText, i.name = .str t ∧ t.IsJoined
  description : ∃ t : LooseText, i.description = .str t ∧ t.IsJoined
  tags : i.tags.AreTexts

theorem Item.HasTexts.loose {i : Item} (h : i.HasTexts) : i.HasLooseTexts where
  name := by
    obtain ⟨s, hs⟩ := h.name
    exact ⟨s, hs, LooseText.isJoined_ofString s⟩
  description := by
    obtain ⟨s, hs⟩ := h.description
    exact ⟨s, hs, LooseText.isJoined_ofString s⟩
  tags := Tags.areTexts_of_others h.tags

theorem Item.hasTexts_ofTexts (name description : String) (status : Status) (tags : List String) :
    (Item.ofTexts name description status tags).HasTexts :=
  ⟨⟨name, rfl⟩, ⟨description, rfl⟩, rfl⟩

theorem Item.HasLooseTexts.setStatus {i : Item} (h : i.HasLooseTexts) (s : Status) :
    (i.setStatus s).HasLooseTexts :=
  ⟨h.name, h.description, h.tags⟩

theorem Item.HasLooseTexts.setTag {i : Item} (h : i.HasLooseTexts) (t : String) (present : Bool) :
    (i.setTag t present).HasLooseTexts :=
  ⟨h.name, h.description, h.tags.set t present⟩

/-- Two items with the same fields, their tags being compared as sets. -/
structure Item.Same (i j : Item) : Prop where
  name : i.name = j.name
  description : i.description = j.description
  status : i.status = j.status
  tags : i.tags.Same j.tags

theorem Item.Same.refl (i : Item) : i.Same i := ⟨rfl, rfl, rfl, .refl _⟩

theorem Item.Same.hasLooseTexts {i j : Item} (h : i.Same j) (hi : i.HasLooseTexts) :
    j.HasLooseTexts :=
  ⟨h.name ▸ hi.name, h.description ▸ hi.description, h.tags.areTexts hi.tags⟩

theorem Item.Same.eq_of_hasTexts {i j : Item} (h : i.Same j) (hi : i.HasTexts) : i = j := by
  obtain ⟨name, description, status, tags⟩ := i
  obtain ⟨name', description', status', tags'⟩ := j
  rw [mk.injEq]
  exact ⟨h.name, h.description, h.status, h.tags.eq_of_others hi.tags⟩

/-- The same ids and items in the same order. -/
def SameEntries (es fs : List (ItemId × Item)) : Prop :=
  List.Forall₂ (fun e f => e.1 = f.1 ∧ e.2.Same f.2) es fs

theorem SameEntries.exists_of_mem {es fs : List (ItemId × Item)} (h : SameEntries es fs) :
    ∀ f ∈ fs, ∃ e ∈ es, e.1 = f.1 ∧ e.2.Same f.2 := by
  induction h with
  | nil => exact fun f hf => absurd hf List.not_mem_nil
  | @cons e f es fs hef _ ih =>
    refine List.forall_mem_cons.2 ⟨⟨e, List.mem_cons_self, hef⟩, fun g hg => ?_⟩
    obtain ⟨e', he', hsame⟩ := ih g hg
    exact ⟨e', List.mem_cons_of_mem e he', hsame⟩

theorem SameEntries.eq_of_hasTexts {es fs : List (ItemId × Item)} (h : SameEntries es fs)
    (hes : ∀ e ∈ es, e.2.HasTexts) : es = fs := by
  induction h with
  | nil => rfl
  | @cons e f es fs hef _ ih =>
    obtain ⟨he, hes⟩ := List.forall_mem_cons.1 hes
    rw [ih hes, Prod.ext hef.1 (hef.2.eq_of_hasTexts he)]

namespace ItemList

def Same (l m : ItemList) : Prop := SameEntries l.entries m.entries

/-- The texts are texts, and each id has a numeral. -/
def IsStorable (l : ItemList) : Prop :=
  ∀ e ∈ l.entries, Text.isWritable e.1.value = true ∧ e.2.HasLooseTexts

theorem Same.refl (l : ItemList) : l.Same l :=
  List.forall₂_same.2 fun e _ => ⟨rfl, Item.Same.refl e.2⟩

theorem Same.isStorable {l m : ItemList} (h : l.Same m) (hl : l.IsStorable) : m.IsStorable := by
  intro f hf
  obtain ⟨e, he, hid, hsame⟩ := h.exists_of_mem f hf
  exact ⟨hid ▸ (hl e he).1, hsame.hasLooseTexts (hl e he).2⟩

/-- Lists of texts of characters are the same only when they are equal. -/
theorem Same.eq_of_hasTexts {l m : ItemList} (h : l.Same m) (hl : l.HasTexts) : l = m := by
  obtain ⟨es⟩ := l
  obtain ⟨fs⟩ := m
  rw [mk.injEq]
  exact SameEntries.eq_of_hasTexts h hl

theorem isStorable_of_hasTexts {l : ItemList} (h : l.HasTexts)
    (hids : ∀ id ∈ l.ids, Text.isWritable id.value = true) : l.IsStorable :=
  fun e he => ⟨hids e.1 (List.mem_map_of_mem he), (h e he).loose⟩

/-! ### Changes -/

section

variable {l : ItemList} {P : ItemId × Item → Prop} (h : ∀ e ∈ l.entries, P e)

include h

/-- What holds of all items holds of those that stay. -/
theorem forall_mem_removeAll (ids : List ItemId) : ∀ e ∈ (l.removeAll ids).entries, P e := by
  induction ids generalizing l with
  | nil => exact h
  | cons id ids ih => exact ih fun e he => h e (List.mem_filter.1 he).1

variable {f : Item → Item} (hf : ∀ e : ItemId × Item, P e → P (e.1, f e.2))

include hf

theorem forall_mem_modify (id : ItemId) : ∀ e ∈ (l.modify id f).entries, P e := by
  obtain ⟨es⟩ := l
  induction es with
  | nil => exact h
  | cons e es ih =>
    obtain ⟨he, hes⟩ := List.forall_mem_cons.1 h
    rw [ItemList.modify, modifyFirst]
    split
    · exact List.forall_mem_cons.2 ⟨hf e he, hes⟩
    · exact List.forall_mem_cons.2 ⟨he, ih hes⟩

/-- What holds of all items, and of an item after the change if it did before, holds afterwards. -/
theorem forall_mem_modifyAll (ids : List ItemId) : ∀ e ∈ (l.modifyAll ids f).entries, P e := by
  induction ids generalizing l with
  | nil => exact h
  | cons id ids ih => exact ih (forall_mem_modify h hf id)

end

theorem IsStorable.removeAll {l : ItemList} (h : l.IsStorable) (ids : List ItemId) :
    (l.removeAll ids).IsStorable :=
  forall_mem_removeAll h ids

theorem IsStorable.modifyAll {l : ItemList} (h : l.IsStorable) (ids : List ItemId)
    {f : Item → Item} (hf : ∀ i : Item, i.HasLooseTexts → (f i).HasLooseTexts) :
    (l.modifyAll ids f).IsStorable :=
  forall_mem_modifyAll h (fun _ he => ⟨he.1, hf _ he.2⟩) ids

/-- A new item has texts, so only its id matters. -/
theorem IsStorable.add {l : ItemList} (h : l.IsStorable) (d : Draft) {supply : Supply}
    (hid : Text.isWritable (l.add d supply).1.value = true) :
    (l.add d supply).2.1.IsStorable := by
  refine List.forall_mem_append.2 ⟨h, List.forall_mem_singleton.2 ⟨hid, ?_⟩⟩
  exact (Item.hasTexts_ofTexts _ _ _ _).loose

end ItemList

namespace ListFile

/-! ### One item -/

theorem readTags_strs {vs : List Json} (h : ∀ v ∈ vs, ∃ t, v = .str t) :
    readTags (.arr vs) = .ok (.ofScalars vs) := by
  have hscalars : vs.all Json.isScalar = true := by
    apply List.all_eq_true.2
    intro v hv
    obtain ⟨t, rfl⟩ := h v hv
    rfl
  simp only [readTags, elements, elements?, bind, Except.bind, hscalars, if_true]
  rfl

theorem readStatus_name (s : Status) : readStatus (.str s.name) = .ok s := by
  simp [readStatus, Status.ofName?_name]

/-- The value of an item whose tags are in order. -/
def entryOf (e : ItemId × Item) (tags : List Json) : Json :=
  .obj [("id", .int e.1.value), ("name", e.2.name), ("description", e.2.description),
    ("status", .str e.2.status.name), ("tags", .arr tags)]

theorem readEntry_entryOf (e : ItemId × Item) {tags : List Json}
    (h : ∀ v ∈ tags, ∃ t, v = .str t) :
    readEntry (entryOf e tags) = .ok (e.1, { e.2 with tags := .ofScalars tags }) := by
  have hstatus := readStatus_name e.2.status
  have htags := readTags_strs h
  change (readStatus (.str e.2.status.name)).bind (fun status => (readTags (.arr tags)).bind
    fun tags => .ok (e.1, Item.mk e.2.name e.2.description status tags)) = _
  rw [hstatus, htags]
  rfl

theorem regular_entryOf {e : ItemId × Item} (hid : Text.isWritable e.1.value = true)
    (h : e.2.HasLooseTexts) {tags : List Json} (htags : ∀ v ∈ tags, ∃ t, v = .str t ∧ t.IsJoined) :
    (entryOf e tags).Regular fun _ => False := by
  obtain ⟨n, hname, hn⟩ := h.name
  obtain ⟨s, hdescription, hs⟩ := h.description
  refine .obj (by simp [LooseText.ofString_inj]) ?_ ?_
  · intro m hm
    simp only [List.mem_cons, List.not_mem_nil, or_false] at hm
    rcases hm with rfl | rfl | rfl | rfl | rfl <;> exact LooseText.isJoined_ofString _
  · intro m hm
    simp only [List.mem_cons, List.not_mem_nil, or_false] at hm
    rcases hm with rfl | rfl | rfl | rfl | rfl
    · exact .int hid
    · exact hname ▸ .str hn
    · exact hdescription ▸ .str hs
    · exact .str (LooseText.isJoined_ofString _)
    · apply Json.Regular.arr
      intro v hv
      obtain ⟨t, rfl, ht⟩ := htags v hv
      exact .str ht

/-- An item that can be stored is written as a value from which the same item is read. -/
theorem exists_ofItem? {e : ItemId × Item} (hid : Text.isWritable e.1.value = true)
    (h : e.2.HasLooseTexts) :
    ∃ v, ofItem? e = some v ∧ v.Regular (fun _ => False) ∧
      ∃ f, readEntry v = .ok f ∧ e.1 = f.1 ∧ e.2.Same f.2 := by
  obtain ⟨vs, hvs, hperm⟩ := h.tags.exists_inOrder
  have hvalues : ∀ v ∈ vs, ∃ t, v = .str t ∧ t.IsJoined :=
    fun v hv => h.tags.of_mem (hperm.mem_iff.1 hv)
  have hread := readEntry_entryOf e fun v hv => (hvalues v hv).imp fun _ ht => ht.1
  refine ⟨entryOf e vs, ?_, regular_entryOf hid h hvalues, _, hread, rfl, rfl, rfl, rfl,
    h.tags.same_ofScalars hperm⟩
  rw [ofItem?, hvs]
  rfl

/-! ### All items -/

theorem exists_mapM_ofItem? {es : List (ItemId × Item)}
    (h : ∀ e ∈ es, Text.isWritable e.1.value = true ∧ e.2.HasLooseTexts) :
    ∃ vs, es.mapM ofItem? = some vs ∧ (∀ v ∈ vs, v.Regular fun _ => False) ∧
      ∃ fs, vs.mapM readEntry = .ok fs ∧ SameEntries es fs := by
  induction es with
  | nil => exact ⟨[], rfl, fun v hv => absurd hv List.not_mem_nil, [], rfl, .nil⟩
  | cons e es ih =>
    obtain ⟨he, hes⟩ := List.forall_mem_cons.1 h
    obtain ⟨v, hv, hregular, f, hf, hsame⟩ := exists_ofItem? he.1 he.2
    obtain ⟨vs, hvs, hall, fs, hfs, hsames⟩ := ih hes
    refine ⟨v :: vs, ?_, List.forall_mem_cons.2 ⟨hregular, hall⟩, f :: fs, ?_, .cons hsame hsames⟩
    · rw [List.mapM_cons, hv, hvs]
      rfl
    · rw [List.mapM_cons, hf, hfs]
      rfl

/-- A list that can be stored is written as a value from which the same list is read. -/
theorem exists_ofList? {l : ItemList} (h : l.IsStorable) :
    ∃ v, ofList? l = some v ∧ v.Regular (fun _ => False) ∧ ∃ m, readList v = .ok m ∧ l.Same m := by
  obtain ⟨vs, hvs, hall, fs, hfs, hsame⟩ := exists_mapM_ofItem? h
  refine ⟨.obj [("items", .arr vs)], ?_, ?_, ⟨fs⟩, ?_, hsame⟩
  · rw [ofList?, hvs]
    rfl
  · refine .obj (by simp) ?_ ?_
    · exact List.forall_mem_singleton.2 (LooseText.isJoined_ofString _)
    · exact List.forall_mem_singleton.2 (.arr hall)
  · change (vs.mapM readEntry).bind (fun es => .ok (ItemList.mk es)) = _
    rw [hfs]
    rfl

end ListFile

end TodoLists
