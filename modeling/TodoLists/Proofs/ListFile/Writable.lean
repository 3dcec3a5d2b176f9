import TodoLists.Proofs.ListFile.Layout
import TodoLists.Proofs.ListFile.Refusal

/-!
# Lists whose numbers can be written

A list that was loaded may hold any values for names, descriptions and tags. Whatever they are, the
numbers in them were numerals in a file and can be written again, and so can the ids, even those
that were given as floating numbers or as texts. Only the order of the tags can be missing.
-/

namespace TodoLists

/-! ### Values that can be written -/

namespace Json

theorem isWritable_str (s : LooseText) : (str s).isWritable = true := by
  simp [isWritable]

theorem isWritable_obj_iff {ms : List (LooseText × Json)} :
    (obj ms).isWritable = true ↔ ∀ m ∈ ms, m.2.isWritable = true := by
  rw [isWritable, membersWritable_iff]

/-- What a value is made of can be written when the value can. -/
theorem isWritable_of_elements? {v : Json} (h : v.isWritable = true) {es : List Json}
    (hes : ListFile.elements? v = some es) : ∀ e ∈ es, e.isWritable = true := by
  cases v with
  | arr vs =>
    cases hes
    rwa [isWritable, allWritable_iff] at h
  | obj ms =>
    cases hes
    exact List.forall_mem_map.2 fun m _ => isWritable_str m.1
  | str s =>
    cases hes
    exact List.forall_mem_map.2 fun n _ => isWritable_str ⟨[n]⟩
  | _ => cases hes

theorem isWritable_getD_member? {ms : List (LooseText × Json)} (h : (obj ms).isWritable = true)
    (name : String) {default : Json} (hdefault : default.isWritable = true) :
    ((member? name ms).getD default).isWritable = true := by
  refine ListFile.getD_of_forall (P := fun v => v.isWritable = true) (fun v hv => ?_) hdefault
  obtain ⟨m, hm, rfl⟩ := Option.map_eq_some_iff.1 hv
  exact isWritable_obj_iff.1 h m (List.mem_of_find?_eq_some hm)

end Json

/-! ### Tags -/

namespace Tags

theorem mem_others_add {tags : Tags} {v w : Json} (h : w ∈ (tags.add v).others) :
    w ∈ tags.others ∨ w = v := by
  rw [add] at h
  split at h
  · exact Or.inl h
  · split at h
    · exact Or.inl h
    · simpa using h

theorem mem_of_mem_others_ofScalars {vs : List Json} {w : Json}
    (h : w ∈ (ofScalars vs).others) : w ∈ vs := by
  have hfold : ∀ (vs : List Json) (tags : Tags), w ∈ (vs.foldl add tags).others →
      w ∈ tags.others ∨ w ∈ vs := by
    intro vs
    induction vs with
    | nil => exact fun _ h => Or.inl h
    | cons v vs ih =>
      intro tags hw
      rcases ih (tags.add v) hw with hadd | hvs
      · rcases mem_others_add hadd with hold | rfl
        · exact Or.inl hold
        · exact Or.inr List.mem_cons_self
      · exact Or.inr (List.mem_cons_of_mem v hvs)
  exact (hfold vs empty h).resolve_left List.not_mem_nil

end Tags

/-! ### Items and lists -/

/-- The values that a file may hold in place of texts can be written. -/
structure Item.IsWritable (i : Item) : Prop where
  name : i.name.isWritable = true
  description : i.description.isWritable = true
  tags : ∀ v ∈ i.tags.others, v.isWritable = true

theorem Item.HasTexts.isWritable {i : Item} (h : i.HasTexts) : i.IsWritable := by
  obtain ⟨name, hname⟩ := h.name
  obtain ⟨description, hdescription⟩ := h.description
  constructor
  · rw [hname]
    exact Json.isWritable_str _
  · rw [hdescription]
    exact Json.isWritable_str _
  · simp [h.tags]

theorem Item.IsWritable.setStatus {i : Item} (h : i.IsWritable) (s : Status) :
    (i.setStatus s).IsWritable :=
  ⟨h.name, h.description, h.tags⟩

theorem Item.IsWritable.setTag {i : Item} (h : i.IsWritable) (t : String) (present : Bool) :
    (i.setTag t present).IsWritable :=
  ⟨h.name, h.description, h.tags⟩

namespace ItemList

variable {l : ItemList}

/-- All numbers of the list can be written. -/
def IsWritable (l : ItemList) : Prop :=
  ∀ e ∈ l.entries, Text.isWritable e.1.value = true ∧ e.2.IsWritable

theorem isWritable_empty : empty.IsWritable := fun _ he => absurd he List.not_mem_nil

theorem IsWritable.removeAll (h : l.IsWritable) (ids : List ItemId) :
    (l.removeAll ids).IsWritable := forall_mem_removeAll h ids

theorem IsWritable.modifyAll (h : l.IsWritable) (ids : List ItemId) {f : Item → Item}
    (hf : ∀ i : Item, i.IsWritable → (f i).IsWritable) : (l.modifyAll ids f).IsWritable :=
  forall_mem_modifyAll h (fun _ he => ⟨he.1, hf _ he.2⟩) ids

theorem IsWritable.add (h : l.IsWritable) (d : Draft) {supply : Supply}
    (hid : Text.isWritable (l.add d supply).1.value = true) : (l.add d supply).2.1.IsWritable :=
  List.forall_mem_append.2
    ⟨h, List.forall_mem_singleton.2 ⟨hid, (Item.hasTexts_ofTexts _ _ _ _).isWritable⟩⟩

/-- The tags of every item can be put in order. -/
def IsOrdered (l : ItemList) : Prop := ∀ e ∈ l.entries, ∃ tags, e.2.tags.inOrder? = some tags

end ItemList

namespace ListFile

/-! ### Writing -/

theorem exists_ofItem?_iff {e : ItemId × Item} :
    (∃ v, ofItem? e = some v) ↔ ∃ tags, e.2.tags.inOrder? = some tags := by
  constructor
  · rintro ⟨v, hv⟩
    obtain ⟨tags, htags, -⟩ := Option.bind_eq_some_iff.1 hv
    exact ⟨tags, htags⟩
  · rintro ⟨tags, htags⟩
    exact ⟨entryOf e tags, by rw [ofItem?, htags]; rfl⟩

/-- Only tags without an order keep a list from having a text. -/
theorem exists_ofList?_iff {l : ItemList} : (∃ v, ofList? l = some v) ↔ l.IsOrdered := by
  have hitems : (∃ vs, l.entries.mapM ofItem? = some vs) ↔ l.IsOrdered := by
    obtain ⟨es⟩ := l
    rw [ItemList.IsOrdered]
    induction es with
    | nil => exact ⟨fun _ => List.forall_mem_nil _, fun _ => ⟨[], rfl⟩⟩
    | cons e es ih =>
      rw [List.forall_mem_cons, ← ih, ← exists_ofItem?_iff, List.mapM_cons]
      constructor
      · rintro ⟨vs, hvs⟩
        obtain ⟨v, hv, hvs⟩ := Option.bind_eq_some_iff.1 hvs
        obtain ⟨ws, hws, -⟩ := Option.bind_eq_some_iff.1 hvs
        exact ⟨⟨v, hv⟩, ws, hws⟩
      · rintro ⟨⟨v, hv⟩, ws, hws⟩
        exact ⟨v :: ws, by rw [hv, hws]; rfl⟩
  rw [← hitems]
  constructor
  · rintro ⟨v, hv⟩
    obtain ⟨vs, hvs, -⟩ := Option.bind_eq_some_iff.1 hv
    exact ⟨vs, hvs⟩
  · rintro ⟨vs, hvs⟩
    exact ⟨.obj [("items", .arr vs)], by rw [ofList?, hvs]; rfl⟩

theorem isWritable_ofItem? {e : ItemId × Item} (hid : Text.isWritable e.1.value = true)
    (h : e.2.IsWritable) {v : Json} (hv : ofItem? e = some v) : v.isWritable = true := by
  obtain ⟨tags, htags, hv⟩ := Option.bind_eq_some_iff.1 hv
  cases hv
  have htag : ∀ w ∈ tags, w.isWritable = true := by
    intro w hw
    rcases List.mem_append.1 ((Tags.perm_of_inOrder? htags).mem_iff.1 hw) with htext | hother
    · obtain ⟨t, -, rfl⟩ := List.mem_map.1 htext
      exact Json.isWritable_str _
    · exact h.tags w hother
  simp only [Json.isWritable_obj_iff, List.forall_mem_cons, List.not_mem_nil, false_implies,
    implies_true, and_true]
  refine ⟨?_, h.name, h.description, Json.isWritable_str _, ?_⟩
  · rwa [Json.isWritable]
  · rwa [Json.isWritable, Json.allWritable_iff]

/-- If all tags have an order then the whole list is written. -/
theorem isWritable_ofList? {l : ItemList} (h : l.IsWritable) {v : Json}
    (hv : ofList? l = some v) : v.isWritable = true := by
  obtain ⟨items, hitems, hv⟩ := Option.bind_eq_some_iff.1 hv
  cases hv
  have hall : ∀ w ∈ items, w.isWritable = true :=
    forall_of_mapM_eq_some hitems fun e he w hw => isWritable_ofItem? (h e he).1 (h e he).2 hw
  rw [Json.isWritable_obj_iff, List.forall_mem_singleton, Json.isWritable, Json.allWritable_iff]
  exact hall

/-! ### Reading -/

theorem regular_of_elements? {float : Binary64 → Prop} {v : Json} (h : v.Regular float)
    {es : List Json} (hes : elements? v = some es) : ∀ e ∈ es, e.Regular float := by
  cases h with
  | arr h =>
    cases hes
    exact h
  | obj _ hnames _ =>
    cases hes
    exact List.forall_mem_map.2 fun m hm => .str (hnames m hm)
  | str h =>
    cases hes
    exact List.forall_mem_map.2 fun n hn => .str (isJoined_singleton (h.1 n hn))
  | _ => cases hes

theorem regular_getD_member? {float : Binary64 → Prop} {ms : List (LooseText × Json)}
    (h : (Json.obj ms).Regular float) (name : String) {default : Json}
    (hdefault : default.Regular float) :
    ((Json.member? name ms).getD default).Regular float :=
  getD_of_forall (fun _ hv => regular_of_member? h hv) hdefault

/-- However an id is given, it has a numeral. -/
theorem isWritable_readId {v : Json} (hv : v.Regular Binary64.IsModest) {id : ItemId}
    (h : readId v = .ok id) : Text.isWritable id.value = true := by
  cases hv with
  | int hn =>
    cases h
    exact hn
  | bool b =>
    cases h
    cases b <;> decide
  | str _ =>
    rw [readId] at h
    split at h
    · next n hn =>
      cases h
      obtain ⟨s, -, hread⟩ := Option.bind_eq_some_iff.1 hn
      exact Text.isWritable_of_readInt? hread
    · cases h
  | @float x hx =>
    cases x with
    | finite negative m e =>
      cases h
      exact hx _ rfl
    | _ => cases h
  | _ => cases h

theorem isWritable_readTags {v : Json} (hv : v.Regular Binary64.IsModest) {tags : Tags}
    (h : readTags v = .ok tags) : ∀ w ∈ tags.others, w.isWritable = true := by
  obtain ⟨es, hes, h⟩ := exists_of_bind_eq_ok h
  split at h
  · cases h
    intro w hw
    exact (regular_of_elements? hv (elements_eq_ok_iff.1 hes) w
      (Tags.mem_of_mem_others_ofScalars hw)).isWritable
  · cases h

theorem isWritable_readEntry {v : Json} (hv : v.Regular Binary64.IsModest)
    {e : ItemId × Item} (h : readEntry v = .ok e) :
    Text.isWritable e.1.value = true ∧ e.2.IsWritable := by
  cases v with
  | obj ms =>
    obtain ⟨idValue, hidMember, h⟩ := exists_of_bind_eq_ok h
    obtain ⟨id, hid, h⟩ := exists_of_bind_eq_ok h
    obtain ⟨name, hname, h⟩ := exists_of_bind_eq_ok h
    obtain ⟨status, -, h⟩ := exists_of_bind_eq_ok h
    obtain ⟨tags, htags, h⟩ := exists_of_bind_eq_ok h
    cases h
    refine ⟨isWritable_readId (regular_of_member? hv (member_eq_ok_iff.1 hidMember)) hid, ?_⟩
    have hdescription : (Json.str "").Regular Binary64.IsModest :=
      .str (LooseText.isJoined_ofString "")
    have hnone : (Json.arr []).Regular Binary64.IsModest := .arr (List.forall_mem_nil _)
    constructor
    · exact (regular_of_member? hv (member_eq_ok_iff.1 hname)).isWritable
    · exact (regular_getD_member? hv "description" hdescription).isWritable
    · exact isWritable_readTags (regular_getD_member? hv "tags" hnone) htags
  | _ => cases h

theorem isWritable_readList {v : Json} (hv : v.Regular Binary64.IsModest) {l : ItemList}
    (h : readList v = .ok l) : l.IsWritable := by
  cases v with
  | obj ms =>
    obtain ⟨es, hes, h⟩ := exists_of_bind_eq_ok h
    obtain ⟨entries, hentries, h⟩ := exists_of_bind_eq_ok h
    cases h
    have hnone : (Json.arr []).Regular Binary64.IsModest := .arr (List.forall_mem_nil _)
    have hregular := regular_of_elements? (regular_getD_member? hv "items" hnone)
      (elements_eq_ok_iff.1 hes)
    exact forall_of_mapM_eq_ok hentries fun e he _ hread =>
      isWritable_readEntry (hregular e he) hread
  | _ => cases h

/-- A list that was loaded can be written, unless the tags of some item have no order. -/
theorem isWritable_of_load {d : Disk} {p : Path} {l : ItemList} (h : load d p = .ok l) :
    l.IsWritable := by
  rw [load] at h
  split at h
  · cases h
  · cases h
    exact ItemList.isWritable_empty
  · split at h
    · cases h
    · next content _ =>
      have hdecode := eq_ok_of_mapError_eq_ok h
      rw [decode] at hdecode
      split at hdecode
      · cases hdecode
      · obtain ⟨v, hv, hread⟩ := exists_of_bind_eq_ok hdecode
        exact isWritable_readList (Json.regular_of_read (parse_eq_ok_iff.1 hv)) hread

end ListFile

end TodoLists
