import TodoLists.Proofs.ListFile.Storable

/-!
# The layout of list files

A file in the layout that this program writes holds an object with the items, each an object with a
number for its id and texts for everything else. Whatever else such objects hold is passed over, and
everything but the id and the name may be left out. From a file in this layout a list is loaded, and
it can be stored again.
-/

namespace TodoLists.ListFile

/-- The members of one item. -/
structure IsEntry (ms : List (LooseText × Json)) : Prop where
  id : ∃ n, Json.member? "id" ms = some (.int n)
  name : ∃ t, Json.member? "name" ms = some (.str t)
  description : ∀ v ∈ Json.member? "description" ms, ∃ t, v = .str t
  status : ∀ v ∈ Json.member? "status" ms, ∃ s : Status, v = .str s.name
  tags : ∀ v ∈ Json.member? "tags" ms, ∃ es, v = .arr es ∧ ∀ e ∈ es, ∃ t, e = .str t

/-- The value of a file in the layout. -/
def HasLayout (v : Json) : Prop :=
  ∃ ms, v = .obj ms ∧ ∀ items ∈ Json.member? "items" ms,
    ∃ es, items = .arr es ∧ ∀ e ∈ es, ∃ fields, e = .obj fields ∧ IsEntry fields

/-! ### Reading -/

/-- A member of a value that was read is like one that was read. -/
theorem regular_of_member? {ms : List (LooseText × Json)} {float : Binary64 → Prop}
    (h : (Json.obj ms).Regular float) {name : String} {v : Json}
    (hv : Json.member? name ms = some v) : v.Regular float := by
  obtain ⟨m, hm, rfl⟩ := Option.map_eq_some_iff.1 hv
  cases h with
  | obj _ _ h => exact h m (List.mem_of_find?_eq_some hm)

theorem isJoined_of_regular {float : Binary64 → Prop} {t : LooseText}
    (h : (Json.str t).Regular float) : t.IsJoined := by
  cases h with
  | str h => exact h

/-- What holds of a member wherever it is given, and of its default, holds of its value. -/
theorem getD_of_forall {P : Json → Prop} {given : Option Json} {default : Json}
    (h : ∀ v ∈ given, P v) (hdefault : P default) : P (given.getD default) := by
  cases given with
  | none => exact hdefault
  | some v => exact h v rfl

theorem readEntry_of_isEntry {ms : List (LooseText × Json)} {float : Binary64 → Prop}
    (h : IsEntry ms) (hregular : (Json.obj ms).Regular float) :
    ∃ e, readEntry (.obj ms) = .ok e ∧ Text.isWritable e.1.value = true ∧ e.2.HasLooseTexts := by
  obtain ⟨n, hid⟩ := h.id
  obtain ⟨name, hname⟩ := h.name
  have hwritable : Text.isWritable n = true := by
    cases regular_of_member? hregular hid with
    | int h => exact h
  have hjoined : ∀ {member : String} {t : LooseText},
      Json.member? member ms = some (.str t) → t.IsJoined :=
    fun hmember => isJoined_of_regular (regular_of_member? hregular hmember)
  obtain ⟨description, hdescription, hdescriptionJoined⟩ :
      ∃ t, (Json.member? "description" ms).getD (.str "") = .str t ∧ t.IsJoined := by
    refine getD_of_forall (P := fun v => ∃ t, v = .str t ∧ t.IsJoined) (fun v hv => ?_)
      ⟨_, rfl, LooseText.isJoined_ofString ""⟩
    obtain ⟨t, rfl⟩ := h.description v hv
    exact ⟨t, rfl, hjoined hv⟩
  obtain ⟨status, hstatus⟩ : ∃ s : Status,
      (Json.member? "status" ms).getD (.str Status.default.name) = .str s.name :=
    getD_of_forall (P := fun v => ∃ s : Status, v = .str s.name) h.status ⟨_, rfl⟩
  obtain ⟨es, htags, hes⟩ : ∃ es, (Json.member? "tags" ms).getD (.arr []) = .arr es ∧
      ∀ e ∈ es, ∃ t, e = .str t ∧ t.IsJoined := by
    refine getD_of_forall
      (P := fun v => ∃ es, v = .arr es ∧ ∀ e ∈ es, ∃ t, e = .str t ∧ t.IsJoined) (fun v hv => ?_)
      ⟨[], rfl, fun e he => absurd he List.not_mem_nil⟩
    obtain ⟨es, rfl, hes⟩ := h.tags v hv
    refine ⟨es, rfl, fun e he => ?_⟩
    obtain ⟨t, rfl⟩ := hes e he
    cases regular_of_member? hregular hv with
    | arr h => exact ⟨t, rfl, isJoined_of_regular (h _ he)⟩
  refine ⟨(⟨n⟩, ⟨.str name, .str description, status, .ofScalars es⟩), ?_, hwritable,
    ⟨name, rfl, hjoined hname⟩, ⟨description, rfl, hdescriptionJoined⟩, Tags.areTexts_ofScalars hes⟩
  rw [readEntry]
  simp only [member, hid, hname, hdescription, hstatus, htags, readId, readStatus_name,
    readTags_strs fun e he => (hes e he).imp fun _ ht => ht.1, bind, Except.bind]
  rfl

theorem mapM_readEntry_of_isEntry {es : List Json} {float : Binary64 → Prop}
    (h : ∀ e ∈ es, ∃ ms, e = .obj ms ∧ IsEntry ms) (hregular : ∀ e ∈ es, e.Regular float) :
    ∃ entries, es.mapM readEntry = .ok entries ∧ ItemList.IsStorable ⟨entries⟩ := by
  induction es with
  | nil => exact ⟨[], rfl, fun e he => absurd he List.not_mem_nil⟩
  | cons e es ih =>
    obtain ⟨⟨ms, rfl, hentry⟩, htail⟩ := List.forall_mem_cons.1 h
    obtain ⟨hfirst, hrest⟩ := List.forall_mem_cons.1 hregular
    obtain ⟨entry, hread, hstorable⟩ := readEntry_of_isEntry hentry hfirst
    obtain ⟨entries, hreads, hstorables⟩ := ih htail hrest
    refine ⟨entry :: entries, ?_, List.forall_mem_cons.2 ⟨hstorable, hstorables⟩⟩
    rw [List.mapM_cons, hread, hreads]
    rfl

/-- A list that can be stored is read from every value in the layout that a text can stand for. -/
theorem readList_of_hasLayout {v : Json} {float : Binary64 → Prop} (h : HasLayout v)
    (hregular : v.Regular float) : ∃ l, readList v = .ok l ∧ l.IsStorable := by
  obtain ⟨ms, rfl, hitems⟩ := h
  obtain ⟨es, hes, hentries, hregulars⟩ :
      ∃ es, (Json.member? "items" ms).getD (.arr []) = .arr es ∧
        (∀ e ∈ es, ∃ fields, e = .obj fields ∧ IsEntry fields) ∧ ∀ e ∈ es, e.Regular float := by
    refine getD_of_forall (P := fun v => ∃ es, v = .arr es ∧
      (∀ e ∈ es, ∃ fields, e = .obj fields ∧ IsEntry fields) ∧ ∀ e ∈ es, e.Regular float)
      (fun v hv => ?_) ⟨[], rfl, by simp, by simp⟩
    obtain ⟨es, rfl, hes⟩ := hitems v hv
    cases regular_of_member? hregular hv with
    | arr h => exact ⟨es, rfl, hes, h⟩
  obtain ⟨entries, hread, hstorable⟩ := mapM_readEntry_of_isEntry hentries hregulars
  refine ⟨⟨entries⟩, ?_, hstorable⟩
  rw [readList]
  simp only [hes, elements, elements?, bind, Except.bind, hread]
  rfl

/-! ### Loading -/

/-- There is no file yet, or there is one in the layout. -/
def IsReadable (d : Disk) (p : Path) : Prop :=
  d.has p = .ok false ∨ ∃ content text v, d.has p = .ok true ∧ d.read p = .ok content ∧
    String.fromUTF8? content = some text ∧ Json.read text = .ok v ∧ HasLayout v

theorem load_of_isReadable {d : Disk} {p : Path} (h : IsReadable d p) :
    ∃ l, load d p = .ok l ∧ l.IsStorable := by
  rcases h with hnone | ⟨content, text, v, hhas, hread, htext, hvalue, hlayout⟩
  · refine ⟨.empty, ?_, fun e he => absurd he List.not_mem_nil⟩
    rw [load, hnone]
  · obtain ⟨l, hl, hstorable⟩ := readList_of_hasLayout hlayout (Json.regular_of_read hvalue)
    refine ⟨l, ?_, hstorable⟩
    rw [load, hhas]
    simp only [hread, decode, htext, parse, hvalue, bind, Except.bind, hl]
    rfl

end TodoLists.ListFile
