import TodoLists.Proofs.Disk.ReadBack
import TodoLists.Proofs.Fault
import TodoLists.Proofs.ListFile.RoundTrip

/-!
# Files from which no list is loaded

A list file holds whatever somebody has put there. Most of what can be wrong with it is reported as
a fault of that file. Two things are not: a value that is no object where the whole file should be
one, and an id that is infinite, provided that nothing else was found wrong before it.
-/

namespace TodoLists

theorem Disk.has_of_read {d : Disk} {p : Path} {content : ByteArray} (h : d.read p = .ok content) :
    d.has p = .ok true := by
  obtain ⟨place, hlocate, h⟩ := exists_of_bind_eq_ok h
  rw [has, hlocate]
  split at h
  · next hnode => simp only [hnode, Option.isSome_some]
  · cases h
  · cases h

namespace ListFile

variable {d : Disk} {p : Path} {content : ByteArray}

/-! ### Causes that no rule foresees -/

/-- The cause is reported as a fault of no file. -/
def IsOverlooked (c : Cause) : Prop := c = .notAnObject ∨ c = .infiniteId

theorem loadFault_of_isOverlooked {c : Cause} (h : IsOverlooked c) :
    loadFault p c = .unforeseen c := by
  rcases h with rfl | rfl <;> rfl

theorem exists_loadFault_eq_listFile {c : Cause} (h : ¬ IsOverlooked c) :
    ∃ trouble, loadFault p c = .listFile p trouble c := by
  cases c with
  | notAnObject => exact absurd (Or.inl rfl) h
  | infiniteId => exact absurd (Or.inr rfl) h
  | _ => exact ⟨_, rfl⟩

/-- A value in which something is found that is reported as a fault of no file. -/
inductive Escapes : Json → Cause → Prop where
  | top {v : Json} (h : ∀ ms, v ≠ .obj ms) : Escapes v .notAnObject
  /-- The items before the one with the infinite id can be read. -/
  | id {ms fields : List (LooseText × Json)} {before after : List Json} {negative : Bool}
    (hitems : elements? ((Json.member? "items" ms).getD (.arr [])) =
      some (before ++ .obj fields :: after))
    (hbefore : ∀ e ∈ before, ∃ entry, readEntry e = .ok entry)
    (hid : Json.member? "id" fields = some (.float (.infinite negative))) :
    Escapes (.obj ms) .infiniteId

/-! ### One item -/

theorem elements_eq_error {v : Json} {c : Cause} (h : elements v = .error c) : c = .notAList := by
  rw [elements] at h
  split at h
  · cases h
  · exact (Except.error.inj h).symm

theorem elements_eq_ok_iff {v : Json} {es : List Json} :
    elements v = .ok es ↔ elements? v = some es := by
  rw [elements]
  split
  · next fs hfs => rw [hfs, Except.ok.injEq, Option.some.injEq]
  · next hnone => simp [hnone]

theorem member_eq_ok_iff {name : String} {ms : List (LooseText × Json)} {v : Json} :
    member name ms = .ok v ↔ Json.member? name ms = some v := by
  rw [member]
  split
  · next w hw => rw [hw, Except.ok.injEq, Option.some.injEq]
  · next hnone => simp [hnone]

theorem member_eq_error {name : String} {ms : List (LooseText × Json)} {c : Cause}
    (h : member name ms = .error c) : c = .noMember name := by
  rw [member] at h
  split at h
  · cases h
  · exact (Except.error.inj h).symm

theorem readId_eq_error {v : Json} {c : Cause} (h : readId v = .error c) :
    c = .notAnId ∨ c = .infiniteId ∧ ∃ negative, v = .float (.infinite negative) := by
  cases v with
  | int n | bool b => cases h
  | float x =>
    cases x with
    | infinite negative => exact Or.inr ⟨(Except.error.inj h).symm, negative, rfl⟩
    | nan => exact Or.inl (Except.error.inj h).symm
    | finite => cases h
  | str s =>
    rw [readId] at h
    split at h
    · cases h
    · exact Or.inl (Except.error.inj h).symm
  | null | arr es | obj ms => exact Or.inl (Except.error.inj h).symm

theorem readStatus_eq_error {v : Json} {c : Cause} (h : readStatus v = .error c) :
    c = .unknownStatus := by
  cases v with
  | str s =>
    rw [readStatus] at h
    split at h
    · cases h
    · exact (Except.error.inj h).symm
  | _ => exact (Except.error.inj h).symm

theorem readTags_eq_error {v : Json} {c : Cause} (h : readTags v = .error c) :
    c = .notAList ∨ c = .notAScalar := by
  rcases cases_of_bind_eq_error h with helements | ⟨es, -, h⟩
  · exact Or.inl (elements_eq_error helements)
  · split at h
    · cases h
    · exact Or.inr (Except.error.inj h).symm

/-- Of an item only an infinite id is overlooked. -/
theorem readEntry_eq_error {v : Json} {c : Cause} (h : readEntry v = .error c) :
    ¬ IsOverlooked c ∨ c = .infiniteId ∧ ∃ fields negative, v = .obj fields ∧
      Json.member? "id" fields = some (.float (.infinite negative)) := by
  cases v with
  | obj fields =>
    rcases cases_of_bind_eq_error h with hmember | ⟨w, hw, h⟩
    · obtain rfl := member_eq_error hmember
      exact Or.inl (by simp [IsOverlooked])
    rcases cases_of_bind_eq_error h with hid | ⟨id, -, h⟩
    · rcases readId_eq_error hid with rfl | ⟨rfl, negative, rfl⟩
      · exact Or.inl (by simp [IsOverlooked])
      · exact Or.inr ⟨rfl, fields, negative, rfl, member_eq_ok_iff.1 hw⟩
    rcases cases_of_bind_eq_error h with hname | ⟨name, -, h⟩
    · obtain rfl := member_eq_error hname
      exact Or.inl (by simp [IsOverlooked])
    rcases cases_of_bind_eq_error h with hstatus | ⟨status, -, h⟩
    · obtain rfl := readStatus_eq_error hstatus
      exact Or.inl (by simp [IsOverlooked])
    rcases cases_of_bind_eq_error h with htags | ⟨tags, -, h⟩
    · rcases readTags_eq_error htags with rfl | rfl <;> exact Or.inl (by simp [IsOverlooked])
    · cases h
  | _ =>
    cases h
    exact Or.inl (by simp [IsOverlooked])

theorem readEntry_of_infinite {fields : List (LooseText × Json)} {negative : Bool}
    (h : Json.member? "id" fields = some (.float (.infinite negative))) :
    readEntry (.obj fields) = .error .infiniteId := by
  rw [readEntry, member, h]
  rfl

/-! ### The whole file -/

theorem readList_eq_error_iff {v : Json} {c : Cause} (hc : IsOverlooked c) :
    readList v = .error c ↔ Escapes v c := by
  constructor
  · intro h
    cases v with
    | obj ms =>
      rcases cases_of_bind_eq_error h with helements | ⟨es, hes, h⟩
      · rw [elements_eq_error helements] at hc
        simp [IsOverlooked] at hc
      rcases cases_of_bind_eq_error h with hentries | ⟨entries, -, h⟩
      · obtain ⟨before, e, after, rfl, hbefore, he⟩ := exists_of_mapM_eq_error hentries
        obtain ⟨rfl, fields, negative, rfl, hid⟩ := (readEntry_eq_error he).resolve_left (· hc)
        exact .id (elements_eq_ok_iff.1 hes) hbefore hid
      · cases h
    | _ =>
      cases h
      exact .top fun ms => by simp
  · intro h
    cases h with
    | top h =>
      cases v with
      | obj ms => exact absurd rfl (h ms)
      | _ => rfl
    | id hitems hbefore hid =>
      rw [readList, elements, hitems]
      simp only [bind, Except.bind, mapM_eq_error hbefore (readEntry_of_infinite hid)]

theorem parse_eq_error {text : String} {c : Cause} (h : parse text = .error c) :
    ¬ IsOverlooked c := by
  rw [parse] at h
  split at h
  · cases h
  · cases h
    simp [IsOverlooked]
  · cases h
    simp [IsOverlooked]

theorem parse_eq_ok_iff {text : String} {v : Json} : parse text = .ok v ↔ Json.read text = .ok v := by
  rw [parse]
  split
  · next w hw => rw [hw, Except.ok.injEq, Except.ok.injEq]
  · next hw => simp [hw]
  · next hw => simp [hw]

/-- The bytes spell a value in which something of that kind is found. -/
def Escaping (content : ByteArray) (c : Cause) : Prop :=
  ∃ text v, String.fromUTF8? content = some text ∧ Json.read text = .ok v ∧ Escapes v c

theorem decode_eq_error_iff {c : Cause} (hc : IsOverlooked c) :
    decode content = .error c ↔ Escaping content c := by
  rw [decode, Escaping]
  cases htext : String.fromUTF8? content with
  | none =>
    constructor
    · intro h
      cases h
      simp [IsOverlooked] at hc
    · rintro ⟨_, _, h, -⟩
      cases h
  | some text =>
    simp only
    constructor
    · intro h
      rcases cases_of_bind_eq_error h with hparse | ⟨v, hv, h⟩
      · exact absurd hc (parse_eq_error hparse)
      · exact ⟨text, v, rfl, parse_eq_ok_iff.1 hv, (readList_eq_error_iff hc).1 h⟩
    · rintro ⟨_, v, ⟨⟩, hv, hescapes⟩
      rw [parse_eq_ok_iff.2 hv]
      exact (readList_eq_error_iff hc).2 hescapes

theorem load_of_read (h : d.read p = .ok content) :
    load d p = (decode content).mapError (loadFault p) := by
  rw [load, Disk.has_of_read h]
  simp only [h]

theorem Escaping.isOverlooked {c : Cause} (h : Escaping content c) : IsOverlooked c := by
  obtain ⟨text, v, -, -, hescapes⟩ := h
  cases hescapes with
  | top => exact Or.inl rfl
  | id => exact Or.inr rfl

/-- Loading a file gives a list or reports a fault of the file, unless the file holds a value that is
no object, or an item with an infinite id behind items that can be read. -/
theorem load_reported_iff (h : d.read p = .ok content) :
    ((∃ l, load d p = .ok l) ∨ ∃ trouble cause, load d p = .error (.listFile p trouble cause)) ↔
      ∀ c, ¬ Escaping content c := by
  rw [load_of_read h]
  constructor
  · intro hreported c hescaping
    have hc := hescaping.isOverlooked
    rw [(decode_eq_error_iff hc).2 hescaping] at hreported
    rcases hreported with ⟨l, hl⟩ | ⟨trouble, cause, hfault⟩
    · cases hl
    · cases (loadFault_of_isOverlooked hc).symm.trans (Except.error.inj hfault)
  · intro hnone
    cases hdecode : decode content with
    | ok l => exact Or.inl ⟨l, rfl⟩
    | error c =>
      have hc : ¬ IsOverlooked c := fun hc => hnone c ((decode_eq_error_iff hc).1 hdecode)
      obtain ⟨trouble, htrouble⟩ := exists_loadFault_eq_listFile (p := p) hc
      exact Or.inr ⟨trouble, c, congrArg Except.error htrouble⟩

/-! ### Files that hold one value -/

/-- Where the file is. -/
def shelf : Path := ⟨.root, ["shelf"]⟩

/-- A disk with one file, which holds a value. -/
def holding (v : Json) : Disk := ⟨[], [(["shelf"], .file v.write.toUTF8)]⟩

theorem locate_shelf (d : Disk) : d.locate shelf = .ok ["shelf"] := by cbv

theorem read_holding (v : Json) : (holding v).read shelf = .ok v.write.toUTF8 := by
  rw [Disk.read, locate_shelf]
  rfl

theorem load_holding {v : Json} (h : v.Regular fun _ => False) :
    load (holding v) shelf = (readList v).mapError (loadFault shelf) := by
  rw [load_of_read (read_holding v), decode_write h]

/-- Where the items should be there is a number. -/
theorem load_reported_iff_number : ∃ content,
    (holding (.obj [("items", .int 3)])).read shelf = .ok content ∧
      ((∃ l, load (holding (.obj [("items", .int 3)])) shelf = .ok l) ∨ ∃ trouble cause,
        load (holding (.obj [("items", .int 3)])) shelf = .error (.listFile shelf trouble cause)) := by
  have hregular : (Json.obj [("items", .int 3)]).Regular fun _ => False :=
    .obj (by simp) (List.forall_mem_singleton.2 (LooseText.isJoined_ofString _))
      (List.forall_mem_singleton.2 (.int (by decide)))
  have hread := read_holding (.obj [("items", .int 3)])
  refine ⟨_, hread, (load_reported_iff hread).2 ?_⟩
  rintro c ⟨text, v, htext, hv, hescapes⟩
  cases (fromUTF8?_toUTF8 _).symm.trans htext
  cases (Json.read_write hregular).symm.trans hv
  cases hescapes with
  | top h => exact h _ rfl
  | id hitems => cases hitems

/-- A file with an array in it fails in a way that is reported as a fault of no file. -/
theorem load_array_unreported :
    ¬ ∀ (d : Disk) (p : Path) (content : ByteArray), d.read p = .ok content →
      (∃ l, load d p = .ok l) ∨ ∃ trouble cause, load d p = .error (.listFile p trouble cause) := by
  intro hall
  have hload := load_holding (v := .arr []) (.arr (List.forall_mem_nil _))
  rcases hall _ _ _ (read_holding (.arr [])) with ⟨l, hl⟩ | ⟨trouble, cause, hfault⟩
  · cases hload.symm.trans hl
  · cases hload.symm.trans hfault

end ListFile

end TodoLists
