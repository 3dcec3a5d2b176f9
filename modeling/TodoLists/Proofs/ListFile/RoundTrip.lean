import TodoLists.Proofs.Disk.ReadBack
import TodoLists.Proofs.Json.Printable
import TodoLists.Proofs.ListFile.Storable

/-!
# List files are read back

Saving a list and loading the file gives the same list. The one thing in the way is the disk, and
for ids the longest numeral: an id beyond it cuts the text off where it would stand.
-/

namespace TodoLists

namespace Json

theorem allWritable_iff {es : List Json} :
    allWritable es = true ↔ ∀ e ∈ es, e.isWritable = true := by
  induction es with
  | nil => simp [allWritable]
  | cons e es ih => rw [allWritable, Bool.and_eq_true, ih, List.forall_mem_cons]

theorem membersWritable_iff {ms : List (LooseText × Json)} :
    membersWritable ms = true ↔ ∀ m ∈ ms, m.2.isWritable = true := by
  induction ms with
  | nil => simp [membersWritable]
  | cons m ms ih => rw [membersWritable, Bool.and_eq_true, ih, List.forall_mem_cons]

theorem Regular.isWritable {float : Binary64 → Prop} {v : Json} (h : v.Regular float) :
    v.isWritable = true := by
  induction h with
  | null | bool _ | float _ | str _ => rw [Json.isWritable] <;> exact nofun
  | int h => rwa [Json.isWritable]
  | arr _ ih => rwa [Json.isWritable, allWritable_iff]
  | obj _ _ _ ih => rwa [Json.isWritable, membersWritable_iff]

end Json

theorem fromUTF8?_toUTF8 (text : String) : String.fromUTF8? text.toUTF8 = some text :=
  dif_pos text.isValidUTF8

namespace ListFile

/-! ### Saving -/

/-- Only the disk can refuse a value whose numbers can be written. -/
theorem save_cases {l : ItemList} {v : Json} (hv : ofList? l = some v)
    (hwritable : v.isWritable = true) (d : Disk) (p : Path) :
    (∃ e, (save d p l).1 = .error (saveFault p e)) ∨
      (save d p l).1 = .ok () ∧ ∃ d' : Disk, d'.write p v.write.toUTF8 = .ok (save d p l).2 := by
  rw [save]
  split
  · next e d₁ _ => exact Or.inl ⟨e, rfl⟩
  · next d₁ _ =>
    split
    · next e _ => exact Or.inl ⟨e, rfl⟩
    · next d₂ _ =>
      rw [hv]
      simp only
      split
      · next e _ => exact Or.inl ⟨e, rfl⟩
      · next d₃ hwrite => exact Or.inr ⟨by rw [written, if_pos hwritable], d₂, hwrite⟩

/-- A file that can be opened is written. -/
theorem exists_save {l : ItemList} {v : Json} (hv : ofList? l = some v) {d d₁ d₂ : Disk} {p : Path}
    (hfolders : d.ensureFolders p.parent = (.ok (), d₁))
    (hopen : d₁.write p ByteArray.empty = .ok d₂) :
    ∃ d₃, d₂.write p v.write.toUTF8 = .ok d₃ ∧ save d p l = (written v, d₃) := by
  obtain ⟨d₃, hwrite⟩ := Disk.exists_write_of_write hopen v.write.toUTF8
  refine ⟨d₃, hwrite, ?_⟩
  rw [save, hfolders]
  simp only [hopen, hv, hwrite]

/-- A file that can be opened takes every list that can be stored. -/
theorem save_eq_ok {l : ItemList} (h : l.IsStorable) {d d₁ d₂ : Disk} {p : Path}
    (hfolders : d.ensureFolders p.parent = (.ok (), d₁))
    (hopen : d₁.write p ByteArray.empty = .ok d₂) : (save d p l).1 = .ok () := by
  obtain ⟨v, hv, hregular, -⟩ := exists_ofList? h
  obtain ⟨d₃, -, hsave⟩ := exists_save hv hfolders hopen
  rw [hsave, written, if_pos hregular.isWritable]

/-- What a file was written with is what is loaded from it. -/
theorem load_of_write {d d' : Disk} {p : Path} {content : ByteArray}
    (h : d.write p content = .ok d') : load d' p = (decode content).mapError (loadFault p) := by
  obtain ⟨hhas, hread⟩ := Disk.has_and_read_of_write h
  rw [load, hhas]
  simp only [hread]

theorem decode_write {v : Json} (h : v.Regular fun _ => False) :
    decode v.write.toUTF8 = readList v := by
  rw [decode, fromUTF8?_toUTF8]
  simp only [parse, Json.read_write h, bind, Except.bind]

/-- Saving leaves a file from which the same list is loaded, unless the disk refuses. -/
theorem load_after_save {l : ItemList} (h : l.IsStorable) (d : Disk) (p : Path) :
    (∃ e, (save d p l).1 = .error (saveFault p e)) ∨
      (save d p l).1 = .ok () ∧ ∃ m, load (save d p l).2 p = .ok m ∧ l.Same m := by
  obtain ⟨v, hv, hregular, m, hm, hsame⟩ := exists_ofList? h
  refine (save_cases hv hregular.isWritable d p).imp_right ?_
  rintro ⟨hok, d', hwrite⟩
  refine ⟨hok, m, ?_, hsame⟩
  rw [load_of_write hwrite, decode_write hregular, hm]
  rfl

/-- A list of texts and of ids with numerals is written as a printable text, and comes back from
it. -/
theorem load_save (l : ItemList) (h : l.IsStorable) :
    ∃ text m, print? l = some text ∧ Json.ArePrintable text.toList ∧
      decode text.toUTF8 = .ok m ∧ l.Same m ∧ (l.HasTexts → m = l) ∧
      ∀ d p, (∃ e, (save d p l).1 = .error (saveFault p e)) ∨
        (save d p l).1 = .ok () ∧ (save d p l).2.read p = .ok text.toUTF8 ∧
          load (save d p l).2 p = .ok m := by
  obtain ⟨v, hv, hregular, m, hm, hsame⟩ := exists_ofList? h
  have hdecode : decode v.write.toUTF8 = .ok m := (decode_write hregular).trans hm
  refine ⟨v.write, m, ?_, Json.arePrintable_write hregular, hdecode, hsame,
    fun hl => (hsame.eq_of_hasTexts hl).symm, fun d p => ?_⟩
  · rw [print?, hv]
    exact if_pos hregular.isWritable
  · refine (save_cases hv hregular.isWritable d p).imp_right ?_
    rintro ⟨hok, d', hwrite⟩
    refine ⟨hok, (Disk.has_and_read_of_write hwrite).2, ?_⟩
    rw [load_of_write hwrite, hdecode]
    rfl

/-- Two items under one negative id, one with a character outside the basic plane and one with a
lone surrogate. -/
def surrogates : ItemList :=
  ⟨[(⟨-7⟩, .ofTexts "say \"hi\"\\\n😀" "" .completed ["b", "a"]),
    (⟨-7⟩, ⟨.str ⟨[0xd83d]⟩, .str "", .waiting, ⟨.empty, [.str ⟨[0xdc00]⟩]⟩⟩)]⟩

theorem isJoined_singleton {n : Nat} (h : n < 0x110000) : (LooseText.mk [n]).IsJoined :=
  ⟨List.forall_mem_singleton.2 h, .singleton n⟩

theorem isStorable_surrogates : surrogates.IsStorable := by
  refine List.forall_mem_cons.2 ⟨⟨by decide, (Item.hasTexts_ofTexts _ _ _ _).loose⟩,
    List.forall_mem_singleton.2 ⟨by decide, ?_⟩⟩
  refine ⟨⟨_, rfl, isJoined_singleton (by decide)⟩, ⟨_, rfl, LooseText.isJoined_ofString ""⟩,
    ?_, ?_⟩
  · exact List.forall_mem_singleton.2 ⟨_, rfl, isJoined_singleton (by decide), by decide⟩
  · simp

theorem load_save_surrogates : surrogates.IsStorable ∧
    ∃ text m, print? surrogates = some text ∧ decode text.toUTF8 = .ok m ∧ surrogates.Same m := by
  obtain ⟨text, m, hprint, -, hdecode, hsame, -⟩ := load_save surrogates isStorable_surrogates
  exact ⟨isStorable_surrogates, text, m, hprint, hdecode, hsame⟩

/-! ### Texts that break off -/

end ListFile

namespace Json

theorem ReadsValue.of_bracket {r rest : List Char} {v : Json}
    (h : ReadsValue ('[' :: r) v rest) :
    (∃ rest, Starts ']' r rest) ∨ ∃ v rest, ReadsValue r v rest := by
  have hstarts : Starts '[' ('[' :: r) r := starts_cons (by decide) r
  cases h with
  | text hs | emptyObject hs | object hs => exact absurd (hs.char_eq hstarts) (by decide)
  | atom hs hc => exact absurd (hs.char_eq hstarts) hc.2.1
  | emptyArray hs h => exact Or.inl ⟨_, (List.cons.inj (hs.symm.trans hstarts)).2 ▸ h⟩
  | array hs h =>
    rw [(List.cons.inj (hs.symm.trans hstarts)).2] at h
    cases h with
    | last hv | cons hv => exact Or.inr ⟨_, _, hv⟩

theorem ReadsValue.of_brace {r rest : List Char} {v : Json} (h : ReadsValue ('{' :: r) v rest) :
    (∃ rest, Starts '}' r rest) ∨ ∃ ms rest, ReadsMembers r ms rest := by
  have hstarts : Starts '{' ('{' :: r) r := starts_cons (by decide) r
  cases h with
  | text hs | emptyArray hs | array hs => exact absurd (hs.char_eq hstarts) (by decide)
  | atom hs hc => exact absurd (hs.char_eq hstarts) hc.2.2
  | emptyObject hs h => exact Or.inl ⟨_, (List.cons.inj (hs.symm.trans hstarts)).2 ▸ h⟩
  | object hs h => exact Or.inr ⟨_, _, (List.cons.inj (hs.symm.trans hstarts)).2 ▸ h⟩

/-- After a brace and the name of a member there has to be a value. -/
theorem ReadsValue.of_member {name : LooseText} (hname : name.IsJoined) {depth : Nat}
    {s rest : List Char} {v : Json}
    (h : ReadsValue ('{' :: (Json.newline depth ++ quote name ++ ':' :: ' ' :: s)) v rest) :
    ∃ v rest, ReadsValue s v rest := by
  have hstarts := starts_member name depth s
  have hread := readsText_quote hname (':' :: ' ' :: s)
  have hcolon : Starts ':' (':' :: ' ' :: s) (' ' :: s) := starts_cons (by decide) _
  have hvalue : ∀ {s₁ s₂ s₃ s₄ : List Char} {t : LooseText} {v : Json},
      Starts '"' (Json.newline depth ++ quote name ++ ':' :: ' ' :: s) s₁ → ReadsText s₁ t s₂ →
      Starts ':' s₂ s₃ → ReadsValue s₃ v s₄ → ReadsValue s v s₄ := by
    intro s₁ s₂ s₃ s₄ t v h₁ h₂ h₃ hv
    obtain rfl := (List.cons.inj (h₁.symm.trans hstarts)).2
    cases h₂.symm.trans hread
    obtain rfl := (List.cons.inj (h₃.symm.trans hcolon)).2
    exact hv.of_skipSpace (List.dropWhile_cons_of_pos (by decide)).symm
  rcases h.of_brace with ⟨_, hclose⟩ | ⟨_, _, hmembers⟩
  · exact absurd (hclose.char_eq hstarts) (by decide)
  · cases hmembers with
    | last h₁ h₂ h₃ hv | cons h₁ h₂ h₃ hv => exact ⟨_, _, hvalue h₁ h₂ h₃ hv⟩

theorem not_readsValue_nil {v : Json} {rest : List Char} : ¬ ReadsValue [] v rest := by
  intro h
  cases h with
  | text hs | emptyArray hs | array hs | emptyObject hs | object hs | atom hs =>
    exact List.cons_ne_nil _ _ hs.symm

end Json

namespace ListFile

/-! ### Long ids -/

/-- A list with one item. -/
def single (id : Int) : ItemList := ⟨[(⟨id⟩, .ofTexts "x" "" .waiting [])]⟩

/-- The text of the file up to the first id. -/
def beforeId : List Char :=
  '{' :: (Json.newline 1 ++ Json.quote "items" ++ ':' :: ' ' :: '[' ::
    (Json.newline 2 ++ '{' :: (Json.newline 3 ++ Json.quote "id" ++ [':', ' '])))

/-- The text breaks off where the id would stand. -/
theorem exists_ofList?_single {id : Int} (h : Text.isWritable id = false) :
    ∃ v, ofList? (single id) = some v ∧ v.isWritable = false ∧
      v.write = String.ofList beforeId := by
  refine ⟨.obj [("items", .arr [entryOf (⟨id⟩, .ofTexts "x" "" .waiting []) []])], rfl, ?_, ?_⟩
  · simp only [Json.isWritable, Json.membersWritable, Json.allWritable, entryOf, h, Bool.false_and]
  · rw [Json.write, Json.writeAt, Json.writeAt, Json.writeMembers, Json.writeElements, entryOf,
      Json.writeAt, Json.writeAt, h]
    rfl

theorem read_beforeId (v : Json) : Json.read (String.ofList beforeId) ≠ .ok v := by
  intro h
  obtain ⟨rest, hv, -⟩ := Json.read_eq_ok_iff.1 h
  rw [String.toList_ofList] at hv
  obtain ⟨_, _, harray⟩ := hv.of_member (LooseText.isJoined_ofString "items")
  have hbrace : ∀ s, Json.Starts '{' (Json.newline 2 ++ '{' :: s) s :=
    fun s => (Json.starts_cons (by decide) s).newline 2
  rcases harray.of_bracket with ⟨_, hclose⟩ | ⟨_, _, hentry⟩
  · exact absurd (hclose.char_eq (hbrace _)) (by decide)
  · obtain ⟨_, _, hid⟩ := (hentry.of_skipSpace (Json.skipSpace_newline 2 _).symm).of_member
      (LooseText.isJoined_ofString "id")
    exact Json.not_readsValue_nil hid

/-- A list with a number of 4301 digits for an id is not saved, although the disk has a place for
it, and what is left cannot be loaded. -/
theorem save_refuses_long_id :
    ¬ ∀ l : ItemList, l.HasTexts → ∀ d p, (∃ e, (save d p l).1 = .error (saveFault p e)) ∨
      ∃ m, load (save d p l).2 p = .ok m ∧ l.Same m := by
  intro hall
  have htexts : (single (10 ^ Text.maxDigits : Nat)).HasTexts :=
    List.forall_mem_singleton.2 (Item.hasTexts_ofTexts _ _ _ _)
  obtain ⟨v, hv, hwritable, htext⟩ := exists_ofList?_single Text.isWritable_ten_pow
  let path : Path := ⟨.root, ["l"]⟩
  have hfolders : (Disk.mk [] []).ensureFolders path.parent = (.ok (), Disk.mk [] []) := by
    rw [Disk.ensureFolders]
    rfl
  have hlocate : (Disk.mk [] []).locate path = .ok ["l"] := by cbv
  obtain ⟨d, hwrite, hsave⟩ := exists_save hv hfolders
    (Disk.write_eq_ok_iff.2 ⟨_, hlocate, by decide, rfl⟩)
  rcases hall _ htexts (Disk.mk [] []) path with ⟨e, he⟩ | ⟨m, hm, -⟩
  · rw [hsave, written, hwritable] at he
    cases e <;> cases he
  · rw [hsave, load_of_write hwrite, htext, decode, fromUTF8?_toUTF8] at hm
    simp only [parse] at hm
    split at hm
    · next w hw => exact read_beforeId w hw
    · cases hm
    · cases hm

end ListFile

end TodoLists
