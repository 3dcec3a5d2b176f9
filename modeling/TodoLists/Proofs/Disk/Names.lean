import TodoLists.Proofs.Disk.Places
import TodoLists.Proofs.Json.Texts

/-!
# Names and paths as they are spelled

A path is kept in the configuration as a text. When its parts are names, the text leads back to the
path: the slashes stand between the names and nowhere else. On the disk a name has one spelling, and
a name of characters is spelled as it is.
-/

namespace TodoLists

/-! ### Spelling byte by byte -/

namespace DiskName

variable {a b c d n : Nat}

theorem ofTwo?_eq_some (h : ofTwo? a b = some n) : 0xdcc2 ≤ a ∧ a < 0xdcf8 ∧ 0x80 ≤ n := by
  obtain ⟨m, hm, h⟩ := Option.bind_eq_some_iff.1 h
  simp only [Option.ite_none_right_eq_some, Option.some.injEq] at h
  omega

theorem ofThree?_eq_some (h : ofThree? a b c = some n) : 0xdcc2 ≤ a ∧ a < 0xdcf8 ∧ 0x80 ≤ n := by
  obtain ⟨m, -, h⟩ := Option.bind_eq_some_iff.1 h
  obtain ⟨m', -, h⟩ := Option.bind_eq_some_iff.1 h
  simp only [Option.ite_none_right_eq_some, Option.some.injEq] at h
  omega

theorem ofFour?_eq_some (h : ofFour? a b c d = some n) : 0xdcc2 ≤ a ∧ a < 0xdcf8 ∧ 0x80 ≤ n := by
  obtain ⟨m, -, h⟩ := Option.bind_eq_some_iff.1 h
  obtain ⟨m', -, h⟩ := Option.bind_eq_some_iff.1 h
  obtain ⟨m'', -, h⟩ := Option.bind_eq_some_iff.1 h
  simp only [Option.ite_none_right_eq_some, Option.some.injEq] at h
  omega

/-- A character that is spelled byte by byte is none of the first 128, and its first byte is no
character. -/
theorem spelled?_eq_some {k : Nat} {ns : List Nat} (h : spelled? (a :: ns) = some (n, k)) :
    0xdcc2 ≤ a ∧ a < 0xdcf8 ∧ 0x80 ≤ n := by
  have hor : ∀ {x y : Option (Nat × Nat)}, (x <|> y) = some (n, k) →
      x = some (n, k) ∨ y = some (n, k) := by
    rintro (_ | p) y h
    · exact Or.inr h
    · exact Or.inl h
  have hmap : ∀ {x : Option Nat} {j : Nat}, (x.map fun m => (m, j)) = some (n, k) → x = some n := by
    rintro (_ | m) j h
    · cases h
    · cases h
      rfl
  rcases ns with _ | ⟨b, rest⟩
  · cases h
  · rcases hor h with h | h
    · exact ofTwo?_eq_some (hmap h)
    · rcases rest with _ | ⟨c, rest⟩
      · cases h
      · rcases hor h with h | h
        · exact ofThree?_eq_some (hmap h)
        · rcases rest with _ | ⟨d, rest⟩
          · cases h
          · exact ofFour?_eq_some (hmap h)

/-- Nothing is spelled byte by byte in a name of characters. -/
theorem joinBytes_eq_self {ns : List Nat} (h : ∀ n ∈ ns, isSurrogate n = false) :
    joinBytes ns = ns := by
  induction ns with
  | nil => rw [joinBytes]
  | cons a ns ih =>
    obtain ⟨ha, hns⟩ := List.forall_mem_cons.1 h
    rw [joinBytes]
    split
    · next hspelled =>
      have := spelled?_eq_some hspelled
      simp [isSurrogate] at ha
      omega
    · rw [ih hns]

theorem isSurrogate_toNat (c : Char) : isSurrogate c.toNat = false := by
  have hvalid : c.toNat < 0xd800 ∨ 0xdfff < c.toNat ∧ c.toNat < 0x110000 := c.valid
  simp only [isSurrogate, Bool.and_eq_false_iff, decide_eq_false_iff_not]
  omega

theorem normalize_ofString (s : String) : normalize (.ofString s) = .ofString s := by
  have hchars : ∀ n ∈ (LooseText.ofString s).points, isSurrogate n = false :=
    List.forall_mem_map.2 fun c _ => isSurrogate_toNat c
  rw [normalize, joinBytes_eq_self hchars]

/-- What is spelled with the first 128 characters alone is spelled in no other way. -/
theorem eq_of_joinBytes_eq {ns ms : List Nat} (hms : ∀ m ∈ ms, m < 0x80)
    (h : joinBytes ns = ms) : ns = ms := by
  induction ms generalizing ns with
  | nil =>
    cases ns with
    | nil => rfl
    | cons n ns =>
      rw [joinBytes] at h
      split at h <;> cases h
  | cons m ms ih =>
    obtain ⟨hm, hrest⟩ := List.forall_mem_cons.1 hms
    cases ns with
    | nil =>
      rw [joinBytes] at h
      cases h
    | cons n ns =>
      rw [joinBytes] at h
      split at h
      · next hspelled =>
        obtain ⟨rfl, -⟩ := List.cons.inj h
        have := spelled?_eq_some hspelled
        omega
      · obtain ⟨rfl, htail⟩ := List.cons.inj h
        rw [ih hrest htail]

theorem normalize_eq_up_iff {t : LooseText} : normalize t = Path.up ↔ t = Path.up := by
  constructor
  · intro h
    have hpoints : joinBytes t.points = Path.up.points := congrArg LooseText.points h
    have hlow : ∀ m ∈ Path.up.points, m < 0x80 := by decide
    exact congrArg LooseText.mk (eq_of_joinBytes_eq hlow hpoints)
  · rintro rfl
    exact normalize_ofString ".."

end DiskName

/-! ### Names -/

/-- A name that can stand in a path and that something on a disk can have. -/
structure LooseText.IsName (t : LooseText) : Prop where
  slash : Path.slash ∉ t.points
  empty : t ≠ ""
  dot : t ≠ "."
  spelled : ∀ n ∈ t.points, n < 0x110000 ∧ (DiskName.isSurrogate n = true → DiskName.isByte n = true)

/-- A text that is a part of the path it is read in. -/
structure LooseText.IsPart (t : LooseText) : Prop where
  slash : Path.slash ∉ t.points
  empty : t ≠ ""
  dot : t ≠ "."

theorem LooseText.IsName.isPart {t : LooseText} (h : t.IsName) : t.IsPart :=
  ⟨h.slash, h.empty, h.dot⟩

theorem LooseText.isName_ofString {s : String} (hs : '/' ∉ s.toList ∧ s ≠ "" ∧ s ≠ ".") :
    (ofString s).IsName where
  slash hmem := by
    obtain ⟨c, hc, heq⟩ := List.mem_map.1 hmem
    obtain rfl : c = '/' := Char.toNat_inj.1 heq
    exact hs.1 hc
  empty h := hs.2.1 (ofString_inj.1 h)
  dot h := hs.2.2 (ofString_inj.1 h)
  spelled := List.forall_mem_map.2 fun c _ => ⟨toNat_lt c, by simp [DiskName.isSurrogate_toNat]⟩

namespace Path

variable {parts done : List LooseText} {part : LooseText}

/-! ### Going on -/

/-- The path with more names on the way. -/
def extend (p : Path) (more : List LooseText) : Path := { p with parts := p.parts ++ more }

theorem extend_extend (p : Path) (more more' : List LooseText) :
    (p.extend more).extend more' = p.extend (more ++ more') := by
  rw [extend, extend, extend, List.append_assoc]

theorem partsFrom_extend (p : Path) (folder more : List LooseText) :
    (p.extend more).partsFrom folder = p.partsFrom folder ++ more := by
  rw [partsFrom, partsFrom, extend]
  cases p.start <;> simp

/-! ### Leading back up -/

theorem foldl_up_eq_append (h : up ∉ parts) : parts.foldl
    (fun done part => if part = up then done.dropLast else done ++ [part]) done = done ++ parts := by
  induction parts generalizing done with
  | nil => simp
  | cons part parts ih =>
    obtain ⟨hpart, hparts⟩ := not_or.1 (mt List.mem_cons.2 h)
    rw [List.foldl_cons, if_neg (Ne.symm hpart), ih hparts, List.append_assoc]
    rfl

theorem collapse_append (done : List LooseText) (h : up ∉ parts) :
    collapse (done ++ parts) = collapse done ++ parts := by
  rw [collapse, List.foldl_append, foldl_up_eq_append h, collapse]

theorem collapse_eq_self (h : up ∉ parts) : collapse parts = parts :=
  collapse_append [] h

theorem mem_collapse (h : part ∈ collapse parts) : part ∈ parts ∧ part ≠ up := by
  induction parts using List.reverseRecOn with
  | nil => cases h
  | append_singleton parts last ih =>
    rw [collapse, List.foldl_append, ← collapse] at h
    simp only [List.foldl_cons, List.foldl_nil] at h
    split at h
    · have := ih (List.dropLast_subset _ h)
      exact ⟨List.mem_append_left _ this.1, this.2⟩
    · next hlast =>
      rcases List.mem_append.1 h with h | h
      · have := ih h
        exact ⟨List.mem_append_left _ this.1, this.2⟩
      · cases List.mem_singleton.1 h
        exact ⟨by simp, hlast⟩

/-! ### Paths and their texts -/

theorem splitOn_mem {x : Nat} {ns piece : List Nat} (h : piece ∈ ns.splitOn x) :
    x ∉ piece ∧ ∀ n ∈ piece, n ∈ ns := by
  induction ns generalizing piece with
  | nil =>
    rw [List.splitOn_nil, List.mem_singleton] at h
    subst h
    exact ⟨List.not_mem_nil, nofun⟩
  | cons n ns ih =>
    rw [List.splitOn_cons_eq_if_modifyHead] at h
    split at h
    · rcases List.mem_cons.1 h with rfl | h
      · exact ⟨List.not_mem_nil, nofun⟩
      · exact ⟨(ih h).1, fun m hm => List.mem_cons_of_mem _ ((ih h).2 m hm)⟩
    · next hn =>
      obtain ⟨first, rest, hsplit⟩ := List.exists_cons_of_ne_nil (List.splitOn_ne_nil x ns)
      rw [hsplit] at h ih
      rcases List.mem_cons.1 h with rfl | h
      · have hfirst := ih List.mem_cons_self
        have hne : x ≠ n := fun e => hn (beq_iff_eq.2 e.symm)
        refine ⟨fun hx => ?_, fun m hm => ?_⟩
        · exact (List.mem_cons.1 hx).elim hne hfirst.1
        · exact (List.mem_cons.1 hm).elim (fun e => e ▸ List.mem_cons_self)
            fun hm => List.mem_cons_of_mem _ (hfirst.2 m hm)
      · have hpiece := ih (List.mem_cons_of_mem _ h)
        exact ⟨hpiece.1, fun m hm => List.mem_cons_of_mem _ (hpiece.2 m hm)⟩

theorem parts_ofText (t : LooseText) : (ofText t).parts =
    ((t.points.splitOn slash).map LooseText.mk).filter fun p =>
      p != .ofString "" && p != .ofString "." := by
  rw [ofText, List.splitOn_eq_splitOnP]

theorem isPart_of_mem_ofText {t : LooseText} (h : part ∈ (ofText t).parts) :
    part.IsPart ∧ ∀ n ∈ part.points, n ∈ t.points := by
  rw [parts_ofText] at h
  obtain ⟨hpiece, hkept⟩ := List.mem_filter.1 h
  obtain ⟨points, hpoints, rfl⟩ := List.mem_map.1 hpiece
  obtain ⟨hslash, hmem⟩ := splitOn_mem hpoints
  simp only [Bool.and_eq_true, bne_iff_ne] at hkept
  exact ⟨⟨hslash, hkept.1, hkept.2⟩, hmem⟩

theorem isName_of_mem_ofString {s : String} (h : part ∈ (ofString s).parts) : part.IsName := by
  obtain ⟨hpart, hmem⟩ := isPart_of_mem_ofText h
  refine ⟨hpart.slash, hpart.empty, hpart.dot, fun n hn => ?_⟩
  obtain ⟨c, -, rfl⟩ := List.mem_map.1 (hmem n hn)
  exact ⟨toNat_lt c, by simp [DiskName.isSurrogate_toNat]⟩

theorem startOf_of_head? {points : List Nat} (h : points.head? ≠ some slash) :
    startOf points = .here := by
  cases points with
  | nil => rfl
  | cons n points =>
    have hn : (n == slash) = false := beq_eq_false_iff_ne.2 fun e => h (congrArg some e)
    rw [startOf, List.takeWhile_cons_of_neg (by simp [hn])]
    rfl

theorem ofString_of_isName {s : String} (h : (LooseText.ofString s).IsName) :
    ofString s = ⟨.here, [.ofString s]⟩ := by
  have hparts : (ofString s).parts = [.ofString s] := by
    rw [ofString, parts_ofText, List.splitOn_eq_singleton h.slash]
    simp [h.empty, h.dot]
  have hstart : (ofString s).start = .here :=
    startOf_of_head? fun hhead => h.slash (List.mem_of_head? hhead)
  exact congr (congrArg Path.mk hstart) hparts

theorem div_ofString (p : Path) {s : String} (h : (LooseText.ofString s).IsName) :
    p / ofString s = p.extend [.ofString s] := by
  rw [ofString_of_isName h]
  rfl

/-- One slash at the start, and not two. -/
theorem startOf_slash {points : List Nat} (h : points.head? ≠ some slash) :
    startOf (slash :: points) = .root := by
  cases points with
  | nil => rfl
  | cons n points =>
    have hn : (n == slash) = false := beq_eq_false_iff_ne.2 fun e => h (congrArg some e)
    rw [startOf, List.takeWhile_cons_of_pos (by decide), List.takeWhile_cons_of_neg (by simp [hn])]
    rfl

theorem startOf_doubleSlash {points : List Nat} (h : points.head? ≠ some slash) :
    startOf (slash :: slash :: points) = .doubleRoot := by
  cases points with
  | nil => rfl
  | cons n points =>
    have hn : (n == slash) = false := beq_eq_false_iff_ne.2 fun e => h (congrArg some e)
    rw [startOf, List.takeWhile_cons_of_pos (by decide), List.takeWhile_cons_of_pos (by decide),
      List.takeWhile_cons_of_neg (by simp [hn])]
    rfl

/-- A slash at the start parts nothing from nothing. -/
theorem parts_ofText_slash (points : List Nat) :
    (ofText ⟨slash :: points⟩).parts = (ofText ⟨points⟩).parts := by
  rw [parts_ofText, parts_ofText, List.splitOn_cons_eq_if_modifyHead,
    if_pos (beq_self_eq_true _), List.map_cons, List.filter_cons_of_neg (by decide)]

theorem splitOn_parts (h : ∀ part ∈ parts, part.IsPart) (hparts : parts ≠ []) :
    (List.intercalate [slash] (parts.map LooseText.points)).splitOn slash =
      parts.map LooseText.points := by
  apply List.splitOn_intercalate
  · exact List.forall_mem_map.2 fun part hpart => (h part hpart).slash
  · exact mt List.map_eq_nil_iff.1 hparts

/-- The text of a path is read as the same path. -/
theorem ofText_toText_of_isPart {p : Path} (h : ∀ part ∈ p.parts, part.IsPart) :
    ofText p.toText = p := by
  obtain ⟨start, parts⟩ := p
  have hkeep : parts.filter (fun p => p != .ofString "" && p != .ofString ".") = parts := by
    rw [List.filter_eq_self]
    intro part hpart
    simp [bne_iff_ne, (h part hpart).empty, (h part hpart).dot]
  cases parts with
  | nil => cases start <;> decide
  | cons part rest =>
    have hsplit := splitOn_parts h (List.cons_ne_nil part rest)
    have hhead : (List.intercalate [slash] ((part :: rest).map LooseText.points)).head? ≠
        some slash := by
      intro hhead
      obtain ⟨points, hpoints⟩ := List.head?_eq_some_iff.1 hhead
      rw [hpoints, List.splitOn_cons_eq_if_modifyHead, if_pos (beq_self_eq_true _)] at hsplit
      exact (h part List.mem_cons_self).empty
        (congrArg LooseText.mk (List.cons.inj hsplit).1.symm)
    have hmk : LooseText.mk ∘ LooseText.points = id := rfl
    have hparts : (ofText ⟨List.intercalate [slash] ((part :: rest).map LooseText.points)⟩).parts =
        part :: rest := by
      rw [parts_ofText, hsplit, List.map_map, hmk, List.map_id, hkeep]
    cases start with
    | here => exact congr (congrArg Path.mk (startOf_of_head? hhead)) hparts
    | root =>
      exact congr (congrArg Path.mk (startOf_slash hhead)) ((parts_ofText_slash _).trans hparts)
    | doubleRoot =>
      exact congr (congrArg Path.mk (startOf_doubleSlash hhead))
        ((parts_ofText_slash _).trans ((parts_ofText_slash _).trans hparts))

/-- Reading a text as a path, and the text of the path again, leads to the same path. -/
theorem ofText_toText_ofText (t : LooseText) : ofText (ofText t).toText = ofText t :=
  ofText_toText_of_isPart fun _ hpart => (isPart_of_mem_ofText hpart).1

/-- The text of a path from the root is read as the same path. -/
theorem ofText_toText (h : ∀ part ∈ parts, part.IsName) :
    ofText (toText ⟨.root, parts⟩) = ⟨.root, parts⟩ :=
  ofText_toText_of_isPart fun part hpart => (h part hpart).isPart

theorem mem_intercalate {n x : Nat} {pieces : List (List Nat)}
    (h : n ∈ List.intercalate [x] pieces) : n = x ∨ ∃ piece ∈ pieces, n ∈ piece := by
  match pieces with
  | [] => cases h
  | [piece] => exact Or.inr ⟨piece, by simp, by simpa [List.intercalate] using h⟩
  | piece :: next :: rest =>
    have hsplit : List.intercalate [x] (piece :: next :: rest) =
        piece ++ x :: List.intercalate [x] (next :: rest) := by simp [List.intercalate]
    rw [hsplit, List.mem_append, List.mem_cons] at h
    rcases h with h | h | h
    · exact Or.inr ⟨piece, by simp, h⟩
    · exact Or.inl h
    · exact (mem_intercalate h).imp_right fun ⟨p, hp, hn⟩ => ⟨p, List.mem_cons_of_mem _ hp, hn⟩

theorem isJoined_toText (h : ∀ part ∈ parts, part.IsName) : (toText ⟨.root, parts⟩).IsJoined := by
  have hspelled : ∀ n ∈ (toText ⟨.root, parts⟩).points, n < 0x110000 ∧
      (DiskName.isSurrogate n = true → DiskName.isByte n = true) := by
    intro n hn
    have hslash : slash < 0x110000 ∧ (DiskName.isSurrogate slash = true →
      DiskName.isByte slash = true) := by decide
    rcases List.mem_cons.1 hn with rfl | hn
    · exact hslash
    · rcases mem_intercalate hn with rfl | ⟨piece, hpiece, hn⟩
      · exact hslash
      · obtain ⟨part, hpart, rfl⟩ := List.mem_map.1 hpiece
        exact (h part hpart).spelled n hn
  refine ⟨fun n hn => (hspelled n hn).1, List.Pairwise.isChain ?_⟩
  refine List.pairwise_of_forall_mem_list fun a ha b _ hpair => ?_
  have hhigh := Json.isHighSurrogate_eq_true_iff.1 hpair.1
  have hbyte := (hspelled a ha).2 (by simp [DiskName.isSurrogate]; omega)
  simp [DiskName.isByte] at hbyte
  omega

end Path

end TodoLists
