import TodoLists.Proofs.Json.Grammar

/-!
# Written values are read back

A value without floating numbers comes back from the text that is written of it, when its numbers
are not too long and its texts are joined. Everything that is read from a text is of this kind, but
for floating numbers.
-/

namespace TodoLists.Json

/-- All whole numbers can be written, all texts are joined, and no object has a name twice. What
floating numbers there may be is left open. -/
inductive Regular (float : Binary64 → Prop) : Json → Prop where
  | null : Regular float null
  | bool (b : Bool) : Regular float (bool b)
  | int {n : Int} (h : Text.isWritable n = true) : Regular float (int n)
  | float {x : Binary64} (h : float x) : Regular float (.float x)
  | str {t : LooseText} (h : t.IsJoined) : Regular float (str t)
  | arr {es : List Json} (h : ∀ e ∈ es, Regular float e) : Regular float (arr es)
  | obj {ms : List (LooseText × Json)} (hdistinct : (ms.map (·.1)).Nodup)
      (hnames : ∀ m ∈ ms, m.1.IsJoined) (h : ∀ m ∈ ms, Regular float m.2) : Regular float (obj ms)

/-! ### Names of members -/

theorem foldl_putMember {ms done : List (LooseText × Json)}
    (h : ((done ++ ms).map (·.1)).Nodup) :
    ms.foldl (fun ms m => putMember m.1 m.2 ms) done = done ++ ms := by
  induction ms generalizing done with
  | nil => rw [List.foldl_nil, List.append_nil]
  | cons m ms ih =>
    have hm : m.1 ∉ done.map (·.1) := by
      rw [List.map_append, List.map_cons, List.nodup_append] at h
      exact fun hmem => h.2.2 _ hmem _ List.mem_cons_self rfl
    have hassoc : done ++ m :: ms = (done ++ [m]) ++ ms := by simp
    rw [List.foldl_cons, putMember_of_not_mem hm, ih (hassoc ▸ h), hassoc]

theorem ofMembers_of_nodup {ms : List (LooseText × Json)} (h : (ms.map (·.1)).Nodup) :
    ofMembers ms = obj ms := by
  rw [ofMembers, foldl_putMember (by simpa using h), List.nil_append]

/-! ### Blanks -/

theorem skipSpace_newline (depth : Nat) (s : List Char) :
    skipSpace (newline depth ++ s) = skipSpace s := by
  have hspaces : ∀ n, skipSpace (List.replicate n ' ' ++ s) = skipSpace s := by
    intro n
    induction n with
    | zero => rfl
    | succ n ih =>
      rw [List.replicate_succ, List.cons_append, skipSpace, List.dropWhile_cons_of_pos (by decide)]
      exact ih
  rw [newline, List.cons_append, skipSpace, List.dropWhile_cons_of_pos (by decide)]
  exact hspaces _

theorem starts_cons {c : Char} (h : isSpace c = false) (s : List Char) : Starts c (c :: s) s := by
  rw [Starts, skipSpace, List.dropWhile_cons_of_neg (by simp [h])]

theorem Starts.newline {c : Char} {s r : List Char} (h : Starts c s r) (depth : Nat) :
    Starts c (Json.newline depth ++ s) r :=
  (skipSpace_newline depth s).trans h

/-- Blanks before a value do not matter. -/
theorem ReadsValue.of_skipSpace {s s' rest : List Char} {v : Json} (h : ReadsValue s v rest)
    (heq : skipSpace s' = skipSpace s) : ReadsValue s' v rest := by
  cases h with
  | text hs h => exact .text (heq.trans hs) h
  | emptyArray hs h => exact .emptyArray (heq.trans hs) h
  | array hs h => exact .array (heq.trans hs) h
  | emptyObject hs h => exact .emptyObject (heq.trans hs) h
  | object hs h => exact .object (heq.trans hs) h
  | atom hs hc h => exact .atom (heq.trans hs) hc h

theorem ReadsValue.newline {s rest : List Char} {v : Json} (h : ReadsValue s v rest)
    (depth : Nat) : ReadsValue (Json.newline depth ++ s) v rest :=
  h.of_skipSpace (skipSpace_newline depth s)

/-! ### Writing, then reading -/

theorem readsText_quote {t : LooseText} (h : t.IsJoined) (rest : List Char) :
    ReadsText (t.points.flatMap escape ++ '"' :: rest) t rest := by
  obtain ⟨hr, hread⟩ := readText_quote h rest
  rw [ReadsText, hread]
  rfl

theorem quote_append (t : LooseText) (rest : List Char) :
    quote t ++ rest = '"' :: (t.points.flatMap escape ++ '"' :: rest) := by
  rw [quote, List.cons_append, List.append_assoc, List.singleton_append]

theorem readsValue_int {n : Int} (h : Text.isWritable n = true) {rest : List Char}
    (hrest : EndsNumber rest) : ReadsValue (Text.ofInt n ++ rest) (int n) rest := by
  obtain ⟨hr, hread⟩ := readAtom_ofInt hrest h
  obtain ⟨c, cs, hcs, hc⟩ := ofInt_eq_cons n
  have hne : ∀ d, isAsciiDigit d = false → d ≠ '-' → c ≠ d := by
    rintro d hdigit hminus rfl
    rcases hc with hc | hc
    · exact absurd (hdigit.symm.trans hc) Bool.false_ne_true
    · exact hminus hc
  have hspace : isSpace c = false := by
    simp only [isSpace, Bool.or_eq_false_iff, beq_eq_false_iff_ne]
    exact ⟨⟨⟨hne _ (by decide) (by decide), hne _ (by decide) (by decide)⟩,
      hne _ (by decide) (by decide)⟩, hne _ (by decide) (by decide)⟩
  have hstarts : Starts c (Text.ofInt n ++ rest) (cs ++ rest) := by
    rw [hcs]
    exact starts_cons hspace _
  refine .atom hstarts ⟨hne _ (by decide) (by decide), hne _ (by decide) (by decide),
    hne _ (by decide) (by decide)⟩ ?_
  rw [ReadsAtom, ← List.cons_append, ← hcs, hread]
  rfl

/-- What is said about one value, wherever it stands. -/
def ReadsBack (v : Json) : Prop :=
  ∀ depth rest, EndsNumber rest → ReadsValue (writeAt depth rest v) v rest

theorem readsElements_write {e : Json} {es : List Json} (h : ∀ x ∈ e :: es, ReadsBack x)
    (depth outer : Nat) (rest : List Char) :
    ReadsElements (newline depth ++
      writeAt depth (writeElements depth (newline outer ++ ']' :: rest) es) e) (e :: es) rest := by
  induction es generalizing e with
  | nil =>
    refine .last ((h e List.mem_cons_self depth _ ?_).newline depth) ?_
    · exact endsNumber_newline outer _
    · exact (starts_cons (by decide) rest).newline outer
  | cons e' es ih =>
    refine .cons ((h e List.mem_cons_self depth _ ?_).newline depth) ?_
      (ih fun x hx => h x (List.mem_cons_of_mem e hx))
    · exact endsNumber_comma _
    · exact starts_cons (by decide) _

/-- The name and the colon of a member, and then its value. -/
theorem starts_member (name : LooseText) (depth : Nat) (s : List Char) :
    Starts '"' (newline depth ++ quote name ++ ':' :: ' ' :: s)
      (name.points.flatMap escape ++ '"' :: ':' :: ' ' :: s) := by
  rw [List.append_assoc, quote_append]
  exact (starts_cons (by decide) _).newline depth

theorem ReadsValue.space {s rest : List Char} {v : Json} (h : ReadsValue s v rest) :
    ReadsValue (' ' :: s) v rest :=
  h.of_skipSpace (List.dropWhile_cons_of_pos (by decide))

theorem readsMembers_write {name : LooseText} {v : Json} {ms : List (LooseText × Json)}
    (hnames : ∀ m ∈ (name, v) :: ms, m.1.IsJoined) (h : ∀ m ∈ (name, v) :: ms, ReadsBack m.2)
    (depth outer : Nat) (rest : List Char) :
    ReadsMembers (newline depth ++ quote name ++ ':' :: ' ' ::
      writeAt depth (writeMembers depth (newline outer ++ '}' :: rest) ms) v)
      ((name, v) :: ms) rest := by
  have hname := readsText_quote (hnames _ List.mem_cons_self)
  have hv := h _ List.mem_cons_self depth
  induction ms generalizing name v with
  | nil =>
    refine .last (starts_member name depth _) (hname _) (starts_cons (by decide) _)
      (hv _ ?_).space ?_
    · exact endsNumber_newline outer _
    · exact (starts_cons (by decide) rest).newline outer
  | cons m ms ih =>
    have hrest := fun x hx => hnames x (List.mem_cons_of_mem (name, v) hx)
    have hrest' := fun x hx => h x (List.mem_cons_of_mem (name, v) hx)
    refine .cons (starts_member name depth _) (hname _) (starts_cons (by decide) _)
      (hv _ ?_).space ?_ (ih hrest hrest' (readsText_quote (hrest _ List.mem_cons_self))
        (hrest' _ List.mem_cons_self depth))
    · exact endsNumber_comma _
    · exact starts_cons (by decide) _

/-- The words for null and the truth values. -/
theorem readsValue_word (word : List Char) {rest : List Char} {c : Char} {v : Json}
    (hc : isSpace c = false ∧ c ≠ '"' ∧ c ≠ '[' ∧ c ≠ '{')
    (h : readWord? (c :: (word ++ rest)) = some (v, rest)) :
    ReadsValue (c :: (word ++ rest)) v rest := by
  refine .atom (starts_cons hc.1 _) hc.2 ?_
  unfold ReadsAtom readAtom
  split
  · next v' r hsome =>
    rw [h] at hsome
    cases hsome
    rfl
  · next hnone =>
    rw [h] at hnone
    cases hnone

theorem readsBack_bool (b : Bool) : ReadsBack (bool b) := by
  intro depth rest _
  cases b with
  | true =>
    rw [writeAt]
    exact readsValue_word "rue".toList (by decide) rfl
  | false =>
    rw [writeAt]
    exact readsValue_word "alse".toList (by decide) rfl

theorem readsBack_arr {es : List Json} (h : ∀ e ∈ es, ReadsBack e) : ReadsBack (arr es) := by
  intro depth rest _
  cases es with
  | nil =>
    rw [writeAt]
    exact .emptyArray (starts_cons (by decide) _) (starts_cons (by decide) _)
  | cons e es =>
    rw [writeAt]
    exact .array (starts_cons (by decide) _) (readsElements_write h (depth + 1) depth rest)

theorem readsBack_obj {ms : List (LooseText × Json)} (hdistinct : (ms.map (·.1)).Nodup)
    (hnames : ∀ m ∈ ms, m.1.IsJoined) (h : ∀ m ∈ ms, ReadsBack m.2) : ReadsBack (obj ms) := by
  intro depth rest _
  cases ms with
  | nil =>
    rw [writeAt]
    exact .emptyObject (starts_cons (by decide) _) (starts_cons (by decide) _)
  | cons m ms =>
    rw [writeAt, ← ofMembers_of_nodup hdistinct]
    exact .object (starts_cons (by decide) _)
      (readsMembers_write hnames h (depth + 1) depth rest)

/-- Wherever a value without floating numbers is written, it is read back from there. -/
theorem readsBack_of_regular {v : Json} (h : Regular (fun _ => False) v) : ReadsBack v := by
  induction h with
  | null =>
    intro depth rest _
    rw [writeAt]
    exact readsValue_word "ull".toList (by decide) rfl
  | bool b => exact readsBack_bool b
  | int h =>
    intro depth rest hrest
    rw [writeAt, if_pos h]
    exact readsValue_int h hrest
  | float h => exact h.elim
  | str h =>
    intro depth rest _
    rw [writeAt, quote_append]
    exact .text (starts_cons (by decide) _) (readsText_quote h rest)
  | arr _ ih => exact readsBack_arr ih
  | obj hdistinct hnames _ ih => exact readsBack_obj hdistinct hnames ih

/-- Reading undoes writing. -/
theorem read_write {v : Json} (h : Regular (fun _ => False) v) : read v.write = .ok v := by
  refine read_eq_ok_iff.2 ⟨[], ?_, rfl⟩
  rw [write, String.toList_ofList]
  exact readsBack_of_regular h 0 [] endsNumber_nil

/-! ### What is read -/

theorem mem_putMember {name : LooseText} {v : Json} {ms : List (LooseText × Json)}
    {m : LooseText × Json} (h : m ∈ putMember name v ms) : m = (name, v) ∨ m ∈ ms := by
  induction ms with
  | nil => exact Or.inl (List.mem_singleton.1 h)
  | cons x ms ih =>
    rw [putMember] at h
    split at h
    · next hx =>
      rcases List.mem_cons.1 h with rfl | h
      · exact Or.inl (by rw [hx])
      · exact Or.inr (List.mem_cons_of_mem x h)
    · rcases List.mem_cons.1 h with rfl | h
      · exact Or.inr List.mem_cons_self
      · exact (ih h).imp_right (List.mem_cons_of_mem x)

theorem nodup_putMember {name : LooseText} {v : Json} {ms : List (LooseText × Json)}
    (h : (ms.map (·.1)).Nodup) : ((putMember name v ms).map (·.1)).Nodup := by
  induction ms with
  | nil => simp [putMember]
  | cons x ms ih =>
    rw [List.map_cons, List.nodup_cons] at h
    rw [putMember]
    split
    · exact List.nodup_cons.2 h
    · next hx =>
      refine List.nodup_cons.2 ⟨fun hmem => ?_, ih h.2⟩
      obtain ⟨m, hm, hname⟩ := List.mem_map.1 hmem
      rcases mem_putMember hm with rfl | hm
      · exact hx hname.symm
      · exact h.1 (List.mem_map.2 ⟨m, hm, hname⟩)

/-- Later members replace earlier ones, so the members of an object are some of those given. -/
theorem regular_ofMembers {float : Binary64 → Prop} {ms : List (LooseText × Json)}
    (h : ∀ m ∈ ms, m.1.IsJoined ∧ Regular float m.2) : Regular float (ofMembers ms) := by
  have hfold : ∀ done : List (LooseText × Json), (done.map (·.1)).Nodup →
      (∀ m ∈ done, m.1.IsJoined ∧ Regular float m.2) →
      Regular float (obj (ms.foldl (fun ms m => putMember m.1 m.2 ms) done)) := by
    induction ms with
    | nil => exact fun done hdone h => .obj hdone (fun m hm => (h m hm).1) fun m hm => (h m hm).2
    | cons m ms ih =>
      intro done hdone hdone'
      refine ih (fun x hx => h x (List.mem_cons_of_mem m hx)) _ (nodup_putMember hdone) ?_
      intro x hx
      rcases mem_putMember hx with rfl | hx
      · exact h m List.mem_cons_self
      · exact hdone' x hx
  exact hfold [] List.nodup_nil fun m hm => absurd hm List.not_mem_nil

theorem isJoined_of_readsText {s rest : List Char} {t : LooseText} (h : ReadsText s t rest) :
    t.IsJoined := by
  obtain ⟨⟨t', r⟩, hread, heq⟩ := map_eq_ok h
  cases heq
  exact isJoined_of_readText hread

theorem regular_of_readsAtom {s rest : List Char} {v : Json} (h : ReadsAtom s v rest) :
    Regular Binary64.IsModest v := by
  obtain ⟨⟨v', r⟩, hread, heq⟩ := map_eq_ok h
  cases heq
  cases isAtom_of_readAtom hread with
  | null => exact .null
  | bool b => exact .bool b
  | int hn => exact .int hn
  | float hx => exact .float hx

mutual

theorem ReadsValue.regular {s rest : List Char} {v : Json} :
    ReadsValue s v rest → Regular Binary64.IsModest v
  | .text _ h => .str (isJoined_of_readsText h)
  | .emptyArray _ _ => .arr fun _ he => absurd he List.not_mem_nil
  | .array _ h => .arr h.regular
  | .emptyObject _ _ => .obj List.nodup_nil nofun nofun
  | .object _ h => regular_ofMembers h.regular
  | .atom _ _ h => regular_of_readsAtom h

theorem ReadsElements.regular {s rest : List Char} {vs : List Json} :
    ReadsElements s vs rest → ∀ v ∈ vs, Regular Binary64.IsModest v
  | .last hv _ => List.forall_mem_singleton.2 hv.regular
  | .cons hv _ h => List.forall_mem_cons.2 ⟨hv.regular, h.regular⟩

theorem ReadsMembers.regular {s rest : List Char} {ms : List (LooseText × Json)} :
    ReadsMembers s ms rest → ∀ m ∈ ms, m.1.IsJoined ∧ Regular Binary64.IsModest m.2
  | .last _ hname _ hv _ => List.forall_mem_singleton.2 ⟨isJoined_of_readsText hname, hv.regular⟩
  | .cons _ hname _ hv _ h =>
    List.forall_mem_cons.2 ⟨⟨isJoined_of_readsText hname, hv.regular⟩, h.regular⟩

end

/-- What is read from a text is as it has to be to be written again. A floating number is read as
one that could be written cut off at the point. -/
theorem regular_of_read {text : String} {v : Json} (h : read text = .ok v) :
    Regular Binary64.IsModest v := by
  obtain ⟨rest, hv, -⟩ := read_eq_ok_iff.1 h
  exact hv.regular

/-- The texts that are read back as they were written. -/
theorem read_write_str_iff {t : LooseText} : read (str t).write = .ok (str t) ↔ t.IsJoined := by
  constructor
  · intro h
    cases regular_of_read h with
    | str h => exact h
  · exact fun h => read_write (.str h)

end TodoLists.Json
