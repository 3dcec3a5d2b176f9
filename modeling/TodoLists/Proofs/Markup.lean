import TodoLists.Markup
import Mathlib.Data.List.TakeWhile

/-!
# Texts that can be printed

Only a closing tag can make a text unreadable. A text that was escaped holds no tags at all, wherever
it is put, and neither does a text without closing brackets. So a message that the program puts
together from such texts, from plain ones and from ones it styles itself can always be read, and
what is read of an escaped text is the text, up to one more backslash at its end.

What is put behind an escaped text needs some care: it must not complete a tag that the escaped text
only begins, and a backslash at the end of the escaped text can take effect on a tag behind it. This
is harmless, for the tag there closes what the program opened itself.
-/

namespace TodoLists.Markup

/-! ### Tags in a text -/

/-- What can stand inside a tag. -/
structure IsBody (body : List Char) : Prop where
  start : body.head?.any startsTag = true
  plain : ∀ c ∈ body, c ≠ '[' ∧ c ≠ ']'

theorem ne_bracket_of_startsTag {c : Char} (h : startsTag c = true) : c ≠ '[' ∧ c ≠ ']' := by
  constructor <;> rintro rfl <;> exact absurd h (by decide)

/-- A body is what stands before the first bracket, and that bracket is a closing one. -/
theorem tagBody?_eq_some_iff {s body : List Char} :
    tagBody? s = some body ↔ IsBody body ∧ ∃ rest, s = body ++ ']' :: rest := by
  constructor
  · intro h
    cases s with
    | nil => cases h
    | cons c cs =>
      simp only [tagBody?] at h
      split at h
      · next hbody =>
        cases h
        simp only [Bool.and_eq_true, beq_iff_eq] at hbody
        obtain ⟨hstart, hhead⟩ := hbody
        obtain ⟨rest, hrest⟩ := List.head?_eq_some_iff.1 hhead
        have hplain : ∀ x ∈ cs.takeWhile fun x => x != '[' && x != ']', x ≠ '[' ∧ x ≠ ']' := by
          intro x hx
          simpa using List.mem_takeWhile_imp hx
        refine ⟨⟨hstart, List.forall_mem_cons.2 ⟨ne_bracket_of_startsTag hstart, hplain⟩⟩, rest, ?_⟩
        rw [List.cons_append, ← hrest]
        exact congrArg (c :: ·) (List.prefix_iff_eq_append.1 (List.takeWhile_prefix _)).symm
      · cases h
  · rintro ⟨⟨hstart, hplain⟩, rest, rfl⟩
    cases body with
    | nil => cases hstart
    | cons c cs =>
      have htake : (cs ++ ']' :: rest).takeWhile (fun x => x != '[' && x != ']') = cs := by
        rw [List.takeWhile_append_of_pos, List.takeWhile_cons_of_neg (by decide), List.append_nil]
        intro x hx
        simpa using hplain x (List.mem_cons_of_mem c hx)
      have hc : startsTag c = true := hstart
      rw [List.cons_append, tagBody?]
      simp only [htake]
      simp [hc]

theorem tagsAfter_nil (n : Nat) : tagsAfter n [] = [] := by rw [tagsAfter]

theorem tagsAfter_backslash (n : Nat) (s : List Char) :
    tagsAfter n ('\\' :: s) = tagsAfter (n + 1) s := by
  rw [tagsAfter, if_pos rfl]

theorem tagsAfter_replicate (m n : Nat) (s : List Char) :
    tagsAfter n (List.replicate m '\\' ++ s) = tagsAfter (n + m) s := by
  induction m generalizing n with
  | zero => rfl
  | succ m ih =>
    rw [List.replicate_succ, List.cons_append, tagsAfter_backslash, ih, Nat.add_right_comm]
    rfl

theorem tagsAfter_cons {c : Char} (h : c ≠ '[') (h' : c ≠ '\\') (n : Nat) (s : List Char) :
    tagsAfter n (c :: s) = tagsAfter 0 s := by
  rw [tagsAfter, if_neg h', if_neg h]

theorem tagsAfter_plain {t : List Char} (ht : ∀ c ∈ t, c ≠ '[' ∧ c ≠ '\\') (s : List Char) :
    tagsAfter 0 (t ++ s) = tagsAfter 0 s := by
  induction t with
  | nil => rfl
  | cons c t ih =>
    obtain ⟨⟨hbracket, hback⟩, ht⟩ := List.forall_mem_cons.1 ht
    rw [List.cons_append, tagsAfter_cons hbracket hback, ih ht]

theorem tagsAfter_bracket {s : List Char} (h : tagBody? s = none) (n : Nat) :
    tagsAfter n ('[' :: s) = tagsAfter 0 s := by
  rw [tagsAfter, if_neg (by decide), if_pos rfl]
  simp only [h]

theorem tagsAfter_tag {body : List Char} (h : IsBody body) (n : Nat) (rest : List Char) :
    tagsAfter n ('[' :: (body ++ ']' :: rest)) =
      (if n % 2 = 1 then [] else [body]) ++ tagsAfter 0 rest := by
  have hbody : tagBody? (body ++ ']' :: rest) = some body :=
    tagBody?_eq_some_iff.2 ⟨h, rest, rfl⟩
  have hdrop : (body ++ ']' :: rest).drop (body.length + 1) = rest := by simp
  rw [tagsAfter, if_neg (by decide), if_pos rfl]
  simp only [hbody, hdrop]

/-! ### Texts that complete no tag -/

/-- Behind a tag that was only begun the text does not complete it. -/
def EndsNoTag (s : List Char) : Prop := ']' ∉ s.takeWhile (· != '[')

theorem endsNoTag_nil : EndsNoTag [] := List.not_mem_nil

theorem endsNoTag_bracket (s : List Char) : EndsNoTag ('[' :: s) := by simp [EndsNoTag]

theorem endsNoTag_cons {c : Char} (h : c ≠ '[') {s : List Char} :
    EndsNoTag (c :: s) ↔ c ≠ ']' ∧ EndsNoTag s := by
  rw [EndsNoTag, EndsNoTag, List.takeWhile_cons_of_pos (by simpa using h), List.mem_cons, not_or,
    eq_comm]

theorem EndsNoTag.append_left {s : List Char} (h : EndsNoTag s) {t : List Char} (ht : ']' ∉ t) :
    EndsNoTag (t ++ s) := by
  induction t with
  | nil => exact h
  | cons c t ih =>
    obtain ⟨hc, ht⟩ := not_or.1 (mt List.mem_cons.2 ht)
    by_cases hbracket : c = '['
    · rw [hbracket]
      exact endsNoTag_bracket _
    · exact (endsNoTag_cons hbracket).2 ⟨Ne.symm hc, ih ht⟩

/-- A text that does complete one has a closing bracket with no other bracket before it. -/
theorem exists_of_not_endsNoTag {s : List Char} (h : ¬ EndsNoTag s) :
    ∃ a b, s = a ++ ']' :: b ∧ ∀ c ∈ a, c ≠ '[' ∧ c ≠ ']' := by
  induction s with
  | nil => exact absurd endsNoTag_nil h
  | cons c s ih =>
    by_cases hopen : c = '['
    · rw [hopen] at h
      exact absurd (endsNoTag_bracket s) h
    · by_cases hclose : c = ']'
      · exact ⟨[], s, by rw [hclose]; rfl, nofun⟩
      · obtain ⟨a, b, rfl, ha⟩ := ih fun hs => h ((endsNoTag_cons hopen).2 ⟨hclose, hs⟩)
        exact ⟨c :: a, b, rfl, List.forall_mem_cons.2 ⟨⟨hopen, hclose⟩, ha⟩⟩

theorem tagBody?_of_endsNoTag {s : List Char} (h : EndsNoTag s) : tagBody? s = none := by
  rw [Option.eq_none_iff_forall_ne_some]
  intro body hbody
  obtain ⟨⟨-, hplain⟩, rest, rfl⟩ := tagBody?_eq_some_iff.1 hbody
  refine h ?_
  rw [List.takeWhile_append_of_pos fun c hc => by simpa using (hplain c hc).1]
  simp

/-- Whether a tag stands there does not depend on what comes behind the bracket that ends it. -/
theorem tagBody?_eq_none_congr {a b : List Char} (ha : ∀ c ∈ a, c ≠ '[' ∧ c ≠ ']')
    (h : tagBody? (a ++ ']' :: b) = none) (b' : List Char) : tagBody? (a ++ ']' :: b') = none := by
  have hbody : ¬ IsBody a := by
    intro hbody
    rw [tagBody?_eq_some_iff.2 ⟨hbody, b, rfl⟩] at h
    cases h
  rw [Option.eq_none_iff_forall_ne_some]
  intro body hsome
  obtain ⟨hbody', rest, heq⟩ := tagBody?_eq_some_iff.1 hsome
  rcases List.append_eq_append_iff.1 heq with ⟨c, rfl, hc⟩ | ⟨c, rfl, hc⟩
  · cases c with
    | nil => exact hbody (by simpa using hbody')
    | cons x c =>
      cases hc
      exact (hbody'.plain ']' (by simp)).2 rfl
  · cases c with
    | nil => exact hbody (by simpa using hbody')
    | cons x c =>
      cases hc
      exact (ha ']' (by simp)).2 rfl

/-! ### Escaped texts -/

theorem escapeAfter_append {a : List Char} (ha : ∀ c ∈ a, c ≠ '[') (n : Nat) (b : List Char) :
    escapeAfter n (a ++ ']' :: b) = List.replicate n '\\' ++ (a ++ ']' :: escapeAfter 0 b) := by
  induction a generalizing n with
  | nil => rw [List.nil_append, escapeAfter, if_neg (by decide), if_neg (by decide)]; rfl
  | cons c a ih =>
    obtain ⟨hc, ha⟩ := List.forall_mem_cons.1 ha
    rw [List.cons_append, escapeAfter]
    split
    · next hback =>
      rw [ih ha, List.replicate_succ', hback, List.append_assoc]
      rfl
    · rw [ih ha]
      rfl

theorem EndsNoTag.escapeAfter {s rest : List Char} (hs : EndsNoTag s) (hrest : EndsNoTag rest)
    (n : Nat) : EndsNoTag (escapeAfter n s ++ rest) := by
  have hback : ∀ m, ']' ∉ List.replicate m '\\' := fun m => by simp
  fun_induction Markup.escapeAfter n s with
  | case1 n => exact hrest.append_left (hback n)
  | case2 n s ih => exact ih ((endsNoTag_cons (by decide)).1 hs).2
  | case3 n s _ body =>
    simp only [List.append_assoc, List.cons_append]
    exact (endsNoTag_bracket _).append_left (hback _)
  | case4 n s =>
    simp only [List.append_assoc, List.cons_append]
    exact (endsNoTag_bracket _).append_left (hback _)
  | case5 n c s hc hbracket ih =>
    obtain ⟨hclose, hs⟩ := (endsNoTag_cons hbracket).1 hs
    simp only [List.append_assoc, List.cons_append]
    exact ((endsNoTag_cons hbracket).2 ⟨hclose, ih hs⟩).append_left (hback _)

/-- What is not taken for a tag before escaping is not taken for one afterwards. -/
theorem tagBody?_escapeAfter {s rest : List Char} (h : tagBody? s = none) (hrest : EndsNoTag rest) :
    tagBody? (escapeAfter 0 s ++ rest) = none := by
  by_cases hs : EndsNoTag s
  · exact tagBody?_of_endsNoTag (hs.escapeAfter hrest 0)
  · obtain ⟨a, b, rfl, ha⟩ := exists_of_not_endsNoTag hs
    rw [escapeAfter_append fun c hc => (ha c hc).1]
    simp only [List.replicate_zero, List.nil_append, List.append_assoc, List.cons_append]
    exact tagBody?_eq_none_congr ha h _

theorem exists_tagsAfter_escapeAfter {rest : List Char} (hrest : EndsNoTag rest) (n : Nat)
    (s : List Char) : ∃ k, tagsAfter 0 (escapeAfter n s ++ rest) = tagsAfter k rest := by
  fun_induction escapeAfter n s with
  | case1 n => exact ⟨0 + n, tagsAfter_replicate n 0 rest⟩
  | case2 n s ih => exact ih
  | case3 n s body hsome _ ih =>
    -- The backslash that was put before the tag makes their number odd.
    obtain ⟨k, hk⟩ := ih
    obtain ⟨hbody, -, -⟩ := tagBody?_eq_some_iff.1 hsome
    simp only [List.append_assoc, List.cons_append, List.nil_append]
    rw [tagsAfter_replicate, tagsAfter_tag hbody, if_pos (by omega), List.nil_append]
    exact ⟨k, hk⟩
  | case4 n s hbody _ ih =>
    obtain ⟨k, hk⟩ := ih
    simp only [List.append_assoc, List.cons_append]
    rw [tagsAfter_replicate, tagsAfter_bracket (tagBody?_escapeAfter hbody hrest)]
    exact ⟨k, hk⟩
  | case5 n c s hc hbracket ih =>
    obtain ⟨k, hk⟩ := ih
    simp only [List.append_assoc, List.cons_append]
    rw [tagsAfter_replicate, tagsAfter_cons hbracket hc]
    exact ⟨k, hk⟩

theorem closeBackslash_cases (s : List Char) : closeBackslash s = s ∨
    s.getLast? = some '\\' ∧ closeBackslash s = s ++ ['\\'] := by
  rw [closeBackslash, List.getLast?_eq_head?_reverse]
  split
  · exact Or.inl rfl
  · next h =>
    rw [h]
    exact Or.inr ⟨rfl, rfl⟩
  · exact Or.inl rfl

/-- An escaped text has no tags, but its last backslashes count for what comes behind it. -/
theorem exists_tagsAfter_escape {rest : List Char} (hrest : EndsNoTag rest) (s : String) :
    ∃ k, tagsAfter 0 ((escape s).toList ++ rest) = tagsAfter k rest := by
  rw [escape, String.toList_ofList]
  rcases closeBackslash_cases (escapeAfter 0 s.toList) with h | ⟨-, h⟩
  · rw [h]
    exact exists_tagsAfter_escapeAfter hrest 0 s.toList
  · have hback : EndsNoTag ('\\' :: rest) := (endsNoTag_cons (by decide)).2 ⟨by decide, hrest⟩
    obtain ⟨k, hk⟩ := exists_tagsAfter_escapeAfter hback 0 s.toList
    rw [h, List.append_assoc]
    exact ⟨k + 1, hk.trans (tagsAfter_backslash k rest)⟩

theorem exists_tagsAfter_of_not_mem {t rest : List Char} (hrest : EndsNoTag rest) (ht : ']' ∉ t)
    (n : Nat) : ∃ k, tagsAfter n (t ++ rest) = tagsAfter k rest := by
  induction t generalizing n with
  | nil => exact ⟨n, rfl⟩
  | cons c t ih =>
    have ht : ']' ∉ t := fun hmem => ht (List.mem_cons_of_mem c hmem)
    by_cases hback : c = '\\'
    · obtain ⟨k, hk⟩ := ih ht (n + 1)
      rw [hback, List.cons_append, tagsAfter_backslash]
      exact ⟨k, hk⟩
    · obtain ⟨k, hk⟩ := ih ht 0
      by_cases hbracket : c = '['
      · have hnone : tagBody? (t ++ rest) = none := tagBody?_of_endsNoTag (hrest.append_left ht)
        rw [hbracket, List.cons_append, tagsAfter_bracket hnone]
        exact ⟨k, hk⟩
      · rw [List.cons_append, tagsAfter_cons hbracket hback]
        exact ⟨k, hk⟩

/-! ### What is left to read -/

theorem plainAfter_replicate (m n : Nat) (s : List Char) :
    plainAfter n (List.replicate m '\\' ++ s) = plainAfter (n + m) s := by
  induction m generalizing n with
  | zero => rfl
  | succ m ih =>
    rw [List.replicate_succ, List.cons_append, plainAfter, if_pos rfl, ih, Nat.add_right_comm]
    rfl

theorem plainAfter_bracket {s : List Char} (h : tagBody? s = none) (n : Nat) :
    plainAfter n ('[' :: s) = List.replicate n '\\' ++ '[' :: plainAfter 0 s := by
  rw [plainAfter, if_neg (by decide), if_pos rfl]
  simp only [h]

theorem plainAfter_tag {body : List Char} (h : IsBody body) (n : Nat) (rest : List Char) :
    plainAfter n ('[' :: (body ++ ']' :: rest)) = List.replicate (n / 2) '\\' ++
      (if n % 2 = 1 then '[' :: (body ++ [']']) else []) ++ plainAfter 0 rest := by
  have hbody : tagBody? (body ++ ']' :: rest) = some body :=
    tagBody?_eq_some_iff.2 ⟨h, rest, rfl⟩
  have hdrop : (body ++ ']' :: rest).drop (body.length + 1) = rest := by simp
  rw [plainAfter, if_neg (by decide), if_pos rfl]
  simp only [hbody, hdrop]

/-- Reading takes away what escaping put in, also before some backslashes. -/
theorem plainAfter_escapeAfter (k n : Nat) (s : List Char) :
    plainAfter 0 (escapeAfter n s ++ List.replicate k '\\') =
      List.replicate n '\\' ++ (s ++ List.replicate k '\\') := by
  have hrest : EndsNoTag (List.replicate k '\\') := by
    have hback : ']' ∉ List.replicate k '\\' := by simp
    simpa using endsNoTag_nil.append_left hback
  have hend (m : Nat) : plainAfter 0 (List.replicate m '\\') = List.replicate m '\\' := by
    have hnil := plainAfter_replicate m 0 []
    rwa [List.append_nil, Nat.zero_add, plainAfter] at hnil
  fun_induction escapeAfter n s with
  | case1 n => rw [List.nil_append, List.replicate_append_replicate, hend]
  | case2 n s ih =>
    rw [ih, List.replicate_succ', List.append_assoc]
    rfl
  | case3 n s body hsome _ ih =>
    obtain ⟨hbody, rest, rfl⟩ := tagBody?_eq_some_iff.1 hsome
    have hdrop : (body ++ ']' :: rest).drop (body.length + 1) = rest := by simp
    have hodd : (2 * n + 1) % 2 = 1 := by omega
    have hhalf : (2 * n + 1) / 2 = n := by omega
    simp only [hdrop, List.append_assoc, List.cons_append, List.nil_append] at ih ⊢
    rw [plainAfter_replicate, Nat.zero_add, plainAfter_tag hbody, hhalf, if_pos hodd, ih]
    simp
  | case4 n s hbody _ ih =>
    simp only [List.append_assoc, List.cons_append]
    rw [plainAfter_replicate, Nat.zero_add, plainAfter_bracket (tagBody?_escapeAfter hbody hrest),
      ih]
    rfl
  | case5 n c s hc hbracket ih =>
    simp only [List.append_assoc, List.cons_append]
    rw [plainAfter_replicate, Nat.zero_add, plainAfter, if_neg hc, if_neg hbracket, ih]
    rfl

theorem getLast?_escapeAfter (n : Nat) (s : List Char) :
    (escapeAfter n s).getLast? = (List.replicate n '\\' ++ s).getLast? := by
  fun_induction escapeAfter n s with
  | case1 n => rw [List.append_nil]
  | case2 n s ih =>
    rw [ih, List.replicate_succ', List.append_assoc]
    rfl
  | case3 n s body hsome _ ih =>
    obtain ⟨-, rest, rfl⟩ := tagBody?_eq_some_iff.1 hsome
    have hdrop : (body ++ ']' :: rest).drop (body.length + 1) = rest := by simp
    rw [List.replicate_zero, List.nil_append, hdrop] at ih
    rw [hdrop]
    simp [List.getLast?_append, List.getLast?_cons, ih]
  | case4 n s _ _ ih =>
    simp [List.getLast?_append, List.getLast?_cons, ih]
  | case5 n c s _ _ ih =>
    simp [List.getLast?_append, List.getLast?_cons, ih]

/-- An escaped text is read as it was, but for a backslash at its end, which may be doubled. -/
theorem plain_escape (s : String) :
    plain (escape s) = s ∨ s.toList.getLast? = some '\\' ∧ plain (escape s) = s ++ "\\" := by
  have hread (k : Nat) : plainAfter 0 (escapeAfter 0 s.toList ++ List.replicate k '\\') =
      s.toList ++ List.replicate k '\\' :=
    plainAfter_escapeAfter k 0 s.toList
  rw [plain, escape, String.toList_ofList]
  rcases closeBackslash_cases (escapeAfter 0 s.toList) with h | ⟨hlast, h⟩
  · have hsame := hread 0
    rw [List.replicate_zero, List.append_nil, List.append_nil] at hsame
    rw [h, hsame]
    exact Or.inl String.ofList_toList
  · rw [getLast?_escapeAfter] at hlast
    rw [h, ← String.toList_inj, ← String.toList_inj, String.toList_ofList,
      String.toList_append]
    exact Or.inr ⟨hlast, hread 1⟩

/-! ### Texts that can be read -/

namespace Reading

variable {r : Reading}

/-- The rest of a text is read behind some backslashes and with some tags open. -/
def reads (r : Reading) (n : Nat) (opened : List Tag) (rest : List Char) : Bool :=
  ((tagsAfter n rest).foldlM r.step opened).isSome

theorem canRead_eq (r : Reading) (s : String) : r.canRead s = r.reads 0 [] s.toList := rfl

theorem reads_congr {n k : Nat} {s rest : List Char} (h : tagsAfter n s = tagsAfter k rest)
    (opened : List Tag) : r.reads n opened s = r.reads k opened rest := by
  rw [reads, h, reads]

/-- The name of a style: it stands inside tags as it is, and is what a closing tag asks for. -/
structure IsStyle (w : List Char) : Prop where
  body : IsBody w
  opens : w.head? ≠ some '/'
  bare : '=' ∉ w
  trimmed : Text.strip w = w

variable {w : List Char} (hw : IsStyle w)

include hw

theorem IsStyle.closing : IsBody ('/' :: w) :=
  ⟨(by decide : startsTag '/' = true), List.forall_mem_cons.2 ⟨by decide, hw.body.plain⟩⟩

theorem step_open (r : Reading) (opened : List Tag) :
    r.step opened w = some (⟨r.style w, []⟩ :: opened) := by
  rw [step, Text.cut_of_not_mem hw.bare]
  have hopens := hw.opens
  cases w with
  | nil => rfl
  | cons c w =>
    have hc : c ≠ '/' := by simpa using hopens
    split
    · next h =>
      cases h
      exact absurd rfl hc
    · next h =>
      cases h
      rfl

/-- The latest of the tags that the closing tag belongs to is closed. It is one of the first ones if
one of them has the name. -/
theorem step_close (r : Reading) {opened : List Tag} (older : List Tag)
    (hbare : ∀ t ∈ opened, t.parameters = []) (hmem : ⟨r.style w, []⟩ ∈ opened) :
    ∃ opened' : List Tag, (∀ t ∈ opened', t.parameters = []) ∧
      r.step (opened ++ older) ('/' :: w) = some (opened' ++ older) := by
  have hcut : Text.cut '=' ('/' :: w) = ('/' :: w, none) :=
    Text.cut_of_not_mem (List.not_mem_cons_of_ne_of_not_mem (by decide) hw.bare)
  have hcloses : r.closes w ⟨r.style w, []⟩ = true := by simp [closes]
  cases hfind : opened.find? (r.closes w) with
  | none => exact absurd hcloses (List.find?_eq_none.1 hfind _ hmem)
  | some t =>
    have ht : t.parameters = [] := hbare t (List.mem_of_find?_eq_some hfind)
    have hclose : r.canClose t = true := by simp [canClose, ht]
    refine ⟨opened.eraseP (r.closes w), fun t' ht' => hbare t' (List.mem_of_mem_eraseP ht'), ?_⟩
    rw [step, hcut]
    simp only [hw.trimmed, List.find?_append, hfind, Option.some_or, Option.bind_eq_bind,
      Option.bind_some, if_pos hclose, List.eraseP_append_left hcloses _ hmem]

/-- A closing tag that belongs to none of the open tags cannot be read. -/
theorem step_unmatched (r : Reading) {opened : List Tag} (h : ∀ t ∈ opened, t.name ≠ r.style w) :
    r.step opened ('/' :: w) = none := by
  have hcut : Text.cut '=' ('/' :: w) = ('/' :: w, none) :=
    Text.cut_of_not_mem (List.not_mem_cons_of_ne_of_not_mem (by decide) hw.bare)
  have hnamed : w.isEmpty = false := by
    cases w with
    | nil => exact absurd hw.body.start (by decide)
    | cons => rfl
  have hfind : opened.find? (r.closes w) = none :=
    List.find?_eq_none.2 fun t ht => by simp [closes, hnamed, h t ht]
  rw [step, hcut]
  simp only [hw.trimmed, hfind]
  rfl

theorem reads_open (r : Reading) (older : List Tag) (rest : List Char) :
    r.reads 0 older ('[' :: (w ++ ']' :: rest)) = r.reads 0 (⟨r.style w, []⟩ :: older) rest := by
  rw [reads, tagsAfter_tag hw.body, if_neg (by decide), List.singleton_append, List.foldlM_cons,
    step_open hw]
  rfl

/-- A closing tag closes one of the first tags, if one of these has the name. Behind an odd number
of backslashes it is text. -/
theorem reads_close (r : Reading) {opened : List Tag} (older : List Tag)
    (hbare : ∀ t ∈ opened, t.parameters = []) (hmem : ⟨r.style w, []⟩ ∈ opened) (n : Nat)
    (rest : List Char) : ∃ opened' : List Tag, (∀ t ∈ opened', t.parameters = []) ∧
      r.reads n (opened ++ older) ('[' :: ('/' :: w ++ ']' :: rest)) =
        r.reads 0 (opened' ++ older) rest := by
  rw [reads, tagsAfter_tag hw.closing]
  split
  · exact ⟨opened, hbare, rfl⟩
  · obtain ⟨opened', hbare', hstep⟩ := step_close hw r older hbare hmem
    refine ⟨opened', hbare', ?_⟩
    rw [List.singleton_append, List.foldlM_cons, hstep]
    rfl

theorem reads_unmatched (r : Reading) {opened : List Tag} (h : ∀ t ∈ opened, t.name ≠ r.style w)
    (rest : List Char) : r.reads 0 opened ('[' :: ('/' :: w ++ ']' :: rest)) = false := by
  rw [reads, tagsAfter_tag hw.closing, if_neg (by decide), List.singleton_append, List.foldlM_cons,
    step_unmatched hw r h]
  rfl

end Reading

/-- Reading goes on behind the text as it does without it, but that tags of the program may have
stayed open. -/
def Harmless (s : List Char) : Prop :=
  ∀ (r : Reading) (older : List Tag) (rest : List Char), EndsNoTag rest →
    ∃ k opened, (∀ t ∈ opened, t.parameters = []) ∧
      r.reads 0 older (s ++ rest) = r.reads k (opened ++ older) rest

namespace Harmless

variable {s t : List Char}

theorem canRead {s : String} (h : Harmless s.toList) (r : Reading) : r.canRead s = true := by
  obtain ⟨k, opened, -, hreads⟩ := h r [] [] endsNoTag_nil
  rw [Reading.canRead_eq, ← List.append_nil s.toList, hreads, Reading.reads, tagsAfter_nil]
  rfl

theorem nil : Harmless [] := fun _ _ _ _ => ⟨0, [], nofun, rfl⟩

theorem escaped (s : String) : Harmless (escape s).toList := by
  intro r older rest hrest
  obtain ⟨k, hk⟩ := exists_tagsAfter_escape hrest s
  exact ⟨k, [], nofun, Reading.reads_congr hk older⟩

/-- What has no closing bracket can be put behind a text. -/
theorem append (hs : Harmless s) (ht : ']' ∉ t) : Harmless (s ++ t) := by
  intro r older rest hrest
  obtain ⟨n, opened, hbare, hreads⟩ := hs r older (t ++ rest) (hrest.append_left ht)
  obtain ⟨k, hk⟩ := exists_tagsAfter_of_not_mem hrest ht n
  refine ⟨k, opened, hbare, ?_⟩
  rw [List.append_assoc, hreads]
  exact Reading.reads_congr hk _

theorem of_not_mem (ht : ']' ∉ t) : Harmless t := nil.append ht

/-- What has neither opening brackets nor backslashes can be put before a text. -/
theorem plain_append (hs : Harmless s) (ht : ∀ c ∈ t, c ≠ '[' ∧ c ≠ '\\') : Harmless (t ++ s) := by
  intro r older rest hrest
  obtain ⟨k, opened, hbare, hreads⟩ := hs r older rest hrest
  refine ⟨k, opened, hbare, ?_⟩
  rw [List.append_assoc, ← hreads]
  exact Reading.reads_congr (tagsAfter_plain ht _) older

/-- A text can be styled, and others put behind it. -/
theorem styled {w : List Char} (hw : Reading.IsStyle w) (hs : Harmless s) (ht : Harmless t) :
    Harmless ('[' :: (w ++ ']' :: (s ++ '[' :: ('/' :: w ++ ']' :: t)))) := by
  intro r older rest hrest
  obtain ⟨n, opened, hbare, hreads⟩ :=
    hs r (⟨r.style w, []⟩ :: older) ('[' :: ('/' :: w ++ ']' :: (t ++ rest))) (endsNoTag_bracket _)
  have hbare' : ∀ t ∈ opened ++ [⟨r.style w, []⟩], t.parameters = [] := by
    simpa [or_imp, forall_and] using hbare
  obtain ⟨left, hleft, hclose⟩ := Reading.reads_close hw r older hbare' (by simp) n (t ++ rest)
  obtain ⟨k, more, hmore, hrest⟩ := ht r (left ++ older) rest hrest
  refine ⟨k, more ++ left, fun t ht => (List.mem_append.1 ht).elim (hmore t) (hleft t), ?_⟩
  rw [List.append_assoc, List.singleton_append] at hclose
  simp only [List.cons_append, List.append_assoc] at hreads hclose hrest ⊢
  rw [Reading.reads_open hw, hreads, hclose, hrest]

end Harmless

/-! ### Closing tags -/

/-- A text cannot be read if its first tag is a closing one. -/
theorem Reading.reads_of_closing (r : Reading) {name : List Char} (hname : IsBody ('/' :: name))
    (rest : List Char) : r.reads 0 [] ('[' :: ('/' :: name ++ ']' :: rest)) = false := by
  have hstep : r.step [] ('/' :: name) = none := by
    rw [step, Text.cut, if_neg (by decide)]
    rfl
  rw [reads, tagsAfter_tag hname, if_neg (by decide), List.singleton_append, List.foldlM_cons,
    hstep]
  rfl

theorem head?_ne_slash_of_mem_tagsAfter {n : Nat} {s : List Char} (h : ¬ ['[', '/'] <:+: s) :
    ∀ body ∈ tagsAfter n s, body.head? ≠ some '/' := by
  have hrest : ∀ {c t}, ¬ ['[', '/'] <:+: c :: t → ¬ ['[', '/'] <:+: t :=
    fun h hopening => h (hopening.trans (List.suffix_cons _ _).isInfix)
  fun_induction tagsAfter n s with
  | case1 => exact fun _ hbody => absurd hbody List.not_mem_nil
  | case2 _ _ ih => exact ih (hrest h)
  | case3 n s body hsome _ ih =>
    obtain ⟨hbody, rest, rfl⟩ := tagBody?_eq_some_iff.1 hsome
    have hhead : body.head? ≠ some '/' := by
      intro hhead
      obtain ⟨t, rfl⟩ := List.head?_eq_some_iff.1 hhead
      exact h (List.prefix_append ['[', '/'] (t ++ ']' :: rest)).isInfix
    have hafter := ih fun hopening => hrest h (hopening.trans (List.drop_suffix _ _).isInfix)
    intro body' hmem
    rcases List.mem_append.1 hmem with hmem | hmem
    · split at hmem
      · exact absurd hmem List.not_mem_nil
      · rwa [List.mem_singleton.1 hmem]
    · exact hafter body' hmem
  | case4 _ _ _ _ ih => exact ih (hrest h)
  | case5 _ _ _ _ _ ih => exact ih (hrest h)

namespace Reading

theorem exists_step_eq_some (r : Reading) (opened : List Tag) {body : List Char}
    (h : body.head? ≠ some '/') : ∃ opened', r.step opened body = some opened' := by
  rw [step]
  split
  · next name parameters hcut =>
    cases body with
    | nil => cases hcut
    | cons c body =>
      rw [Text.cut] at hcut
      split at hcut
      · cases hcut
      · cases hcut
        exact absurd rfl h
  · exact ⟨_, rfl⟩

/-- Tags that only open can be read. -/
theorem canRead_of_opening (r : Reading) {s : String} (h : ¬ ['[', '/'] <:+: s.toList) :
    r.canRead s = true := by
  have hfold : ∀ (bodies : List (List Char)) (opened : List Tag),
      (∀ body ∈ bodies, body.head? ≠ some '/') → (bodies.foldlM r.step opened).isSome = true := by
    intro bodies
    induction bodies with
    | nil => exact fun _ _ => rfl
    | cons body bodies ih =>
      intro opened hbodies
      obtain ⟨hbody, hbodies⟩ := List.forall_mem_cons.1 hbodies
      obtain ⟨opened', hstep⟩ := exists_step_eq_some r opened hbody
      rw [List.foldlM_cons, hstep]
      exact ih opened' hbodies
  exact hfold _ [] (head?_ne_slash_of_mem_tagsAfter h)

end Reading

end TodoLists.Markup
