import TodoLists.Proofs.Text.LetterCase
import TodoLists.Proofs.Text.Strip
import TodoLists.Status

/-!
# Status words

A word stands for the status that its longest beginning with a meaning tells: of the beginnings of
the word that also begin some status name, the longest one has to begin exactly one name. What comes
behind it in the word does not matter, so a word that stands for a status can go on in any way.
-/

namespace TodoLists

namespace Text

/-! ### Shared beginnings -/

theorem sharedLength_le (u v : List Char) : sharedLength u v ≤ u.length := by
  induction u generalizing v with
  | nil => exact Nat.le_refl 0
  | cons a u ih =>
    cases v with
    | nil => exact Nat.zero_le _
    | cons b v =>
      have hrest := ih v
      rw [sharedLength, List.length_cons]
      split <;> omega

/-- A beginning of one text begins another one as far as they share their characters. -/
theorem take_prefix_iff {u v : List Char} {n : Nat} (hn : n ≤ u.length) :
    u.take n <+: v ↔ n ≤ sharedLength u v := by
  induction u generalizing v n with
  | nil =>
    obtain rfl : n = 0 := Nat.le_zero.1 hn
    simp
  | cons a u ih =>
    cases n with
    | zero => simp
    | succ n =>
      cases v with
      | nil => simp [sharedLength]
      | cons b v =>
        have hrest := ih (v := v) (Nat.le_of_succ_le_succ hn)
        rw [List.take_succ_cons, List.cons_prefix_cons, sharedLength]
        split
        · next hab => rw [and_iff_right hab, hrest, Nat.succ_le_succ_iff]
        · next hab => simp [hab]

/-! ### Lower case of a text that goes on -/

namespace Lowercase

/-- Lower case goes on as it began when a text goes on, as far as the beginning has no sigma, whose
form depends on whether its word ends there. -/
theorem prefix_after_append {q s : List Char} {b : Bool} (hq : q <+: after b s)
    (hascii : ∀ c ∈ q, c.toNat < 128) (more : List Char) : q <+: after b (s ++ more) := by
  induction s generalizing q b with
  | nil =>
    rw [List.prefix_nil.1 hq]
    exact List.nil_prefix
  | cons c cs ih =>
    rw [after] at hq
    rw [List.cons_append, after]
    by_cases hc : c = 'Σ'
    · rw [if_pos hc] at hq
      cases q with
      | nil => exact List.nil_prefix
      | cons x q =>
        have hx := hascii x List.mem_cons_self
        rw [(List.cons_prefix_cons.1 hq).1] at hx
        split at hx <;> exact absurd hx (by decide)
    · rw [if_neg hc] at hq ⊢
      rcases List.prefix_or_prefix_of_prefix hq (List.prefix_append _ _) with hfirst | ⟨rest, rfl⟩
      · exact hfirst.trans (List.prefix_append _ _)
      · rw [List.prefix_append_right_inj] at hq ⊢
        exact ih hq fun x hx => hascii x (List.mem_append_right _ hx)

end Lowercase

end Text

namespace Status

variable {u p q w : List Char} {s : Status}

/-! ### The longest beginning with a meaning -/

/-- The text begins the name of a status in lower case. -/
def Begins (q : List Char) (s : Status) : Prop := q <+: Text.lowercase s.name.toList

instance (q : List Char) (s : Status) : Decidable (Begins q s) :=
  inferInstanceAs (Decidable (q <+: Text.lowercase s.name.toList))

/-- The longest beginning of a word that begins some status name. -/
structure IsLongestStart (u p : List Char) : Prop where
  ofWord : p <+: u
  ofName : ∃ s, Begins p s
  longest : ∀ q, q <+: u → (∃ s, Begins q s) → q.length ≤ p.length

theorem lowercase_name (s : Status) : Text.lowercase s.name.toList = s.lowerName := by
  cases s <;> rfl

theorem lowerName_ascii (s : Status) : s.lowerName.all (·.toNat < 128) = true := by
  cases s <;> rfl

theorem Begins.ascii (h : Begins p s) : ∀ c ∈ p, c.toNat < 128 := by
  rw [Begins, lowercase_name] at h
  exact fun c hc => of_decide_eq_true (List.all_eq_true.1 (lowerName_ascii s) c (h.subset hc))

theorem Begins.of_prefix (h : Begins p s) (hq : q <+: p) : Begins q s := hq.trans h

/-- A word and a text that begins it begin the same names as far as both are long enough. -/
theorem begins_take_iff {n : Nat} (hn : n ≤ u.length) :
    Begins (u.take n) s ↔ n ≤ Text.sharedLength u s.lowerName := by
  rw [Begins, lowercase_name, Text.take_prefix_iff hn]

/-- The statuses closest to a word are those whose names share the most with it. -/
theorem exists_best (u : List Char) :
    ∃ best, (∃ s : Status, Text.sharedLength u s.lowerName = best) ∧
      (∀ s : Status, Text.sharedLength u s.lowerName ≤ best) ∧
      closest u = all.filter fun s => Text.sharedLength u s.lowerName = best := by
  have hbest := List.max?_eq_some_max (l := all.map fun s => Text.sharedLength u s.lowerName)
    (by simp [all])
  have hmax := List.max?_eq_some_iff.1 hbest
  rw [List.mem_map, List.forall_mem_map] at hmax
  obtain ⟨⟨s, -, hs⟩, hle⟩ := hmax
  refine ⟨_, ⟨s, hs⟩, fun t => hle t (mem_all t), ?_⟩
  rw [closest, List.foldl_max, hbest, Option.getD_some, Nat.zero_max]

theorem nodup_all : all.Nodup := by decide

/-- What the resolution of a word depends on: the longest beginning of the word that begins a name,
and the names it begins. -/
theorem exists_longestStart (u : List Char) :
    ∃ p, IsLongestStart u p ∧ closest u = all.filter (Begins p ·) ∧
      (p = [] ↔ all.all fun s => Text.sharedLength u s.lowerName = 0) := by
  obtain ⟨best, ⟨s, hs⟩, hle, hclosest⟩ := exists_best u
  have hbest : best ≤ u.length := hs ▸ Text.sharedLength_le u s.lowerName
  have hbegins : ∀ t : Status, Begins (u.take best) t ↔ Text.sharedLength u t.lowerName = best :=
    fun t => (begins_take_iff hbest).trans ⟨fun h => (hle t).antisymm h, fun h => h.ge⟩
  refine ⟨u.take best, ⟨List.take_prefix _ _, ⟨s, (hbegins s).2 hs⟩, ?_⟩, ?_, ?_⟩
  · rintro q hq ⟨t, ht⟩
    rw [List.prefix_iff_eq_take.1 hq] at ht
    rw [List.length_take_of_le hbest]
    exact ((begins_take_iff hq.length_le).1 ht).trans (hle t)
  · simp only [hclosest, hbegins]
  · rw [List.all_eq_true]
    constructor
    · intro hnil t _
      have hzero : best = 0 := by rw [← List.length_take_of_le hbest, hnil, List.length_nil]
      exact decide_eq_true (Nat.le_zero.1 (hzero ▸ hle t))
    · intro hzero
      rw [← hs, of_decide_eq_true (hzero s (mem_all s)), List.take_zero]

theorem filter_all_eq_singleton_iff : all.filter (Begins p ·) = [s] ↔ ∀ a, Begins p a ↔ a = s := by
  constructor
  · intro h a
    have hmem : a ∈ all.filter (Begins p ·) ↔ a = s := by rw [h, List.mem_singleton]
    rwa [List.mem_filter, and_iff_right (mem_all a), decide_eq_true_iff] at hmem
  · intro h
    refine List.perm_singleton.1 ((List.perm_ext_iff_of_nodup (nodup_all.filter _)
      (List.nodup_singleton s)).2 fun a => ?_)
    rw [List.mem_filter, and_iff_right (mem_all a), decide_eq_true_iff, h, List.mem_singleton]

theorem IsLongestStart.unique (hp : IsLongestStart u p) (hq : IsLongestStart u q) : p = q := by
  have hpq := hq.longest p hp.ofWord hp.ofName
  have hqp := hp.longest q hq.ofWord hq.ofName
  exact (List.prefix_of_prefix_length_le hp.ofWord hq.ofWord hpq).eq_of_length_le hqp

/-! ### Resolving a word -/

/-- A word stands for the status whose name alone its longest start begins. -/
theorem ofCleanWord_eq (hp : IsLongestStart u p) :
    ofCleanWord u =
      if u = [] then .error .empty
      else if p = [] then .error (.unknown u)
      else match all.filter (Begins p ·) with
        | [s] => .ok s
        | ss => .error (.ambiguous u ss) := by
  obtain ⟨q, hq, hclosest, hnil⟩ := exists_longestStart u
  rw [hp.unique hq, ofCleanWord, hclosest]
  exact if_congr Iff.rfl rfl (if_congr hnil.symm rfl rfl)

theorem ofCleanWord_eq_ok_iff (hp : IsLongestStart u p) :
    ofCleanWord u = .ok s ↔ p ≠ [] ∧ ∀ a, Begins p a ↔ a = s := by
  rw [ofCleanWord_eq hp, ← filter_all_eq_singleton_iff]
  by_cases hu : u = []
  · have hnil : p = [] := List.prefix_nil.1 (hu ▸ hp.ofWord)
    simp [hu, hnil]
  · rw [if_neg hu]
    split
    · next hnil => simp [hnil]
    · next hnil =>
      rw [and_iff_right hnil]
      split
      · next t ht => rw [ht, Except.ok.injEq, List.singleton_inj]
      · next hmany => exact ⟨nofun, fun h => absurd h (hmany s)⟩

/-- The longest start of a word that goes on goes on behind the one of the word. -/
theorem IsLongestStart.prefix_of_append {x : List Char}
    (hp : IsLongestStart (Text.lowercase (Text.strip w)) p)
    (hq : IsLongestStart (Text.lowercase (Text.strip (w ++ x))) q) : p <+: q := by
  obtain ⟨s, hs⟩ := hp.ofName
  obtain ⟨more, hmore⟩ := Text.strip_prefix_strip_append w x
  have hprefix : p <+: Text.lowercase (Text.strip (w ++ x)) := by
    rw [← hmore]
    exact Text.Lowercase.prefix_after_append hp.ofWord hs.ascii more
  exact List.prefix_of_prefix_length_le hprefix hq.ofWord (hq.longest p hprefix hp.ofName)

theorem ofWord_append (h : ofWord w = .ok s) (x : List Char) : ofWord (w ++ x) = .ok s := by
  obtain ⟨p, hp, -⟩ := exists_longestStart (Text.lowercase (Text.strip w))
  obtain ⟨q, hq, -⟩ := exists_longestStart (Text.lowercase (Text.strip (w ++ x)))
  obtain ⟨hnil, honly⟩ := (ofCleanWord_eq_ok_iff hp).1 h
  have hpq := hp.prefix_of_append hq
  refine (ofCleanWord_eq_ok_iff hq).2 ⟨fun hq => hnil (List.prefix_nil.1 (hq ▸ hpq)), fun a => ?_⟩
  -- the longer start begins some name, which the shorter one tells
  obtain ⟨t, ht⟩ := hq.ofName
  have hts : t = s := (honly t).1 (ht.of_prefix hpq)
  exact ⟨fun ha => (honly a).1 (ha.of_prefix hpq), fun ha => ha ▸ hts ▸ ht⟩

/-- A word stands for a status when its longest start is not empty and begins the name of that
status only, and for none otherwise. What follows a word that stands for a status is ignored. -/
theorem ofWord_longestStart (w : List Char) :
    ∃ p, IsLongestStart (Text.lowercase (Text.strip w)) p ∧
      (∀ s, ofWord w = .ok s ↔ p ≠ [] ∧ ∀ a, Begins p a ↔ a = s) ∧
      ((¬∃ s, p ≠ [] ∧ ∀ a, Begins p a ↔ a = s) → ∃ e, ofWord w = .error e) ∧
      ∀ s, ofWord w = .ok s → ∀ x, ofWord (w ++ x) = .ok s := by
  obtain ⟨p, hp, -⟩ := exists_longestStart (Text.lowercase (Text.strip w))
  have hok (s : Status) : ofWord w = .ok s ↔ p ≠ [] ∧ ∀ a, Begins p a ↔ a = s :=
    ofCleanWord_eq_ok_iff hp
  refine ⟨p, hp, hok, fun hnone => ?_, fun s h x => ofWord_append h x⟩
  cases hword : ofWord w with
  | error e => exact ⟨e, rfl⟩
  | ok s => exact absurd ⟨s, (hok s).1 hword⟩ hnone

example : ofWord "Quack".toList = .ok .queuing := by rfl

example : ofWord "w".toList = .error (.ambiguous ['w'] [.waiting, .working]) := by rfl

end Status

end TodoLists
