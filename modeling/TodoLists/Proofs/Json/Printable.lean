import TodoLists.Proofs.Json.RoundTrip

/-!
# Written values are printable

What is written of a value without floating numbers consists of printable ASCII characters and line
breaks, whatever its texts hold. So the file is the same in every encoding that agrees with ASCII.
-/

namespace TodoLists.Json

/-- A line break or a printable ASCII character. -/
def IsPrintable (c : Char) : Prop := c = '\n' ∨ 32 ≤ c.toNat ∧ c.toNat < 127

instance (c : Char) : Decidable (IsPrintable c) :=
  inferInstanceAs (Decidable (c = '\n' ∨ 32 ≤ c.toNat ∧ c.toNat < 127))

def ArePrintable (s : List Char) : Prop := ∀ c ∈ s, IsPrintable c

theorem arePrintable_cons {c : Char} {s : List Char} :
    ArePrintable (c :: s) ↔ IsPrintable c ∧ ArePrintable s :=
  List.forall_mem_cons

theorem arePrintable_append {s t : List Char} :
    ArePrintable (s ++ t) ↔ ArePrintable s ∧ ArePrintable t :=
  List.forall_mem_append

theorem arePrintable_of_all {s : List Char} (h : s.all (fun c => IsPrintable c) = true) :
    ArePrintable s :=
  fun c hc => of_decide_eq_true (List.all_eq_true.1 h c hc)

theorem arePrintable_newline (depth : Nat) : ArePrintable (newline depth) := by
  refine arePrintable_cons.2 ⟨Or.inl rfl, fun c hc => ?_⟩
  rw [List.eq_of_mem_replicate hc]
  decide

/-! ### Texts and numbers -/

theorem arePrintable_escapeUnit (n : Nat) : ArePrintable (escapeUnit n) := by
  have hdigit (k : Nat) : IsPrintable (hexDigit (k % 16)) := by
    have hall : ∀ k < 16, IsPrintable (hexDigit k) := by decide
    exact hall _ (Nat.mod_lt k (by decide))
  intro c hc
  simp only [escapeUnit, List.mem_cons, List.not_mem_nil, or_false] at hc
  rcases hc with rfl | rfl | rfl | rfl | rfl | rfl
  · decide
  · decide
  all_goals exact hdigit _

theorem arePrintable_escape (n : Nat) : ArePrintable (escape n) := by
  unfold escape
  split
  · next c hc =>
    have hletter : IsPrintable c := by
      unfold escapeLetter? at hc
      split at hc <;> cases hc <;> decide
    exact arePrintable_cons.2 ⟨by decide, List.forall_mem_singleton.2 hletter⟩
  · split
    · next h =>
      have hall : ∀ n < 127, 32 ≤ n → IsPrintable (Char.ofNat n) := by decide
      exact List.forall_mem_singleton.2 (hall n h.2 h.1)
    · rw [escapeNumber]
      split
      · exact arePrintable_escapeUnit n
      · exact arePrintable_append.2 ⟨arePrintable_escapeUnit _, arePrintable_escapeUnit _⟩

theorem arePrintable_quote (t : LooseText) : ArePrintable (quote t) := by
  refine arePrintable_cons.2 ⟨by decide, arePrintable_append.2 ⟨fun c hc => ?_, ?_⟩⟩
  · obtain ⟨n, -, hn⟩ := List.mem_flatMap.1 hc
    exact arePrintable_escape n c hn
  · exact List.forall_mem_singleton.2 (by decide)

theorem arePrintable_ofInt (n : Int) : ArePrintable (Text.ofInt n) := by
  have hdigits (m : Nat) : ArePrintable (Nat.toDigits 10 m) := by
    intro c hc
    have := isAsciiDigit_iff.1 (isAsciiDigit_of_mem_toDigits c hc)
    exact Or.inr (by omega)
  cases n with
  | ofNat m => exact (Text.ofInt_natCast m).symm ▸ hdigits m
  | negSucc m =>
    rw [Text.ofInt_negSucc]
    exact arePrintable_cons.2 ⟨by decide, hdigits _⟩

/-! ### Values -/

/-- What is said about one value: written before something printable it is printable with it. -/
def WritesPrintable (v : Json) : Prop :=
  ∀ depth rest, ArePrintable rest → ArePrintable (writeAt depth rest v)

theorem arePrintable_writeElements {es : List Json} (h : ∀ e ∈ es, WritesPrintable e)
    (depth : Nat) {rest : List Char} (hrest : ArePrintable rest) :
    ArePrintable (writeElements depth rest es) := by
  induction es with
  | nil => rwa [writeElements]
  | cons e es ih =>
    obtain ⟨he, hes⟩ := List.forall_mem_cons.1 h
    rw [writeElements]
    exact arePrintable_cons.2 ⟨by decide, arePrintable_append.2
      ⟨arePrintable_newline depth, he depth _ (ih hes)⟩⟩

/-- The name of a member, the colon and what follows. -/
theorem arePrintable_member (name : LooseText) {s : List Char} (h : ArePrintable s)
    (depth : Nat) : ArePrintable (newline depth ++ quote name ++ ':' :: ' ' :: s) := by
  refine arePrintable_append.2 ⟨arePrintable_append.2 ⟨arePrintable_newline depth,
    arePrintable_quote name⟩, ?_⟩
  exact arePrintable_cons.2 ⟨by decide, arePrintable_cons.2 ⟨by decide, h⟩⟩

theorem arePrintable_writeMembers {ms : List (LooseText × Json)}
    (h : ∀ m ∈ ms, WritesPrintable m.2) (depth : Nat) {rest : List Char}
    (hrest : ArePrintable rest) : ArePrintable (writeMembers depth rest ms) := by
  induction ms with
  | nil => rwa [writeMembers]
  | cons m ms ih =>
    obtain ⟨hm, hms⟩ := List.forall_mem_cons.1 h
    rw [writeMembers]
    exact arePrintable_cons.2 ⟨by decide, arePrintable_member m.1 (hm depth _ (ih hms)) depth⟩

theorem writesPrintable_arr {es : List Json} (h : ∀ e ∈ es, WritesPrintable e) :
    WritesPrintable (arr es) := by
  intro depth rest hrest
  cases es with
  | nil =>
    rw [writeAt]
    exact arePrintable_cons.2 ⟨by decide, arePrintable_cons.2 ⟨by decide, hrest⟩⟩
  | cons e es =>
    obtain ⟨he, hes⟩ := List.forall_mem_cons.1 h
    have hend : ArePrintable (newline depth ++ ']' :: rest) := arePrintable_append.2
      ⟨arePrintable_newline depth, arePrintable_cons.2 ⟨by decide, hrest⟩⟩
    rw [writeAt]
    exact arePrintable_cons.2 ⟨by decide, arePrintable_append.2 ⟨arePrintable_newline _,
      he _ _ (arePrintable_writeElements hes _ hend)⟩⟩

theorem writesPrintable_obj {ms : List (LooseText × Json)} (h : ∀ m ∈ ms, WritesPrintable m.2) :
    WritesPrintable (obj ms) := by
  intro depth rest hrest
  cases ms with
  | nil =>
    rw [writeAt]
    exact arePrintable_cons.2 ⟨by decide, arePrintable_cons.2 ⟨by decide, hrest⟩⟩
  | cons m ms =>
    obtain ⟨hm, hms⟩ := List.forall_mem_cons.1 h
    have hend : ArePrintable (newline depth ++ '}' :: rest) := arePrintable_append.2
      ⟨arePrintable_newline depth, arePrintable_cons.2 ⟨by decide, hrest⟩⟩
    rw [writeAt]
    exact arePrintable_cons.2 ⟨by decide, arePrintable_member m.1
      (hm _ _ (arePrintable_writeMembers hms _ hend)) _⟩

theorem writesPrintable_of_regular {v : Json} (h : Regular (fun _ => False) v) :
    WritesPrintable v := by
  induction h with
  | null =>
    intro depth rest hrest
    rw [writeAt]
    exact arePrintable_append.2 ⟨arePrintable_of_all (by decide), hrest⟩
  | bool b =>
    intro depth rest hrest
    cases b with
    | true =>
      rw [writeAt]
      exact arePrintable_append.2 ⟨arePrintable_of_all (by decide), hrest⟩
    | false =>
      rw [writeAt]
      exact arePrintable_append.2 ⟨arePrintable_of_all (by decide), hrest⟩
  | int h =>
    intro depth rest hrest
    rw [writeAt, if_pos h]
    exact arePrintable_append.2 ⟨arePrintable_ofInt _, hrest⟩
  | float h => exact h.elim
  | str h =>
    intro depth rest hrest
    rw [writeAt]
    exact arePrintable_append.2 ⟨arePrintable_quote _, hrest⟩
  | arr _ ih => exact writesPrintable_arr ih
  | obj _ _ _ ih => exact writesPrintable_obj ih

/-- The text of a file is printable. -/
theorem arePrintable_write {v : Json} (h : Regular (fun _ => False) v) :
    ArePrintable v.write.toList := by
  rw [write, String.toList_ofList]
  exact writesPrintable_of_regular h 0 [] fun _ hc => absurd hc List.not_mem_nil

end TodoLists.Json
