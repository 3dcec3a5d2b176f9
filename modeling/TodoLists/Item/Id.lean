import TodoLists.Text.Numeral

/-!
# Item ids and where they come from

An id is a whole number, written `@42`. New ids are drawn from a supply of numbers, which may repeat
itself but, whatever ids are taken already, offers a free one eventually; the first free one becomes
the id of the new item.
-/

namespace TodoLists

structure ItemId where
  value : Int
  deriving DecidableEq, Repr

namespace ItemId

def print (i : ItemId) : List Char := '@' :: Text.ofInt i.value

/-- The text that has to be a number: what is given without blanks around it and without one `@`. -/
def numeral (s : List Char) : List Char :=
  match Text.strip s with
  | '@' :: cs => cs
  | cs => cs

/-- Reads `@42` or `42`. -/
def read? (s : List Char) : Option ItemId := (Text.readInt? (numeral s)).map ItemId.mk

end ItemId

/-- The first number that passes, when it is known that one passes and that none below `n` does. -/
def firstFrom (p : Nat → Bool) (h : ∃ k, p k = true) (n : Nat) (below : ∀ j < n, p j = false) :
    { k : Nat // p k = true ∧ ∀ j < k, p j = false } :=
  if hp : p n = true then ⟨n, hp, below⟩
  else firstFrom p h (n + 1) fun j hj => by
    rcases Nat.lt_succ_iff_lt_or_eq.1 hj with hj | rfl
    · exact below j hj
    · simpa using hp
termination_by h.choose - n
decreasing_by
  have hk := h.choose_spec
  have : ¬h.choose < n := fun hlt => by simp [below _ hlt] at hk
  have : h.choose ≠ n := fun e => hp (e ▸ hk)
  omega

/-- Numbers to draw ids from. -/
structure Supply where
  draw : Nat → Int
  /-- Whatever is taken and however much has been drawn, a free number is still to come. -/
  fresh : ∀ (taken : List Int) (n : Nat), ∃ k, draw (n + k) ∉ taken

namespace Supply

/-- The supply after some draws. -/
def drop (s : Supply) (n : Nat) : Supply where
  draw k := s.draw (n + k)
  fresh taken m := by
    obtain ⟨k, hk⟩ := s.fresh taken (n + m)
    exact ⟨k, by rwa [← Nat.add_assoc]⟩

/-- How many numbers are passed over before the first free one. -/
def skipped (s : Supply) (taken : List Int) :
    { k : Nat // (!taken.contains (s.draw k)) = true ∧
      ∀ j < k, (!taken.contains (s.draw j)) = false } :=
  firstFrom (fun k => !taken.contains (s.draw k))
    (by obtain ⟨k, hk⟩ := s.fresh taken 0; exact ⟨k, by simpa using hk⟩) 0 (by simp)

/-- The first free number, and the supply after it. -/
def next (s : Supply) (taken : List Int) : Int × Supply :=
  (s.draw (s.skipped taken), s.drop (s.skipped taken + 1))

theorem exists_natCast_not_mem (taken : List Int) (n : Nat) :
    ∃ k, ((n + k : Nat) : Int) ∉ taken := by
  let bound := taken.foldr (fun x m => max x.natAbs m) 0
  have hb : ∀ (l : List Int), ∀ x ∈ l, x.natAbs ≤ l.foldr (fun x m => max x.natAbs m) 0 := by
    intro l
    induction l with
    | nil => simp
    | cons y ys ih =>
      intro x hx
      rcases List.mem_cons.1 hx with rfl | hx
      · exact Nat.le_max_left _ _
      · exact Nat.le_trans (ih x hx) (Nat.le_max_right _ _)
  refine ⟨bound + 1, fun h => ?_⟩
  have hle : ((n + (bound + 1) : Nat) : Int).natAbs ≤ bound := hb taken _ h
  have hcast : ((n + (bound + 1) : Nat) : Int).natAbs = n + (bound + 1) := Int.natAbs_natCast _
  omega

/-- The given numbers in order, and then 1, 2, 3 and so on. -/
def ofList (numbers : List Int) : Supply where
  draw k := if h : k < numbers.length then numbers[k] else (k - numbers.length + 1 : Nat)
  fresh taken n := by
    obtain ⟨k, hk⟩ := exists_natCast_not_mem taken (n + 1)
    refine ⟨numbers.length + k, ?_⟩
    have hge : ¬n + (numbers.length + k) < numbers.length := by omega
    have heq : n + (numbers.length + k) - numbers.length + 1 = n + 1 + k := by omega
    simpa [hge, heq] using hk

end Supply

end TodoLists
