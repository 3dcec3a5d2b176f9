import Mathlib.Data.List.Forall2

/-!
# Steps that may fail

A step that may fail gives a result or a fault. When steps are done one after another, a result
comes from results of all of them and a fault from the first one that fails.
-/

namespace TodoLists

variable {ε ε' α β : Type} {x : Except ε α} {k : α → Except ε β}

theorem exists_of_bind_eq_ok {b : β} (h : x >>= k = .ok b) : ∃ a, x = .ok a ∧ k a = .ok b := by
  cases x with
  | error e => cases h
  | ok a => exact ⟨a, rfl, h⟩

theorem cases_of_bind_eq_error {e : ε} (h : x >>= k = .error e) :
    x = .error e ∨ ∃ a, x = .ok a ∧ k a = .error e := by
  cases x with
  | error e' => exact Or.inl (congrArg Except.error (Except.error.inj h))
  | ok a => exact Or.inr ⟨a, rfl, h⟩

theorem exists_of_map_eq_ok {f : α → β} {b : β} (h : x.map f = .ok b) :
    ∃ a, x = .ok a ∧ f a = b := by
  cases x with
  | error e => cases h
  | ok a => exact ⟨a, rfl, Except.ok.inj h⟩

theorem eq_error_of_map_eq_error {f : α → β} {e : ε} (h : x.map f = .error e) : x = .error e := by
  cases x with
  | error e' => exact congrArg Except.error (Except.error.inj h)
  | ok a => cases h

theorem map_eq_error_iff {f : α → β} {e : ε} : x.map f = .error e ↔ x = .error e := by
  constructor
  · exact eq_error_of_map_eq_error
  · rintro rfl
    rfl

theorem exists_of_mapError_eq_error {f : ε → ε'} {e : ε'} (h : x.mapError f = .error e) :
    ∃ e', x = .error e' ∧ f e' = e := by
  cases x with
  | error e' => exact ⟨e', rfl, Except.error.inj h⟩
  | ok a => cases h

theorem eq_ok_of_mapError_eq_ok {f : ε → ε'} {a : α} (h : x.mapError f = .ok a) : x = .ok a := by
  cases x with
  | error e' => cases h
  | ok a' => exact congrArg Except.ok (Except.ok.inj h)

theorem mapError_eq_ok_iff {f : ε → ε'} {a : α} : x.mapError f = .ok a ↔ x = .ok a := by
  constructor
  · exact eq_ok_of_mapError_eq_ok
  · rintro rfl
    rfl

/-! ### The same step for each member of a list -/

variable {f : α → Except ε β} {xs before : List α} {a : α} {e : ε}

/-- All members give results when each of them does. -/
theorem mapM_eq_ok_iff {ys : List β} :
    xs.mapM f = .ok ys ↔ List.Forall₂ (fun x y => f x = .ok y) xs ys := by
  induction xs generalizing ys with
  | nil =>
    constructor
    · intro h
      cases h
      exact .nil
    · intro h
      cases h
      rfl
  | cons x xs ih =>
    rw [List.mapM_cons]
    constructor
    · intro h
      obtain ⟨y, hy, h⟩ := exists_of_bind_eq_ok h
      obtain ⟨zs, hzs, h⟩ := exists_of_bind_eq_ok h
      cases h
      exact .cons hy (ih.1 hzs)
    · intro h
      cases h with
      | cons hy hys =>
        rw [hy, ih.2 hys]
        rfl

/-- What holds of each result that a member can give holds of all results. -/
theorem forall_of_mapM_eq_ok {P : β → Prop} {ys : List β} (h : xs.mapM f = .ok ys)
    (hf : ∀ x ∈ xs, ∀ y, f x = .ok y → P y) : ∀ y ∈ ys, P y := by
  induction xs generalizing ys with
  | nil =>
    cases h
    exact fun y hy => absurd hy List.not_mem_nil
  | cons x xs ih =>
    rw [List.mapM_cons] at h
    obtain ⟨y, hy, h⟩ := exists_of_bind_eq_ok h
    obtain ⟨zs, hzs, h⟩ := exists_of_bind_eq_ok h
    cases h
    obtain ⟨hx, hxs⟩ := List.forall_mem_cons.1 hf
    exact List.forall_mem_cons.2 ⟨hx y hy, ih hzs hxs⟩

theorem forall_of_mapM_eq_some {g : α → Option β} {P : β → Prop} {ys : List β}
    (h : xs.mapM g = some ys) (hg : ∀ x ∈ xs, ∀ y, g x = some y → P y) : ∀ y ∈ ys, P y := by
  induction xs generalizing ys with
  | nil =>
    cases h
    exact fun y hy => absurd hy List.not_mem_nil
  | cons x xs ih =>
    rw [List.mapM_cons] at h
    obtain ⟨y, hy, h⟩ := Option.bind_eq_some_iff.1 h
    obtain ⟨zs, hzs, h⟩ := Option.bind_eq_some_iff.1 h
    cases h
    obtain ⟨hx, hxs⟩ := List.forall_mem_cons.1 hg
    exact List.forall_mem_cons.2 ⟨hx y hy, ih hzs hxs⟩

/-- A member that fails stands behind members that do not. -/
theorem exists_of_mapM_eq_error (h : xs.mapM f = .error e) :
    ∃ before a after, xs = before ++ a :: after ∧ (∀ y ∈ before, ∃ b, f y = .ok b) ∧
      f a = .error e := by
  induction xs with
  | nil => cases h
  | cons x xs ih =>
    rw [List.mapM_cons] at h
    rcases cases_of_bind_eq_error h with hx | ⟨b, hb, h⟩
    · exact ⟨[], x, xs, rfl, fun y hy => absurd hy List.not_mem_nil, hx⟩
    · rcases cases_of_bind_eq_error h with hxs | ⟨bs, -, h⟩
      · obtain ⟨before, a, after, rfl, hbefore, ha⟩ := ih hxs
        exact ⟨x :: before, a, after, rfl, List.forall_mem_cons.2 ⟨⟨b, hb⟩, hbefore⟩, ha⟩
      · cases h

theorem mapM_eq_error (hbefore : ∀ y ∈ before, ∃ b, f y = .ok b) (ha : f a = .error e)
    (after : List α) : (before ++ a :: after).mapM f = .error e := by
  induction before with
  | nil =>
    rw [List.nil_append, List.mapM_cons, ha]
    rfl
  | cons x before ih =>
    obtain ⟨⟨b, hb⟩, hbefore⟩ := List.forall_mem_cons.1 hbefore
    rw [List.cons_append, List.mapM_cons, hb, ih hbefore]
    rfl

theorem mapM_eq_error_iff : xs.mapM f = .error e ↔
    ∃ before a after, xs = before ++ a :: after ∧ (∀ y ∈ before, ∃ b, f y = .ok b) ∧
      f a = .error e := by
  constructor
  · exact exists_of_mapM_eq_error
  · rintro ⟨before, a, after, rfl, hbefore, ha⟩
    exact mapM_eq_error hbefore ha after

end TodoLists
