import TodoLists.Proofs.SortOrder.Sorting

/-!
# Sorting twice

Sorting by one row of keys and then by a more important one comes to sorting once by the two rows
together. What carries this is that sorting leaves no choice: pairs that are in order, and in which
pairs that no key tells apart stand as they stood before, are settled by these two conditions alone,
whatever repetitions there are among the pairs or the keys.
-/

namespace TodoLists.SortOrder

variable {ks ks₁ ks₂ : List SortKey} {ps qs rs : List (ItemId × Item)}

/-! ### Rows of keys -/

/-- Keys that come later decide where the earlier ones do not. -/
theorem ordering_append (ks₁ ks₂ : List SortKey) (a b : Item) :
    ordering (ks₁ ++ ks₂) a b = (ordering ks₁ a b).then (ordering ks₂ a b) := by
  induction ks₁ with
  | nil => rfl
  | cons k ks₁ ih =>
    rw [List.cons_append, ordering, ordering, compareLex, compareLex, ih, Ordering.then_assoc]

/-- No key tells the pair's item from the given one. -/
def isTied (ks : List SortKey) (i : Item) (p : ItemId × Item) : Bool := ordering ks p.2 i == .eq

theorem isTied_append (ks₁ ks₂ : List SortKey) (i : Item) (p : ItemId × Item) :
    isTied (ks₁ ++ ks₂) i p = (isTied ks₁ i p && isTied ks₂ i p) := by
  rw [isTied, isTied, isTied, ordering_append]
  cases ordering ks₁ p.2 i <;> cases ordering ks₂ p.2 i <;> rfl

theorem isTied_self (ks : List SortKey) (p : ItemId × Item) : isTied ks p.2 p = true :=
  beq_iff_eq.2 Std.ReflCmp.compare_self

/-- Pairs either of which may stand before the other are tied. -/
theorem isTied_of_precedes {x y : ItemId × Item} (hxy : precedes ks x y = true)
    (hyx : precedes ks y x = true) : isTied ks x.2 y = true :=
  beq_iff_eq.2 (Std.OrientedCmp.isLE_antisymm hyx hxy)

theorem precedes_append {x y : ItemId × Item} (h₁ : precedes ks₁ x y = true)
    (h₂ : isTied ks₁ y.2 x = true → precedes ks₂ x y = true) :
    precedes (ks₁ ++ ks₂) x y = true := by
  rw [precedes] at h₁
  rw [precedes, ordering_append]
  cases hxy : ordering ks₁ x.2 y.2 with
  | lt => rfl
  | eq => exact h₂ (beq_iff_eq.2 hxy)
  | gt =>
    rw [hxy] at h₁
    cases h₁

/-! ### Stable arrangements -/

/-- The second row holds the pairs of the first in order, and tied pairs stand as they stood. -/
structure Arranges (ks : List SortKey) (ps qs : List (ItemId × Item)) : Prop where
  sorted : qs.Pairwise fun x y => precedes ks x y = true
  tied : ∀ i, qs.filter (isTied ks i) = ps.filter (isTied ks i)

theorem arranges_mergeSort (ks : List SortKey) (ps : List (ItemId × Item)) :
    Arranges ks ps (ps.mergeSort (precedes ks)) where
  sorted := List.pairwise_mergeSort (precedes_trans ks) (precedes_total ks) ps
  tied i := filter_mergeSort ks i ps

/-- A pair is among the pairs tied to it. -/
theorem mem_iff_of_tied (h : ∀ i, qs.filter (isTied ks i) = rs.filter (isTied ks i))
    (p : ItemId × Item) : p ∈ qs ↔ p ∈ rs := by
  have hmem := congrArg (p ∈ ·) (h p.2)
  simpa [List.mem_filter, isTied_self] using hmem

/-- The first pair of a row in order may stand before every pair of it. -/
theorem precedes_of_mem {x y : ItemId × Item}
    (h : (x :: qs).Pairwise fun x y => precedes ks x y = true) (hy : y ∈ x :: qs) :
    precedes ks x y = true := by
  rcases List.mem_cons.1 hy with rfl | hy
  · have htotal := precedes_total ks y y
    rwa [Bool.or_self] at htotal
  · exact List.rel_of_pairwise_cons h hy

/-- Rows in order with the same tied pairs are the same. -/
theorem eq_of_tied (hqs : qs.Pairwise fun x y => precedes ks x y = true)
    (hrs : rs.Pairwise fun x y => precedes ks x y = true)
    (h : ∀ i, qs.filter (isTied ks i) = rs.filter (isTied ks i)) : qs = rs := by
  induction qs generalizing rs with
  | nil => exact (List.eq_nil_iff_forall_not_mem.2 fun p hp =>
      List.not_mem_nil ((mem_iff_of_tied h p).2 hp)).symm
  | cons x qs ih =>
    cases rs with
    | nil => exact absurd ((mem_iff_of_tied h x).1 List.mem_cons_self) List.not_mem_nil
    | cons y rs =>
      have hxy := precedes_of_mem hqs ((mem_iff_of_tied h y).2 List.mem_cons_self)
      have hyx := precedes_of_mem hrs ((mem_iff_of_tied h x).1 List.mem_cons_self)
      have hhead := h x.2
      rw [List.filter_cons_of_pos (isTied_self ks x),
        List.filter_cons_of_pos (isTied_of_precedes hxy hyx), List.cons.injEq] at hhead
      obtain ⟨rfl, -⟩ := hhead
      refine congrArg _ (ih hqs.of_cons hrs.of_cons fun i => ?_)
      have htail := h i
      rw [List.filter_cons, List.filter_cons] at htail
      split at htail
      · exact List.tail_eq_of_cons_eq htail
      · exact htail

theorem Arranges.unique (h : Arranges ks ps qs) (h' : Arranges ks ps rs) : qs = rs :=
  eq_of_tied h.sorted h'.sorted fun i => (h.tied i).trans (h'.tied i).symm

/-- Two arrangements one after the other, the second by the more important keys. -/
theorem Arranges.append (h₂ : Arranges ks₂ ps qs) (h₁ : Arranges ks₁ qs rs) :
    Arranges (ks₁ ++ ks₂) ps rs where
  sorted := by
    rw [List.pairwise_iff_forall_sublist]
    intro x y hsub
    have hxy := List.pairwise_iff_forall_sublist.1 h₁.sorted hsub
    refine precedes_append hxy fun htied => List.pairwise_iff_forall_sublist.1 h₂.sorted ?_
    -- Tied by the first keys, the two stand in this order among the pairs tied to the second.
    have hfilter := hsub.filter (isTied ks₁ y.2)
    rw [h₁.tied, List.filter_cons_of_pos htied, List.filter_cons_of_pos (isTied_self ks₁ y),
      List.filter_nil] at hfilter
    exact hfilter.trans List.filter_sublist
  tied i := by
    have hsplit : ∀ l : List (ItemId × Item), l.filter (isTied (ks₁ ++ ks₂) i) =
        (l.filter (isTied ks₁ i)).filter (isTied ks₂ i) := by
      intro l
      rw [List.filter_filter]
      exact List.filter_congr fun p _ => by rw [isTied_append, Bool.and_comm]
    rw [hsplit, h₁.tied, List.filter_comm, h₂.tied, List.filter_comm, ← hsplit]

theorem mergeSort_precedes_append (ks₁ ks₂ : List SortKey) (ps : List (ItemId × Item)) :
    ps.mergeSort (precedes (ks₁ ++ ks₂)) =
      (ps.mergeSort (precedes ks₂)).mergeSort (precedes ks₁) :=
  (arranges_mergeSort _ ps).unique ((arranges_mergeSort ks₂ ps).append (arranges_mergeSort ks₁ _))

/-! ### Orders of items -/

/-- The order compares any two items of a kind, and as a total preorder. -/
structure ComparesTotally (o : SortOrder) (kind : Item → Prop) : Prop where
  self : ∀ {a}, kind a → o.compare a a = .ok .eq
  swap : ∀ {a b}, kind a → kind b → ∃ r, o.compare a b = .ok r ∧ o.compare b a = .ok r.swap
  trans : ∀ {a b c}, kind a → kind b → kind c → ∀ {r s}, o.compare a b = .ok r →
    o.compare b c = .ok s → r.isLE = true → s.isLE = true →
      ∃ t, o.compare a c = .ok t ∧ t.isLE = true

theorem comparesTotally {o : SortOrder} (ho : .priority ∉ o.keys) :
    o.ComparesTotally fun i => .name ∈ o.keys → i.HasTextName where
  self {a} ha := by
    have hself : ordering o.keys a a = .eq := Std.ReflCmp.compare_self
    rw [compare, compareBy_eq_ordering ho ha ha, hself]
  swap {a b} ha hb := by
    have hswap : ordering o.keys b a = (ordering o.keys a b).swap := Std.OrientedCmp.eq_swap
    refine ⟨_, compareBy_eq_ordering ho ha hb, ?_⟩
    rw [compare, compareBy_eq_ordering ho hb ha, hswap]
  trans ha hb hc r s hr hs hrle hsle := by
    cases (compareBy_eq_ordering ho ha hb).symm.trans hr
    cases (compareBy_eq_ordering ho hb hc).symm.trans hs
    exact ⟨_, compareBy_eq_ordering ho ha hc, Std.TransCmp.isLE_trans hrle hsle⟩

/-- No pair has to stand before an earlier one. -/
def InOrder (o : SortOrder) (ps : List (ItemId × Item)) : Prop :=
  ps.Pairwise fun x y => ∃ r, o.compare x.2 y.2 = .ok r ∧ r ≠ .gt

/-- The pairs are in order exactly if each may stand before those after it. -/
theorem inOrder_iff {o : SortOrder} (ho : .priority ∉ o.keys)
    (hnames : .name ∈ o.keys → ∀ p ∈ ps, p.2.HasTextName) :
    o.InOrder ps ↔ ps.Pairwise fun x y => precedes o.keys x y = true := by
  rw [InOrder]
  refine List.Pairwise.iff_of_mem fun {x y} hx hy => ?_
  rw [compare, compareBy_eq_ordering ho (fun h => hnames h x hx) fun h => hnames h y hy, precedes]
  cases ordering o.keys x.2 y.2 <;> simp

/-- Keys without a priority among them compare items as a total preorder. Sorting by some keys and
then by more important ones is sorting once by all of them, the more important ones first: it puts
the pairs in order, and pairs that are in order already it leaves as they are. -/
theorem sort_composes :
    (∀ o : SortOrder, .priority ∉ o.keys →
      o.ComparesTotally fun i => .name ∈ o.keys → i.HasTextName) ∧
    ∀ ks₁ ks₂ : List SortKey, .priority ∉ ks₁ → .priority ∉ ks₂ →
      ∀ ps : List (ItemId × Item), (.name ∈ ks₁ ++ ks₂ → ∀ p ∈ ps, p.2.HasTextName) →
        ∃ sorted, sort ⟨ks₁ ++ ks₂⟩ ps = .ok sorted ∧
          (sort ⟨ks₂⟩ ps >>= sort ⟨ks₁⟩) = .ok sorted ∧
          sorted.Perm ps ∧ InOrder ⟨ks₁ ++ ks₂⟩ sorted ∧
          (InOrder ⟨ks₁ ++ ks₂⟩ ps → sorted = ps) := by
  refine ⟨fun o ho => comparesTotally ho, fun ks₁ ks₂ h₁ h₂ ps hnames => ?_⟩
  have hboth : SortKey.priority ∉ ks₁ ++ ks₂ := by simp [h₁, h₂]
  have hfirst : .name ∈ ks₁ → ∀ p ∈ ps, p.2.HasTextName :=
    fun h => hnames (List.mem_append_left _ h)
  have hsecond : .name ∈ ks₂ → ∀ p ∈ ps, p.2.HasTextName :=
    fun h => hnames (List.mem_append_right _ h)
  have hperm : ∀ ks, (ps.mergeSort (precedes ks)).Perm ps :=
    fun ks => List.mergeSort_perm ps (precedes ks)
  refine ⟨_, sort_eq hboth hnames, ?_, hperm _, ?_, fun hsorted => ?_⟩
  · rw [sort_eq h₂ hsecond, mergeSort_precedes_append]
    exact sort_eq h₁ fun h p hp => hfirst h p ((hperm ks₂).mem_iff.1 hp)
  · rw [inOrder_iff hboth fun h p hp => hnames h p ((hperm _).mem_iff.1 hp)]
    exact (arranges_mergeSort _ ps).sorted
  · exact List.mergeSort_of_pairwise ((inOrder_iff hboth hnames).1 hsorted)

/-- Four pairs, the last one twice. -/
def errands : List (ItemId × Item) :=
  [(⟨2⟩, .ofTexts "milk" "" .waiting []), (⟨3⟩, .ofTexts "call" "" .completed []),
    (⟨1⟩, .ofTexts "walk" "" .completed []), (⟨1⟩, .ofTexts "walk" "" .completed [])]

/-- Sorted by name, `call` comes first; the status, asked next, puts it behind `milk` again. -/
theorem sort_composes_errands :
    .priority ∉ [SortKey.status] ∧ .priority ∉ [SortKey.name] ∧
    (∀ p ∈ errands, p.2.HasTextName) ∧ InOrder ⟨[.status, .name]⟩ errands ∧
    ¬ InOrder ⟨[.name]⟩ errands ∧
    sort ⟨[.status, .name]⟩ errands = .ok errands ∧
    (sort ⟨[.name]⟩ errands >>= sort ⟨[.status]⟩) = .ok errands := by
  have hstatus : SortKey.priority ∉ [SortKey.status] := by decide
  have hname : SortKey.priority ∉ [SortKey.name] := by decide
  have hnames : ∀ p ∈ errands, p.2.HasTextName := by
    simp [errands, Item.ofTexts, Item.HasTextName]
  have horder : InOrder ⟨[.status, .name]⟩ errands :=
    (inOrder_iff (by decide) fun _ => hnames).2 (by decide +kernel)
  have hunsorted : ¬ InOrder ⟨[.name]⟩ errands := by
    rw [inOrder_iff hname fun _ => hnames]
    decide +kernel
  obtain ⟨sorted, hboth, htwice, -, -, hsame⟩ :=
    sort_composes.2 [.status] [.name] hstatus hname errands fun _ => hnames
  obtain rfl := hsame horder
  exact ⟨hstatus, hname, hnames, horder, hunsorted, hboth, htwice⟩

end TodoLists.SortOrder
