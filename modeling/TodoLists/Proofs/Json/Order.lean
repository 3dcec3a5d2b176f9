import TodoLists.Json.Order
import Mathlib.Data.List.Basic

/-!
# Texts in order

Texts are ordered by their code points, so that texts of characters have the order of strings.
Values that are texts can always be put in order, and if no text is repeated each one is then
smaller than all that follow.
-/

namespace TodoLists

open Std

namespace LooseText

instance : TransOrd LooseText := inferInstanceAs (TransCmp (compareOn points))

theorem eq_of_compare {s t : LooseText} (h : compare s t = .eq) : s = t := by
  obtain ⟨ps⟩ := s
  obtain ⟨qs⟩ := t
  rw [mk.injEq]
  exact LawfulEqOrd.eq_of_compare h

theorem compare_of_lt {ps qs : List Nat} (h : ps < qs) : compare ps qs = .lt := by
  induction ps generalizing qs with
  | nil =>
    cases qs with
    | nil => exact absurd h (List.lt_irrefl _)
    | cons => rfl
  | cons p ps ih =>
    cases qs with
    | nil => exact absurd h (List.not_lt_nil _)
    | cons q qs =>
      rw [List.compare_cons_cons]
      rcases List.cons_lt_cons_iff.1 h with hlt | ⟨rfl, hlt⟩
      · rw [Nat.compare_eq_lt.2 hlt]
        rfl
      · rw [Nat.compare_eq_eq.2 rfl, ih hlt]
        rfl

theorem compare_ofString {s t : String} (h : s < t) :
    compare (ofString s) (ofString t) = .lt :=
  compare_of_lt (List.map_lt (fun _ _ hlt => hlt) (String.lt_iff.1 h))

end LooseText

namespace Json

theorem mayPrecede_str (s t : LooseText) : (str s).mayPrecede (str t) = (compare s t).isLE := by
  rw [mayPrecede, order?]
  rfl

/-- The texts from the smallest on. -/
def sortTexts (ts : List LooseText) : List LooseText := ts.mergeSort fun s t => (compare s t).isLE

theorem sort?_map_str (ts : List LooseText) :
    sort? (ts.map str) = some ((sortTexts ts).map str) := by
  have hpairwise : (ts.map str).Pairwise fun a b => (a.order? b).isSome := by
    refine List.pairwise_map.2 (List.pairwise_of_forall fun s t => ?_)
    rw [order?]
    rfl
  rw [sort?, if_pos hpairwise, sortTexts,
    List.map_mergeSort fun s _ t _ => (mayPrecede_str s t).symm]

theorem perm_sortTexts (ts : List LooseText) : (sortTexts ts).Perm ts := List.mergeSort_perm _ _

theorem pairwise_sortTexts {ts : List LooseText} (h : ts.Nodup) :
    (sortTexts ts).Pairwise fun s t => compare s t = .lt := by
  have htotal (s t : LooseText) : ((compare s t).isLE || (compare t s).isLE) = true := by
    have hswap : compare t s = (compare s t).swap := OrientedCmp.eq_swap
    rw [hswap]
    cases compare s t <;> rfl
  have hsorted : (sortTexts ts).Pairwise fun s t => (compare s t).isLE = true :=
    List.pairwise_mergeSort (fun _ _ _ => TransCmp.isLE_trans) htotal ts
  have hnodup : (sortTexts ts).Nodup := (perm_sortTexts ts).nodup_iff.2 h
  refine (hsorted.and hnodup).imp fun {s t} ⟨hle, hne⟩ => ?_
  cases hcompare : compare s t with
  | lt => rfl
  | eq => exact absurd (LooseText.eq_of_compare hcompare) hne
  | gt =>
    rw [hcompare] at hle
    cases hle

end Json

end TodoLists
