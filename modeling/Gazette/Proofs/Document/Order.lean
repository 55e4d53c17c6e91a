import Gazette.Document.Id

/-!
# The order of ids is a linear one

Comparing two ids comes to comparing their ranks, and no two ids have one rank. What is known of
numbers, that their order is transitive and total and that comparing them the other way round turns
the result, is thus known of ids.
-/

namespace Gazette

theorem eq_of_compareBytes_eq {a b : List UInt8} (h : compareBytes a b = .eq) : a = b := by
  induction a generalizing b with
  | nil =>
    cases b with
    | nil => rfl
    | cons => cases h
  | cons x a ih =>
    cases b with
    | nil => cases h
    | cons y b =>
      simp only [compareBytes] at h
      split at h
      · cases h
      · split at h
        · cases h
        · next hxy hyx =>
          have heq : x = y := UInt8.le_antisymm (UInt8.not_lt.mp hyx) (UInt8.not_lt.mp hxy)
          rw [heq, ih h]

theorem compareBytes_swap (a b : List UInt8) : (compareBytes a b).swap = compareBytes b a := by
  induction a generalizing b with
  | nil => cases b <;> rfl
  | cons x a ih =>
    cases b with
    | nil => rfl
    | cons y b =>
      simp only [compareBytes]
      by_cases hxy : x < y
      · have hyx : ¬y < x := UInt8.lt_asymm hxy
        rw [if_pos hxy, if_neg hyx, if_pos hxy]
        rfl
      · by_cases hyx : y < x
        · rw [if_neg hxy, if_pos hyx, if_pos hyx]
          rfl
        · rw [if_neg hxy, if_neg hyx, if_neg hyx, if_neg hxy, ih b]

theorem idBytes_injective {a b : String} (h : idBytes a = idBytes b) : a = b :=
  String.toByteArray_inj.mp (ByteArray.ext (Array.toList_inj.mp h))

theorem compareIds_swap (a b : String) : (compareIds a b).swap = compareIds b a := by
  rw [compareIds, compareIds, Ordering.swap_then, Nat.compare_swap, compareBytes_swap]

theorem eq_of_compareIds_eq {a b : String} (h : compareIds a b = .eq) : a = b := by
  rw [compareIds, Ordering.then_eq_eq] at h
  exact idBytes_injective (eq_of_compareBytes_eq h.2)

/-- Ids are compared as their ranks are. -/
theorem compareIds_eq_compare (a b : String) : compareIds a b = compare (rank a) (rank b) := by
  cases h : compareIds a b with
  | lt => exact (Nat.compare_eq_lt.mpr (rank_lt_of_compareIds h)).symm
  | eq =>
    rw [eq_of_compareIds_eq h]
    exact (Nat.compare_eq_eq.mpr rfl).symm
  | gt =>
    have hswap : compareIds b a = .lt := by rw [← compareIds_swap, h, Ordering.swap_gt]
    exact (Nat.compare_eq_gt.mpr (rank_lt_of_compareIds hswap)).symm

theorem rank_injective {a b : String} (h : rank a = rank b) : a = b := by
  refine eq_of_compareIds_eq ?_
  rw [compareIds_eq_compare, h]
  exact Nat.compare_eq_eq.mpr rfl

theorem compareIds_eq_lt_iff {a b : String} : compareIds a b = .lt ↔ rank a < rank b := by
  rw [compareIds_eq_compare, Nat.compare_eq_lt]

theorem compareIds_ne_gt_iff {a b : String} : compareIds a b ≠ .gt ↔ rank a ≤ rank b := by
  rw [compareIds_eq_compare, Nat.compare_ne_gt]

end Gazette
