import Mathlib.Algebra.Order.Ring.Int
import Mathlib.Order.Defs.LinearOrder
import Mathlib.Tactic.Common

/-!
# Binary search

The halving search over a half-open window of a list, driven by a comparison
of the target with an entry.  On a list that is strictly ascending in the
order of the comparison it finds the one position of the target and nothing
else.
-/

set_option autoImplicit false

namespace EvmZig.Lib

variable {α : Type}

/-- The window `[low, high)` still to be searched. -/
def binarySearchIn (compare : α → Ordering) (items : List α) (low high : Nat)
    (inside : high ≤ items.length) : Option Nat :=
  if nonempty : low < high then
    let mid := low + (high - low) / 2
    match compare (items.get ⟨mid, by omega⟩) with
    | .eq => some mid
    | .gt => binarySearchIn compare items (mid + 1) high inside
    | .lt => binarySearchIn compare items low mid (by omega)
  else none
  termination_by high - low

def binarySearch (compare : α → Ordering) (items : List α) : Option Nat :=
  binarySearchIn compare items 0 items.length (Nat.le_refl _)

/-- The comparison of one target with the entries of an ascending list: first
the entries below the target, then at most one equal entry, then those above. -/
structure Locates (compare : α → Ordering) (items : List α) : Prop where
  above : items.Pairwise fun left right => compare left ≠ .gt → compare right = .lt
  below : items.Pairwise fun left right => compare right ≠ .lt → compare left = .gt

theorem binarySearchIn_sound {compare : α → Ordering} {items : List α} {low high index : Nat}
    {inside : high ≤ items.length}
    (found : binarySearchIn compare items low high inside = some index) :
    ∃ item, items[index]? = some item ∧ compare item = .eq := by
  fun_induction binarySearchIn compare items low high inside with
  | case1 low high inside nonempty mid same =>
      obtain rfl := Option.some.inj found
      exact ⟨_, List.getElem?_eq_getElem (by omega), same⟩
  | case2 low high inside nonempty mid more ih => exact ih found
  | case3 low high inside nonempty mid less ih => exact ih found
  | case4 low high inside empty => cases found

theorem binarySearchIn_complete {compare : α → Ordering} {items : List α}
    (located : Locates compare items) {low high index : Nat} {inside : high ≤ items.length}
    (lower : low ≤ index) (upper : index < high) {item : α} (held : items[index]? = some item)
    (same : compare item = .eq) :
    binarySearchIn compare items low high inside = some index := by
  obtain ⟨bound, rfl⟩ := List.getElem?_eq_some_iff.mp held
  have above := List.pairwise_iff_getElem.mp located.above
  have below := List.pairwise_iff_getElem.mp located.below
  fun_induction binarySearchIn compare items low high inside with
  | case1 low high inside nonempty mid equal =>
      have midInside : mid < items.length := by omega
      -- an equal entry has only strict neighbours
      rw [List.get_eq_getElem] at equal
      rcases Nat.lt_trichotomy mid index with before | here | after
      · have strict := above mid index (by omega) bound before (by simp [equal])
        rw [same] at strict
        cases strict
      · rw [here]
      · have strict := above index mid bound (by omega) after (by simp [same])
        rw [equal] at strict
        cases strict
  | case2 low high inside nonempty mid more ih =>
      rw [List.get_eq_getElem] at more
      refine ih (Nat.lt_of_not_le fun before => ?_) upper
      rcases Nat.lt_or_eq_of_le before with strictly | here
      · have strict := above index mid bound (by omega) strictly (by simp [same])
        rw [more] at strict
        cases strict
      · subst here
        rw [same] at more
        cases more
  | case3 low high inside nonempty mid less ih =>
      rw [List.get_eq_getElem] at less
      refine ih lower (Nat.lt_of_not_le fun after => ?_)
      rcases Nat.lt_or_eq_of_le after with strictly | here
      · have strict := below mid index (by omega) bound strictly (by simp [same])
        rw [less] at strict
        cases strict
      · subst here
        rw [same] at less
        cases less
  | case4 low high inside empty => omega

theorem binarySearch_eq_some {compare : α → Ordering} {items : List α}
    (located : Locates compare items) {index : Nat} :
    binarySearch compare items = some index ↔
      ∃ item, items[index]? = some item ∧ compare item = .eq := by
  constructor
  · exact binarySearchIn_sound
  · intro found
    obtain ⟨item, held, same⟩ := found
    exact binarySearchIn_complete located (Nat.zero_le _)
      (List.getElem?_eq_some_iff.mp held).1 held same

/-- A list with strictly ascending keys locates every key of a linear order. -/
theorem locates_compare {β : Type} [LinearOrder β] (key : α → β) (target : β) {items : List α}
    (ascending : items.Pairwise fun left right => key left < key right) :
    Locates (fun item => compare target (key item)) items where
  above := ascending.imp fun less reached =>
    compare_lt_iff_lt.mpr (lt_of_le_of_lt (le_of_not_gt (mt compare_gt_iff_gt.mpr reached)) less)
  below := ascending.imp fun less reached =>
    compare_gt_iff_gt.mpr (lt_of_lt_of_le less (le_of_not_gt (mt compare_lt_iff_lt.mpr reached)))

theorem binarySearch_compare_eq_some {β : Type} [LinearOrder β] {key : α → β} {target : β}
    {items : List α} (ascending : items.Pairwise fun left right => key left < key right)
    {index : Nat} :
    binarySearch (fun item => compare target (key item)) items = some index ↔
      ∃ item, items[index]? = some item ∧ key item = target := by
  rw [binarySearch_eq_some (locates_compare key target ascending)]
  apply exists_congr
  intro item
  rw [compare_eq_iff_eq, eq_comm (a := target)]

end EvmZig.Lib
