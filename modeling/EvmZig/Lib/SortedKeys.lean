import Mathlib.Algebra.Order.Ring.Int
import Mathlib.Order.Fin.Basic
import Mathlib.Data.List.Nodup
import Mathlib.Data.List.Perm.Lattice
import Mathlib.Data.Prod.Lex
import Mathlib.Tactic.Common

/-!
# Sorting by a key

A merge sort driven by a strict comparison of keys.  When no key occurs twice
the sorted list depends on the entries alone and ascends strictly, and whether
a key occurs twice shows between neighbours.
-/

set_option autoImplicit false

namespace EvmZig.Lib

variable {α β : Type} [LinearOrder β] {lessThan : α → α → Bool} {key : α → β} {items others : List α}

/-- The comparison is that of the keys. -/
def SortsBy (lessThan : α → α → Bool) (key : α → β) : Prop :=
  ∀ left right, lessThan left right = true ↔ key left < key right

namespace SortsBy

theorem not_after (sorts : SortsBy lessThan key) (left right : α) :
    (!lessThan right left) = true ↔ key left ≤ key right := by
  rw [Bool.not_eq_true', ← Bool.not_eq_true, sorts right left, not_lt]

theorem sorted (sorts : SortsBy lessThan key) (items : List α) :
    (items.mergeSort fun left right => !lessThan right left).Pairwise
      fun left right => key left ≤ key right := by
  have trans : ∀ first second third, (!lessThan second first) = true →
      (!lessThan third second) = true → (!lessThan third first) = true := by
    intro first second third
    rw [sorts.not_after, sorts.not_after, sorts.not_after]
    exact le_trans
  have total : ∀ left right, (!lessThan right left || !lessThan left right) = true := by
    intro left right
    rw [Bool.or_eq_true, sorts.not_after, sorts.not_after]
    exact le_total _ _
  exact (List.pairwise_mergeSort trans total items).imp fun less => (sorts.not_after _ _).mp less

/-- Entries that their keys tell apart are sorted in one way. -/
theorem congr (sorts : SortsBy lessThan key) (perm : items.Perm others)
    (apart : ∀ left ∈ items, ∀ right ∈ items, key left = key right → left = right) :
    (items.mergeSort fun left right => !lessThan right left) =
      others.mergeSort fun left right => !lessThan right left := by
  have same := (List.mergeSort_perm items fun left right => !lessThan right left).trans
    (perm.trans (List.mergeSort_perm others fun left right => !lessThan right left).symm)
  apply List.Perm.eq_of_pairwise _ (sorts.sorted items) (sorts.sorted others) same
  intro left right leftIn rightIn less more
  have leftHere := (List.mergeSort_perm items _).mem_iff.mp leftIn
  have rightHere := perm.mem_iff.mpr ((List.mergeSort_perm others _).mem_iff.mp rightIn)
  exact apart left leftHere right rightHere (le_antisymm less more)

theorem ascends (sorts : SortsBy lessThan key) (unique : (items.map key).Nodup) :
    (items.mergeSort fun left right => !lessThan right left).Pairwise
      fun left right => key left < key right := by
  have perm := (List.mergeSort_perm items fun left right => !lessThan right left).map key
  have differ := List.pairwise_map.mp (perm.nodup_iff.mpr unique)
  exact (sorts.sorted items).imp₂ (fun _ _ less differs => lt_of_le_of_ne less differs) differ

end SortsBy

omit [LinearOrder β] in
theorem apart_of_nodup (unique : (items.map key).Nodup) :
    ∀ left ∈ items, ∀ right ∈ items, key left = key right → left = right := by
  intro left leftIn right rightIn same
  exact List.inj_on_of_nodup_map unique leftIn rightIn same

/-- In a sorted list equal keys are neighbours. -/
theorem neighbours_differ {repeats : α → α → Bool}
    (same : ∀ current previous, repeats current previous = true ↔ key current = key previous)
    (sorted : items.Pairwise fun left right => key left ≤ key right) :
    ((items.tail.zip items).any fun pair => repeats pair.1 pair.2) = false ↔ (items.map key).Nodup := by
  induction items with
  | nil => simp
  | cons first items ih =>
      cases items with
      | nil => simp
      | cons second items =>
          have rest := ih sorted.of_cons
          simp only [List.tail_cons] at rest ⊢
          rw [List.zip_cons_cons, List.any_cons, Bool.or_eq_false_iff, rest, ← Bool.not_eq_true,
            same]
          rw [show (first :: second :: items).map key = key first :: (second :: items).map key from rfl,
            List.nodup_cons]
          apply and_congr_left
          intro _
          constructor
          · intro differs member
            obtain ⟨other, later, equal⟩ := List.mem_map.mp member
            have less := List.rel_of_pairwise_cons sorted List.mem_cons_self
            rcases List.mem_cons.mp later with rfl | later
            · exact differs equal
            · have more := List.rel_of_pairwise_cons sorted.of_cons later
              rw [equal] at more
              exact differs (le_antisymm more less)
          · intro missing equal
            exact missing (List.mem_map.mpr ⟨second, List.mem_cons_self, equal⟩)

end EvmZig.Lib
