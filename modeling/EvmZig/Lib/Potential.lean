import Mathlib.Algebra.BigOperators.Ring.Finset
import Mathlib.Algebra.Order.BigOperators.Group.Finset
import Mathlib.Data.Finset.Dedup

/-!
# Prices that come from a potential

Records are kept under keys, and every record moves its key from one place to
another.  Where each price is the difference of a potential, the prices of a key
add up to the difference between its ends; where it is at least that, so is the
sum over all keys.
-/

set_option autoImplicit false

namespace EvmZig.Lib

variable {R K : Type} [DecidableEq K] {key : R → K} {price : R → Int}

/-- What the records of one key add up to. -/
def sumAt (key : R → K) (price : R → Int) (place : K) (records : List R) : Int :=
  ((records.filter fun record => key record = place).map price).sum

@[simp] theorem sumAt_nil (place : K) : sumAt key price place [] = 0 := rfl

theorem sumAt_append (place : K) (first second : List R) :
    sumAt key price place (first ++ second) =
      sumAt key price place first + sumAt key price place second := by
  simp only [sumAt, List.filter_append, List.map_append, List.sum_append]

theorem sumAt_single (place : K) (record : R) :
    sumAt key price place [record] = if key record = place then price record else 0 := by
  by_cases here : key record = place <;> simp [sumAt, here]

theorem sumAt_neg (place : K) (records : List R) :
    sumAt key (fun record => -price record) place records = -sumAt key price place records := by
  induction records with
  | nil => rfl
  | cons record records ih =>
      rw [← List.singleton_append, sumAt_append, sumAt_append, sumAt_single, sumAt_single, ih]
      split <;> omega

/-- The sum of all records, key by key. -/
theorem sum_eq_sumAt (records : List R) :
    (records.map price).sum =
      ∑ place ∈ (records.map key).toFinset, sumAt key price place records := by
  suffices general : ∀ keys : Finset K, (∀ record ∈ records, key record ∈ keys) →
      (records.map price).sum = ∑ place ∈ keys, sumAt key price place records by
    apply general
    intro record member
    exact List.mem_toFinset.mpr (List.mem_map_of_mem member)
  intro keys within
  induction records with
  | nil => simp
  | cons record records ih =>
      have here : key record ∈ keys := within record List.mem_cons_self
      have rest := ih fun other member => within other (List.mem_cons_of_mem _ member)
      have split : ∀ place, sumAt key price place (record :: records) =
          (if key record = place then price record else 0) + sumAt key price place records := by
        intro place
        rw [← List.singleton_append, sumAt_append, sumAt_single]
      simp only [List.map_cons, List.sum_cons, split, Finset.sum_add_distrib, rest]
      rw [Finset.sum_ite_eq, if_pos here]

/-- Keys whose records never add up to less than nothing give a total that is none either. -/
theorem sum_nonneg_of_sumAt (records : List R)
    (nonneg : ∀ place, 0 ≤ sumAt key price place records) : 0 ≤ (records.map price).sum := by
  rw [@sum_eq_sumAt R K _ key price records]
  exact Finset.sum_nonneg fun place _ => nonneg place

end EvmZig.Lib
