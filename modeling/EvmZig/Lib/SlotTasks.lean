import Mathlib.Algebra.Order.Ring.Int
import Mathlib.Order.Fin.Basic
import Mathlib.Data.List.Range
import Mathlib.Tactic.Common

/-!
# Tasks that each write one slot

Tasks started together and joined as a whole, where the task of an index
writes nothing but the slot of that index.  What the slots hold after the join
does not depend on the order in which the tasks ended.
-/

set_option autoImplicit false

namespace EvmZig.Lib

variable {α : Type}

/-- The orders in which `count` tasks can end. -/
abbrev Completion (count : Nat) : Type :=
  { order : List Nat // order.Perm (List.range count) }

/-- Let the tasks of `order` write their slots, one after the other. -/
def runTasks (task : Nat → α → α) (order : List Nat) (slots : List α) : List α :=
  order.foldl (fun slots index => slots.modify index (task index)) slots

theorem runTasks_length (task : Nat → α → α) (order : List Nat) (slots : List α) :
    (runTasks task order slots).length = slots.length := by
  unfold runTasks
  induction order generalizing slots with
  | nil => rfl
  | cons index order ih => rw [List.foldl_cons, ih, List.length_modify]

/-- A slot holds what its own task wrote, whatever ran before or after it. -/
theorem runTasks_getElem (task : Nat → α → α) {order : List Nat} (distinct : order.Nodup)
    (slots : List α) (index : Nat) :
    (runTasks task order slots)[index]? =
      if index ∈ order then slots[index]?.map (task index) else slots[index]? := by
  unfold runTasks
  induction order generalizing slots with
  | nil => simp
  | cons first order ih =>
      obtain ⟨absent, distinct⟩ := List.nodup_cons.mp distinct
      rw [List.foldl_cons, ih distinct, List.getElem?_modify]
      by_cases here : first = index
      · subst here
        simp [absent]
      · by_cases later : index ∈ order
        · simp [here, later]
        · simp [here, later, Ne.symm here]

/-- After the join every slot has run its task, in whichever order they ended. -/
theorem runTasks_completion (task : Nat → α → α) (slots : List α)
    (completion : Completion slots.length) :
    runTasks task completion.val slots = slots.mapIdx task := by
  obtain ⟨order, complete⟩ := completion
  apply List.ext_getElem?
  intro index
  rw [runTasks_getElem task (complete.nodup_iff.mpr List.nodup_range), List.getElem?_mapIdx]
  by_cases bound : index < slots.length
  · rw [if_pos (complete.mem_iff.mpr (List.mem_range.mpr bound))]
  · rw [if_neg (fun member => bound (List.mem_range.mp (complete.mem_iff.mp member))),
      List.getElem?_eq_none (Nat.le_of_not_lt bound)]
    rfl

end EvmZig.Lib
