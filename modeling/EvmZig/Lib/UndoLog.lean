import Mathlib.Algebra.Order.Ring.Int
import Mathlib.Order.Fin.Basic
import Mathlib.Tactic.Common
import Mathlib.Logic.Function.Basic

/-!
# Undo logs

A store gives every cell a value.  An undo entry remembers the values some
cells had; a log is unwound from its newest entry to its oldest, so the oldest
entry of a cell decides.  `Recorded` is what a computation owes to whoever
later unwinds the log to an earlier length: unwinding gives the same store
before and after it.
-/

set_option autoImplicit false

namespace EvmZig.Lib

variable {κ : Type} {ν : κ → Type}

/-- The values an undo entry restores. -/
def Patch (ν : κ → Type) : Type := ∀ cell, Option (ν cell)

namespace Patch

/-- An entry that restores nothing. -/
def silent : Patch ν := fun _ => none

/-- Restore one more cell. -/
def also [DecidableEq κ] (patch : Patch ν) (cell : κ) (value : ν cell) : Patch ν :=
  Function.update patch cell (some value)

@[simp] theorem silent_apply (cell : κ) : (silent : Patch ν) cell = none := rfl

@[simp] theorem also_same [DecidableEq κ] (patch : Patch ν) (cell : κ) (value : ν cell) :
    patch.also cell value cell = some value :=
  Function.update_self ..

theorem also_other [DecidableEq κ] (patch : Patch ν) {cell other : κ} (value : ν cell)
    (differs : other ≠ cell) : patch.also cell value other = patch other :=
  Function.update_of_ne differs ..

end Patch

namespace UndoLog

def restore (patch : Patch ν) (store : ∀ cell, ν cell) : ∀ cell, ν cell :=
  fun cell => (patch cell).getD (store cell)

/-- Apply the entries of a log, newest first. -/
def unwind (log : List (Patch ν)) (store : ∀ cell, ν cell) : ∀ cell, ν cell :=
  log.foldl (fun current patch => restore patch current) store

/-- Some entry of the log restores the cell. -/
def Covers (log : List (Patch ν)) (cell : κ) : Prop := ∃ patch ∈ log, (patch cell).isSome

/-- The entries that were added since the log had `length` entries. -/
def above (log : List (Patch ν)) (length : Nat) : List (Patch ν) :=
  log.take (log.length - length)

def undone (log : List (Patch ν)) (length : Nat) (store : ∀ cell, ν cell) : ∀ cell, ν cell :=
  unwind (above log length) store

@[simp] theorem unwind_nil (store : ∀ cell, ν cell) : unwind [] store = store := rfl

@[simp] theorem unwind_cons (patch : Patch ν) (log : List (Patch ν)) (store : ∀ cell, ν cell) :
    unwind (patch :: log) store = unwind log (restore patch store) := rfl

theorem unwind_append (newer older : List (Patch ν)) (store : ∀ cell, ν cell) :
    unwind (newer ++ older) store = unwind older (unwind newer store) :=
  List.foldl_append

/-- The value of a cell depends on the store only through that cell. -/
theorem unwind_congr (log : List (Patch ν)) {left right : ∀ cell, ν cell} {cell : κ}
    (same : left cell = right cell) : unwind log left cell = unwind log right cell := by
  induction log generalizing left right with
  | nil => exact same
  | cons patch log ih =>
      rw [unwind_cons, unwind_cons]
      apply ih
      simp only [restore, same]

/-- A covered cell is restored whatever the store holds. -/
theorem unwind_covered {log : List (Patch ν)} {cell : κ} (covered : Covers log cell)
    (left right : ∀ cell, ν cell) : unwind log left cell = unwind log right cell := by
  induction log generalizing left right with
  | nil =>
      obtain ⟨patch, member, -⟩ := covered
      exact absurd member (List.not_mem_nil)
  | cons patch log ih =>
      rw [unwind_cons, unwind_cons]
      by_cases older : Covers log cell
      · exact ih older _ _
      · apply unwind_congr
        obtain ⟨held, member, restores⟩ := covered
        rcases List.mem_cons.mp member with rfl | member
        · obtain ⟨saved, savedEq⟩ := Option.isSome_iff_exists.mp restores
          simp only [restore, savedEq, Option.getD_some]
        · exact absurd ⟨held, member, restores⟩ older

theorem unwind_uncovered {log : List (Patch ν)} {cell : κ}
    (silent : ∀ patch ∈ log, patch cell = none) (store : ∀ cell, ν cell) :
    unwind log store cell = store cell := by
  induction log generalizing store with
  | nil => rfl
  | cons patch log ih =>
      rw [unwind_cons, ih (fun held member => silent held (List.mem_cons_of_mem _ member))]
      simp only [restore, silent patch (List.mem_cons_self ..), Option.getD_none]

theorem above_append (newer older : List (Patch ν)) {length : Nat} (inside : length ≤ older.length) :
    above (newer ++ older) length = newer ++ above older length := by
  have lengthEq : (newer ++ older).length - length = newer.length + (older.length - length) := by
    rw [List.length_append]
    omega
  rw [above, lengthEq, List.take_length_add_append, above]

@[simp] theorem above_length (log : List (Patch ν)) : above log log.length = [] := by
  simp [above]

@[simp] theorem above_zero (log : List (Patch ν)) : above log 0 = log := by
  simp [above]

theorem undone_length (log : List (Patch ν)) (store : ∀ cell, ν cell) :
    undone log log.length store = store := by
  rw [undone, above_length, unwind_nil]

theorem above_split (log : List (Patch ν)) {low high : Nat} (ordered : low ≤ high)
    (inside : high ≤ log.length) :
    ∃ older, above log low = above log high ++ older := by
  refine ⟨(log.drop (log.length - high)).take (high - low), ?_⟩
  have split : log.length - low = (log.length - high) + (high - low) := by omega
  rw [above, split, List.take_add, above]

section Recorded

variable (watched : κ → Prop)

/-- The log grew, and unwinding to `length` still gives the same watched cells. -/
structure Recorded (length : Nat) (store : ∀ cell, ν cell) (log : List (Patch ν))
    (store' : ∀ cell, ν cell) (log' : List (Patch ν)) : Prop where
  inside : length ≤ log.length
  grows : log <:+ log'
  same : ∀ cell, watched cell → undone log' length store' cell = undone log length store cell

variable {watched} {length : Nat} {store store' store'' : ∀ cell, ν cell}
  {log log' log'' : List (Patch ν)}

theorem Recorded.refl (inside : length ≤ log.length) :
    Recorded watched length store log store log :=
  ⟨inside, List.suffix_refl _, fun _ _ => rfl⟩

theorem Recorded.trans (first : Recorded watched length store log store' log')
    (second : Recorded watched length store' log' store'' log'') :
    Recorded watched length store log store'' log'' :=
  ⟨first.inside, first.grows.trans second.grows, fun cell watch =>
    (second.same cell watch).trans (first.same cell watch)⟩

theorem Recorded.weaken {narrow : κ → Prop} (fewer : ∀ cell, narrow cell → watched cell)
    (recorded : Recorded watched length store log store' log') :
    Recorded narrow length store log store' log' :=
  ⟨recorded.inside, recorded.grows, fun cell watch => recorded.same cell (fewer cell watch)⟩

/-- A record kept for a point of the log serves every earlier point. -/
theorem Recorded.lower {low : Nat} (recorded : Recorded watched length store log store' log')
    (ordered : low ≤ length) : Recorded watched low store log store' log' := by
  refine ⟨Nat.le_trans ordered recorded.inside, recorded.grows, ?_⟩
  intro cell watch
  obtain ⟨newer, newerEq⟩ := recorded.grows
  obtain ⟨older, olderEq⟩ := above_split log ordered recorded.inside
  have aboveLow : above log' low = above log' length ++ older := by
    rw [← newerEq, above_append _ _ (Nat.le_trans ordered recorded.inside),
      above_append _ _ recorded.inside, olderEq, List.append_assoc]
  rw [undone, undone, aboveLow, olderEq, unwind_append, unwind_append]
  exact unwind_congr older (recorded.same cell watch)

/-- One step: a watched cell that the new entries do not put back is covered already. -/
theorem Recorded.step (inside : length ≤ log.length) (entries : List (Patch ν))
    (restored : ∀ cell, watched cell →
      unwind entries store' cell = store cell ∨ Covers (above log length) cell) :
    Recorded watched length store log store' (entries ++ log) := by
  refine ⟨inside, List.suffix_append _ _, ?_⟩
  intro cell watch
  rw [undone, undone, above_append _ _ inside, unwind_append]
  rcases restored cell watch with same | covered
  · exact unwind_congr _ same
  · exact unwind_covered covered _ _

/-- Unwinding to the length the log had gives back the store it had. -/
theorem Recorded.exact (recorded : Recorded watched log.length store log store' log')
    {cell : κ} (watch : watched cell) : undone log' log.length store' cell = store cell := by
  rw [recorded.same cell watch, undone_length]

end Recorded

end UndoLog

end EvmZig.Lib
