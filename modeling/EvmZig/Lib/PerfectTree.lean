import Mathlib.Algebra.Order.Ring.Int
import Mathlib.Order.Fin.Basic
import Mathlib.Tactic.Common

/-!
# Perfect binary trees over indexed leaves

The root of a tree of a given depth whose leaves are the values of a function
from some index on, and the root of a tree whose leaves are all blank.
-/

set_option autoImplicit false

namespace EvmZig.Lib

variable {α : Type} (join : α → α → α)

/-- Root over the `2 ^ depth` leaves from `start` on. -/
def treeRoot (leaf : Nat → α) : (depth start : Nat) → α
  | 0, start => leaf start
  | depth + 1, start => join (treeRoot leaf depth start) (treeRoot leaf depth (start + 2 ^ depth))

/-- Root over blank leaves. -/
def blankRoot (blank : α) : (depth : Nat) → α
  | 0 => blank
  | depth + 1 => join (blankRoot blank depth) (blankRoot blank depth)

theorem treeRoot_blank {leaf : Nat → α} {blank : α} {start : Nat}
    (blankFrom : ∀ index, start ≤ index → leaf index = blank) (depth : Nat) :
    treeRoot join leaf depth start = blankRoot join blank depth := by
  induction depth generalizing start with
  | zero => exact blankFrom start (Nat.le_refl _)
  | succ depth ih =>
      rw [treeRoot, blankRoot, ih blankFrom,
        ih fun index above => blankFrom index (Nat.le_trans (Nat.le_add_right _ _) above)]

/-- Doubling a blank tree some more levels. -/
theorem blankRoot_iterate (blank : α) (depth more : Nat) :
    (fun root => join root root)^[more] (blankRoot join blank depth) =
      blankRoot join blank (depth + more) := by
  induction more with
  | zero => rfl
  | succ more ih => rw [Function.iterate_succ_apply', ih, Nat.add_succ, blankRoot]

end EvmZig.Lib
