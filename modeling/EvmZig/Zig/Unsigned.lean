import Mathlib.Algebra.Order.Ring.Int
import Mathlib.Order.Fin.Basic
import Mathlib.Tactic.Common

/-!
# Checked and saturating unsigned arithmetic

`std.math.add`, `std.math.mul` and the saturating operators on an unsigned
integer of `bits` bits, on natural numbers below `2 ^ bits`.
-/

set_option autoImplicit false

namespace EvmZig.Zig

/-- `std.math.add`; `none` is `error.Overflow`. -/
def addChecked (bits left right : Nat) : Option Nat :=
  if left + right < 2 ^ bits then some (left + right) else none

/-- `std.math.mul`; `none` is `error.Overflow`. -/
def mulChecked (bits left right : Nat) : Option Nat :=
  if left * right < 2 ^ bits then some (left * right) else none

/-- `std.math.cast` from a wider type. -/
def castChecked (bits value : Nat) : Option Nat :=
  if value < 2 ^ bits then some value else none

/-- `left +| right`. -/
def addSat (bits left right : Nat) : Nat := min (2 ^ bits - 1) (left + right)

/-- `left *| right`. -/
def mulSat (bits left right : Nat) : Nat := min (2 ^ bits - 1) (left * right)

variable {bits left right result : Nat}

theorem addChecked_eq_some :
    addChecked bits left right = some result ↔ left + right < 2 ^ bits ∧ left + right = result := by
  simp [addChecked]

theorem mulChecked_eq_some :
    mulChecked bits left right = some result ↔ left * right < 2 ^ bits ∧ left * right = result := by
  simp [mulChecked]

theorem mulChecked_eq (fits : left * right < 2 ^ bits) :
    mulChecked bits left right = some (left * right) :=
  if_pos fits

theorem castChecked_eq {value : Nat} (fits : value < 2 ^ bits) :
    castChecked bits value = some value :=
  if_pos fits

theorem castChecked_eq_none {value : Nat} (large : 2 ^ bits ≤ value) :
    castChecked bits value = none :=
  if_neg (Nat.not_lt.mpr large)

theorem addSat_eq (fits : left + right < 2 ^ bits) : addSat bits left right = left + right :=
  Nat.min_eq_right (Nat.le_sub_one_of_lt fits)

theorem mulSat_eq (fits : left * right < 2 ^ bits) : mulSat bits left right = left * right :=
  Nat.min_eq_right (Nat.le_sub_one_of_lt fits)

end EvmZig.Zig
