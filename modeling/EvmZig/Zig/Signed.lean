import Mathlib.Algebra.Order.Ring.Int
import Mathlib.Order.Fin.Basic
import Mathlib.Tactic.Common

/-!
# `i64` arithmetic

A counter of type `i64` is an integer that `FitsI64`.  The plain operators trap
when the exact result does not fit, the saturating ones stop at the bound.
-/

set_option autoImplicit false

namespace EvmZig.Zig

def i64Min : Int := -2 ^ 63

def i64Max : Int := 2 ^ 63 - 1

theorem i64Min_eq : i64Min = -9223372036854775808 := rfl

theorem i64Max_eq : i64Max = 9223372036854775807 := rfl

def FitsI64 (value : Int) : Prop := i64Min ≤ value ∧ value ≤ i64Max

instance (value : Int) : Decidable (FitsI64 value) :=
  inferInstanceAs (Decidable (_ ∧ _))

theorem fitsI64_zero : FitsI64 0 := by decide

theorem fitsI64_ite {condition : Prop} [Decidable condition] {value : Int} (fits : FitsI64 value) :
    FitsI64 (if condition then value else 0) := by
  split
  · exact fits
  · exact fitsI64_zero

/-- `left + right` on `i64`, trapping on overflow. -/
def addI64 (left right : Int) : Option Int :=
  if FitsI64 (left + right) then some (left + right) else none

/-- `left - right` on `i64`, trapping on overflow. -/
def subI64 (left right : Int) : Option Int :=
  if FitsI64 (left - right) then some (left - right) else none

/-- `left +| right` on `i64`. -/
def addSatI64 (left right : Int) : Int := max i64Min (min i64Max (left + right))

/-- `left -| right` on `i64`. -/
def subSatI64 (left right : Int) : Int := max i64Min (min i64Max (left - right))

theorem addI64_eq {left right : Int} (fits : FitsI64 (left + right)) :
    addI64 left right = some (left + right) :=
  if_pos fits

theorem subI64_eq {left right : Int} (fits : FitsI64 (left - right)) :
    subI64 left right = some (left - right) :=
  if_pos fits

theorem addI64_eq_some {left right sum : Int} :
    addI64 left right = some sum ↔ FitsI64 (left + right) ∧ left + right = sum := by
  simp [addI64]

theorem subI64_eq_some {left right difference : Int} :
    subI64 left right = some difference ↔
      FitsI64 (left - right) ∧ left - right = difference := by
  simp [subI64]

theorem addSatI64_eq {left right : Int} (fits : FitsI64 (left + right)) :
    addSatI64 left right = left + right := by
  obtain ⟨low, high⟩ := fits
  unfold addSatI64
  omega

theorem subSatI64_eq {left right : Int} (fits : FitsI64 (left - right)) :
    subSatI64 left right = left - right := by
  obtain ⟨low, high⟩ := fits
  unfold subSatI64
  omega

end EvmZig.Zig
