import Mathlib.Data.Nat.Bitwise
import Mathlib.Data.Nat.Size

/-!
# Operators of unsigned integers

An unsigned integer of `bits` bits is a natural number below `2 ^ bits`.  An
operator that traps gives nothing there.
-/

set_option autoImplicit false

namespace EvmZig.Zig

/-- `left + right`, trapping on overflow. -/
def addTrap (bits left right : Nat) : Option Nat :=
  if left + right < 2 ^ bits then some (left + right) else none

/-- `left * right`, trapping on overflow. -/
def mulTrap (bits left right : Nat) : Option Nat :=
  if left * right < 2 ^ bits then some (left * right) else none

/-- `@intCast` to `bits` bits, trapping where the value does not fit. -/
def castTrap (bits value : Nat) : Option Nat :=
  if value < 2 ^ bits then some value else none

/-- `left - right`, trapping below zero. -/
def subTrap (left right : Nat) : Option Nat :=
  if right ≤ left then some (left - right) else none

/-- `left / right`, trapping on a zero divisor. -/
def divTrap (left right : Nat) : Option Nat :=
  if right = 0 then none else some (left / right)

/-- `left % right`, trapping on a zero divisor. -/
def remTrap (left right : Nat) : Option Nat :=
  if right = 0 then none else some (left % right)

/-- `@truncate` to `bits` bits. -/
def truncate (bits value : Nat) : Nat := value % 2 ^ bits

/-- `left +% right`. -/
def addWrap (bits left right : Nat) : Nat := truncate bits (left + right)

/-- `left -% right`. -/
def subWrap (bits left right : Nat) : Nat := truncate bits (left + (2 ^ bits - right % 2 ^ bits))

/-- `left *% right`. -/
def mulWrap (bits left right : Nat) : Nat := truncate bits (left * right)

/-- `@addWithOverflow`. -/
def addWithOverflow (bits left right : Nat) : Nat × Bool :=
  (truncate bits (left + right), decide (2 ^ bits ≤ left + right))

/-- `value << amount`. -/
def shl (bits value amount : Nat) : Nat := truncate bits (value * 2 ^ amount)

/-- `value >> amount`. -/
def shr (value amount : Nat) : Nat := value / 2 ^ amount

/-- `@clz`. -/
def clz (bits value : Nat) : Nat := bits - value.size

variable {bits left right value amount : Nat}

theorem truncate_eq (fits : value < 2 ^ bits) : truncate bits value = value := Nat.mod_eq_of_lt fits

theorem truncate_lt (bits value : Nat) : truncate bits value < 2 ^ bits :=
  Nat.mod_lt _ (Nat.two_pow_pos bits)

theorem truncate_add_shr (bits value : Nat) :
    truncate bits value + 2 ^ bits * shr value bits = value :=
  Nat.mod_add_div value (2 ^ bits)

theorem shr_lt {more : Nat} (fits : value < 2 ^ (bits + more)) : shr value bits < 2 ^ more := by
  rw [shr, Nat.div_lt_iff_lt_mul (Nat.two_pow_pos bits), ← pow_add, Nat.add_comm]
  exact fits

theorem addTrap_eq (fits : left + right < 2 ^ bits) :
    addTrap bits left right = some (left + right) :=
  if_pos fits

theorem mulTrap_eq (fits : left * right < 2 ^ bits) :
    mulTrap bits left right = some (left * right) :=
  if_pos fits

theorem castTrap_eq (fits : value < 2 ^ bits) : castTrap bits value = some value := if_pos fits

theorem subTrap_eq (ordered : right ≤ left) : subTrap left right = some (left - right) :=
  if_pos ordered

theorem divTrap_eq (positive : 0 < right) : divTrap left right = some (left / right) :=
  if_neg (Nat.ne_of_gt positive)

theorem remTrap_eq (positive : 0 < right) : remTrap left right = some (left % right) :=
  if_neg (Nat.ne_of_gt positive)

theorem subWrap_eq (ordered : right ≤ left) (fits : left < 2 ^ bits) :
    subWrap bits left right = left - right := by
  rw [subWrap, truncate, Nat.mod_eq_of_lt (Nat.lt_of_le_of_lt ordered fits)]
  have split : left + (2 ^ bits - right) = left - right + 2 ^ bits := by omega
  rw [split, Nat.add_mod_right, Nat.mod_eq_of_lt (by omega)]

/-- Wrapping around does not matter where the exact difference fits. -/
theorem subWrap_truncate {left right difference : Nat} (exact : left = right + difference)
    (fits : difference < 2 ^ bits) : subWrap bits (truncate bits left) right = difference := by
  have wide := Nat.mod_lt right (Nat.two_pow_pos bits)
  rw [subWrap, truncate, truncate, exact, Nat.mod_add_mod]
  have parts := Nat.mod_add_div right (2 ^ bits)
  have split : right + difference + (2 ^ bits - right % 2 ^ bits) =
      difference + 2 ^ bits * (right / 2 ^ bits + 1) := by
    rw [Nat.mul_add, Nat.mul_one]
    omega
  rw [split, Nat.add_mul_mod_self_left, Nat.mod_eq_of_lt fits]

theorem addWrap_mulWrap (bits left right more : Nat) :
    addWrap bits (mulWrap bits left right) more = truncate bits (left * right + more) := by
  rw [addWrap, mulWrap, truncate, truncate, Nat.mod_add_mod, truncate]

theorem subWrap_mulWrap (bits whole left right : Nat) :
    subWrap bits whole (mulWrap bits left right) = subWrap bits whole (left * right) := by
  rw [subWrap, mulWrap, truncate, truncate, Nat.mod_mod, subWrap, truncate]

/-! ## Shifting over limbs -/

/-- What a shift loses on top is what the limb above takes in. -/
theorem shl_add_shr (within : amount ≤ bits) :
    shl bits value amount + 2 ^ bits * shr value (bits - amount) = value * 2 ^ amount := by
  have whole : 2 ^ bits = 2 ^ (bits - amount) * 2 ^ amount := by
    rw [← pow_add, Nat.sub_add_cancel within]
  rw [shl, truncate, shr, whole, Nat.mul_mod_mul_right, Nat.mul_right_comm, ← Nat.add_mul,
    Nat.mod_add_div]

theorem shr_lt_pow {low : Nat} (within : amount ≤ bits) (fits : low < 2 ^ bits) :
    shr low (bits - amount) < 2 ^ amount := by
  rw [shr, Nat.div_lt_iff_lt_mul (Nat.two_pow_pos _), ← pow_add, Nat.add_sub_cancel' within]
  exact fits

/-- The two parts of a shifted limb do not meet. -/
theorem shl_or_shr {low : Nat} (within : amount ≤ bits) (fits : low < 2 ^ bits) :
    shl bits value amount ||| shr low (bits - amount) =
      shl bits value amount + shr low (bits - amount) := by
  have whole : 2 ^ bits = 2 ^ (bits - amount) * 2 ^ amount := by
    rw [← pow_add, Nat.sub_add_cancel within]
  rw [shl, truncate, whole, Nat.mul_mod_mul_right, Nat.mul_comm]
  exact (Nat.two_pow_add_eq_or_of_lt (shr_lt_pow within fits) _).symm

theorem shl_or_shr_lt {low : Nat} (within : amount ≤ bits) (fits : low < 2 ^ bits) :
    shl bits value amount + shr low (bits - amount) < 2 ^ bits := by
  rw [← shl_or_shr within fits]
  apply Nat.or_lt_two_pow
  · exact truncate_lt _ _
  · exact Nat.lt_of_le_of_lt (Nat.div_le_self _ _) fits

theorem clz_lt (positive : 0 < value) (bitsPos : 0 < bits) : clz bits value < bits := by
  have sized := Nat.size_pos.mpr positive
  rw [clz]
  omega

/-- Shifted by its leading zeros, a number fits and has its top bit set. -/
theorem clz_normalizes (positive : 0 < value) (fits : value < 2 ^ bits) :
    2 ^ bits ≤ 2 * (value * 2 ^ clz bits value) ∧ value * 2 ^ clz bits value < 2 ^ bits := by
  have small : value.size ≤ bits := Nat.size_le.mpr fits
  have sized := Nat.size_pos.mpr positive
  have below : value < 2 ^ value.size := Nat.lt_size_self value
  have above : 2 ^ (value.size - 1) ≤ value := Nat.lt_size.mp (by omega)
  have total : value.size + clz bits value = bits := by
    rw [clz]
    omega
  have whole : 2 ^ bits = 2 ^ value.size * 2 ^ clz bits value := by rw [← pow_add, total]
  have half : 2 ^ value.size = 2 * 2 ^ (value.size - 1) := by
    rw [← pow_succ', Nat.sub_add_cancel sized]
  constructor
  · rw [whole, half, Nat.mul_assoc]
    exact Nat.mul_le_mul_left 2 (Nat.mul_le_mul_right _ above)
  · rw [whole]
    exact Nat.mul_lt_mul_of_pos_right below (Nat.two_pow_pos _)

/-! ## Counted loops -/

section Loops

variable {σ : Type} {step : σ → Nat → Option σ} {count : Nat} {state : σ}

/-- `for (0..count) |index|`. -/
def forUp (count : Nat) (step : σ → Nat → Option σ) (state : σ) : Option σ :=
  (List.range count).foldlM step state

/-- `var index = count; while (index != 0) { index -= 1; .. }`. -/
def forDown (step : σ → Nat → Option σ) : (count : Nat) → σ → Option σ
  | 0, state => some state
  | index + 1, state => do
      let state ← step state index
      forDown step index state

theorem forUp_rule (holds : Nat → σ → Prop) (start : holds 0 state)
    (stepped : ∀ index < count, ∀ state, holds index state →
      ∃ after, step state index = some after ∧ holds (index + 1) after) :
    ∃ after, forUp count step state = some after ∧ holds count after := by
  induction count with
  | zero => exact ⟨state, rfl, start⟩
  | succ count ih =>
      obtain ⟨middle, ran, held⟩ := ih fun index below => stepped index (Nat.lt_succ_of_lt below)
      obtain ⟨after, moved, next⟩ := stepped count (Nat.lt_succ_self count) middle held
      refine ⟨after, ?_, next⟩
      rw [forUp] at ran ⊢
      rw [List.range_succ, List.foldlM_append, ran]
      simp [moved]

theorem forDown_rule (holds : Nat → σ → Prop) (start : holds count state)
    (stepped : ∀ index < count, ∀ state, holds (index + 1) state →
      ∃ after, step state index = some after ∧ holds index after) :
    ∃ after, forDown step count state = some after ∧ holds 0 after := by
  induction count generalizing state with
  | zero => exact ⟨state, rfl, start⟩
  | succ count ih =>
      obtain ⟨middle, moved, held⟩ := stepped count (Nat.lt_succ_self count) state start
      obtain ⟨after, ran, done⟩ := ih held fun index below => stepped index (Nat.lt_succ_of_lt below)
      refine ⟨after, ?_, done⟩
      rw [forDown, moved]
      exact ran

end Loops

end EvmZig.Zig
