import EvmZig.Uint256.Model
import Mathlib.Algebra.Order.Floor.Div
import Mathlib.Data.BitVec
import Mathlib.Data.Nat.Size
import Mathlib.Tactic.Ring

/-!
# Wrapping powers (`wrapExp` of `src/uint256.zig`)

Powers are taken by squaring, after the cases whose result is known without:
the bases zero, one and two, and an even base whose power has 256 trailing zero
bits.  The loop is given the number of rounds it may take.
-/

set_option autoImplicit false

namespace EvmZig.Uint256

open Zig

variable {a expo value exponent result : BitVec 256}

/-- `bitLength`. -/
def bitLength (value : BitVec 256) : Nat :=
  if value = 0 then 0 else 256 - clz 256 value.toNat

/-- `std.math.shl(u256, value, amount)`. -/
def mathShl (value : BitVec 256) (amount : Nat) : BitVec 256 :=
  if amount ≥ 256 then 0 else value <<< amount

/-- The loop; `none` where it would take more than `rounds`. -/
def squareAndMultiply : (rounds : Nat) → (value exponent result : BitVec 256) → Option (BitVec 256)
  | rounds, value, exponent, result =>
      if exponent > 0 then
        match rounds with
        | 0 => none
        | rounds + 1 =>
            squareAndMultiply rounds (value * value) (exponent >>> 1)
              (if exponent &&& 1 = 1 then result * value else result)
      else some result

def wrapExp (rounds : Nat) (a expo : BitVec 256) : Option (BitVec 256) :=
  if expo = 0 then some 1
  else if a = 0 then some 0
  else if a = 1 then some 1
  else if a = 2 then
    if expo ≥ 256 then some 0 else some (mathShl 1 expo.toNat)
  else
    let trailingZeroBits := a.ctz.toNat
    if trailingZeroBits ≠ 0 ∧ expo.toNat ≥ 256 ⌈/⌉ trailingZeroBits then some 0
    else squareAndMultiply rounds a expo 1

/-! ## Rounds -/

theorem bitLength_eq (value : BitVec 256) : bitLength value = value.toNat.size := by
  have fits : value.toNat.size ≤ 256 := Nat.size_le.mpr value.isLt
  rw [bitLength, clz]
  split
  · rename_i zero
    rw [zero]
    rfl
  · omega

theorem toNat_pos (positive : exponent > 0) : 0 < exponent.toNat := by
  simpa [BitVec.lt_def] using positive

theorem toNat_eq_zero (zero : ¬exponent > 0) : exponent.toNat = 0 := by
  simpa [BitVec.lt_def] using zero

/-- The bit the round looks at. -/
theorem lowBit_iff : exponent &&& 1 = 1 ↔ exponent.toNat % 2 = 1 := by
  have low : (exponent &&& 1).toNat = exponent.toNat % 2 := by
    rw [BitVec.toNat_and]
    exact Nat.and_one_is_mod _
  rw [← low]
  exact BitVec.toNat_inj.symm

/-- A round keeps the product of the result and the power still to take. -/
theorem round_keeps (exponent : Nat) (value result : Nat) :
    (if exponent % 2 = 1 then result * value else result) * (value * value) ^ (exponent / 2) =
      result * value ^ exponent := by
  have split : exponent = exponent / 2 + exponent / 2 + exponent % 2 := by omega
  have squared : (value * value) ^ (exponent / 2) = value ^ (exponent / 2 + exponent / 2) := by
    rw [pow_add, mul_pow]
  conv_rhs => rw [split]
  rw [squared, pow_add (m := exponent / 2 + exponent / 2)]
  rcases Nat.mod_two_eq_zero_or_one exponent with even | odd
  · rw [even, if_neg (by decide), pow_zero, Nat.mul_one]
  · rw [odd, if_pos rfl, pow_one]
    ring

theorem ofNat_congr {left right : Nat} (same : left ≡ right [MOD 2 ^ 256]) :
    BitVec.ofNat 256 left = BitVec.ofNat 256 right :=
  BitVec.eq_of_toNat_eq (by rw [BitVec.toNat_ofNat, BitVec.toNat_ofNat]; exact same)

/-- As many rounds as the exponent has bits are enough. -/
theorem squareAndMultiply_eq (rounds : Nat) (value exponent result : BitVec 256)
    (enough : exponent.toNat < 2 ^ rounds) :
    squareAndMultiply rounds value exponent result =
      some (BitVec.ofNat 256 (result.toNat * value.toNat ^ exponent.toNat)) := by
  induction rounds generalizing value exponent result with
  | zero =>
      have zero : exponent.toNat = 0 := Nat.lt_one_iff.mp enough
      have stop : ¬exponent > 0 := fun positive => (toNat_pos positive).ne' zero
      rw [squareAndMultiply, if_neg stop, zero, pow_zero, Nat.mul_one, BitVec.ofNat_toNat,
        BitVec.setWidth_eq]
  | succ rounds ih =>
      rw [squareAndMultiply]
      split
      · have halved : (exponent >>> 1).toNat = exponent.toNat / 2 := by
          rw [BitVec.toNat_ushiftRight, Nat.shiftRight_one]
        have fewer : (exponent >>> 1).toNat < 2 ^ rounds := by
          rw [halved]
          rw [pow_succ] at enough
          omega
        rw [ih _ _ _ fewer, halved]
        refine congrArg some (ofNat_congr ?_)
        rw [← round_keeps exponent.toNat value.toNat result.toNat]
        apply Nat.ModEq.mul
        · by_cases odd : exponent &&& 1 = 1
          · rw [if_pos odd, if_pos (lowBit_iff.mp odd), BitVec.toNat_mul]
            exact Nat.mod_modEq _ _
          · rw [if_neg odd, if_neg (fun same => odd (lowBit_iff.mpr same))]
        · apply Nat.ModEq.pow
          rw [BitVec.toNat_mul]
          exact Nat.mod_modEq _ _
      · rename_i stop
        rw [toNat_eq_zero stop, pow_zero, Nat.mul_one, BitVec.ofNat_toNat, BitVec.setWidth_eq]

/-! ## Shortcuts -/

/-- The trailing zero bits are a power of two that divides. -/
theorem two_pow_ctz_dvd (a : BitVec 256) : 2 ^ a.ctz.toNat ∣ a.toNat := by
  have clear : ∀ place, place < a.ctz.toNat → a.toNat.testBit place = false := by
    intro place below
    rw [BitVec.testBit_toNat]
    exact BitVec.getLsbD_false_of_lt_ctz below
  have whole : a.toNat % 2 ^ a.ctz.toNat = 0 := by
    apply Nat.eq_of_testBit_eq
    intro place
    rw [Nat.testBit_mod_two_pow, Nat.zero_testBit]
    by_cases below : place < a.ctz.toNat
    · rw [clear place below, Bool.and_false]
    · rw [decide_eq_false below, Bool.false_and]
  exact Nat.dvd_of_mod_eq_zero whole

/-- From the threshold on the power has 256 trailing zero bits. -/
theorem evenPower_zero (even : a.ctz.toNat ≠ 0) (reached : expo.toNat ≥ 256 ⌈/⌉ a.ctz.toNat) :
    a.toNat ^ expo.toNat ≡ 0 [MOD 2 ^ 256] := by
  have bits : 256 ≤ a.ctz.toNat * expo.toNat := by
    have reached := ceilDiv_le_iff_le_smul (Nat.pos_of_ne_zero even) |>.mp reached
    rwa [smul_eq_mul] at reached
  apply (Nat.modEq_zero_iff_dvd).mpr
  calc 2 ^ 256 ∣ 2 ^ (a.ctz.toNat * expo.toNat) := pow_dvd_pow 2 bits
    _ = (2 ^ a.ctz.toNat) ^ expo.toNat := pow_mul ..
    _ ∣ a.toNat ^ expo.toNat := pow_dvd_pow_of_dvd (two_pow_ctz_dvd a) _

theorem twoPower_eq (expo : BitVec 256) :
    (if expo ≥ 256 then 0 else mathShl 1 expo.toNat) = BitVec.ofNat 256 (2 ^ expo.toNat) := by
  have large : expo ≥ 256 ↔ 256 ≤ expo.toNat := by
    rw [ge_iff_le, BitVec.le_def]
    rfl
  by_cases beyond : 256 ≤ expo.toNat
  · rw [if_pos (large.mpr beyond)]
    exact (ofNat_congr ((Nat.modEq_zero_iff_dvd).mpr (pow_dvd_pow 2 beyond))).symm
  · rw [if_neg (fun reached => beyond (large.mp reached)), mathShl, if_neg beyond]
    apply BitVec.eq_of_toNat_eq
    rw [BitVec.toNat_shiftLeft, BitVec.toNat_ofNat, Nat.shiftLeft_eq]
    exact congrArg (· % 2 ^ 256) (Nat.one_mul _)

/-- `wrapExp` is the power modulo `2 ^ 256`, and the loop takes no more rounds than the exponent
has bits. -/
theorem wrapExp_exact (a expo : BitVec 256) (spare : Nat) :
    wrapExp (bitLength expo + spare) a expo = some (BitVec.ofNat 256 (a.toNat ^ expo.toNat)) := by
  rw [wrapExp]
  by_cases none : expo = 0
  · rw [if_pos none, none]
    rfl
  have positive : expo.toNat ≠ 0 := fun zero => none (BitVec.eq_of_toNat_eq zero)
  rw [if_neg none]
  by_cases zero : a = 0
  · rw [if_pos zero, zero, show (0 : BitVec 256).toNat = 0 from rfl, zero_pow positive]
    rfl
  rw [if_neg zero]
  by_cases one : a = 1
  · rw [if_pos one, one, show (1 : BitVec 256).toNat = 1 from rfl, one_pow]
    rfl
  rw [if_neg one]
  by_cases two : a = 2
  · rw [if_pos two, two, show (2 : BitVec 256).toNat = 2 from rfl, ← twoPower_eq]
    split <;> rfl
  rw [if_neg two]
  dsimp only
  split
  · rename_i shortcut
    rw [ofNat_congr (evenPower_zero shortcut.1 shortcut.2)]
    rfl
  · have enough : expo.toNat < 2 ^ (bitLength expo + spare) := by
      rw [bitLength_eq]
      exact (Nat.lt_size_self _).trans_le (Nat.pow_le_pow_right (by decide) (Nat.le_add_right _ _))
    rw [squareAndMultiply_eq _ _ _ _ enough, show (1 : BitVec 256).toNat = 1 from rfl, Nat.one_mul]

end EvmZig.Uint256
