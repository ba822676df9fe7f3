import EvmZig.Precompile.ModexpBytes
import Mathlib.Data.Nat.Prime.Basic

/-!
# Montgomery exponentiation in words

The Newton inverse is exact for every odd modulus, and the Montgomery product
stays below twice the modulus before its subtraction.
-/

set_option autoImplicit false

namespace EvmZig.Modexp

open Zig Uint256 Lib

section Words

variable {bits modulus : Nat}

/-! ## The inverse -/

theorem truncate_modEq (bits value : Nat) : truncate bits value ≡ value [MOD 2 ^ bits] :=
  Nat.mod_modEq value _

theorem subWrap_modEq (bits left right : Nat) :
    subWrap bits left right + right ≡ left [MOD 2 ^ bits] := by
  have wide := Nat.mod_lt right (Nat.two_pow_pos bits)
  have parts := Nat.mod_add_div right (2 ^ bits)
  have wrapped : subWrap bits left right + right ≡
      left + (2 ^ bits - right % 2 ^ bits) + right [MOD 2 ^ bits] :=
    (truncate_modEq bits _).add_right right
  refine wrapped.trans ?_
  have split : left + (2 ^ bits - right % 2 ^ bits) + right =
      left + 2 ^ bits * (right / 2 ^ bits + 1) := by
    rw [Nat.mul_add, Nat.mul_one]
    omega
  rw [split, Nat.ModEq, Nat.add_mul_mod_self_left]

/-- A round of the iteration over the integers. -/
theorem newtonRound_modEq (bits modulus inverse : Nat) :
    (mulWrap bits inverse (subWrap bits 2 (mulWrap bits modulus inverse)) : ℤ) ≡
      inverse * (2 - modulus * inverse) [ZMOD 2 ^ bits] := by
  have product : (mulWrap bits modulus inverse : ℤ) ≡ modulus * inverse [ZMOD 2 ^ bits] := by
    have same := truncate_modEq bits (modulus * inverse)
    rw [← Int.natCast_modEq_iff] at same
    push_cast at same
    exact same
  have rest : (subWrap bits 2 (mulWrap bits modulus inverse) : ℤ) ≡
      2 - modulus * inverse [ZMOD 2 ^ bits] := by
    have same := subWrap_modEq bits 2 (mulWrap bits modulus inverse)
    rw [← Int.natCast_modEq_iff] at same
    push_cast at same
    have difference := same.sub product
    rwa [Int.add_sub_cancel] at difference
  have whole := truncate_modEq bits (inverse * subWrap bits 2 (mulWrap bits modulus inverse))
  rw [← Int.natCast_modEq_iff] at whole
  push_cast at whole
  exact whole.trans (rest.mul_left _)

/-- After `rounds` rounds the inverse is exact to `2 ^ rounds` bits. -/
theorem newtonRounds_exact (odd : modulus % 2 = 1) (rounds : Nat) :
    (2 : ℤ) ^ min (2 ^ rounds) bits ∣ modulus * ((List.range rounds).foldl (fun inverse _ =>
      mulWrap bits inverse (subWrap bits 2 (mulWrap bits modulus inverse))) 1 : Nat) - 1 := by
  induction rounds with
  | zero =>
      have one : (2 : ℤ) ^ 1 ∣ (modulus : ℤ) - 1 := by omega
      rw [List.range_zero, List.foldl_nil, Nat.cast_one, mul_one]
      exact (pow_dvd_pow 2 (Nat.min_le_left _ _)).trans one
  | succ rounds ih =>
      rw [List.range_succ, List.foldl_append, List.foldl_cons, List.foldl_nil, pow_succ, Nat.mul_comm]
      exact newton_doubles ih (newtonRound_modEq bits modulus _)

/-- The inverse is exact for every odd modulus of at most 256 bits. -/
theorem newtonInverse_exact (narrow : bits ≤ 256) (odd : modulus % 2 = 1) :
    modulus * newtonInverse bits modulus ≡ 1 [MOD 2 ^ bits] := by
  have exact := @newtonRounds_exact bits modulus odd 8
  have all : min (2 ^ 8) bits = bits := Nat.min_eq_right narrow
  rw [all] at exact
  rw [← Int.natCast_modEq_iff]
  push_cast
  exact (Int.modEq_iff_dvd.mpr exact).symm

/-- What `neg_inverse` is for. -/
theorem negInverse_dvd (narrow : bits ≤ 256) (odd : modulus % 2 = 1) :
    2 ^ bits ∣ modulus * subWrap bits 0 (newtonInverse bits modulus) + 1 := by
  have exact := newtonInverse_exact narrow odd
  have negated := (subWrap_modEq bits 0 (newtonInverse bits modulus)).mul_left modulus
  rw [Nat.mul_zero, Nat.mul_add] at negated
  rw [← Nat.modEq_zero_iff_dvd]
  exact (exact.symm.add_left _).trans negated

/-! ## One multiplication -/

theorem reduceWidened_eq {widened : Nat} (fits : modulus ≤ 2 ^ bits)
    (bounded : widened < 2 * modulus) :
    ∃ reduced, reduceWidened bits widened modulus = some reduced ∧ reduced < modulus ∧
      reduced ≡ widened [MOD modulus] := by
  obtain ⟨small, same⟩ := sub_reduces bounded
  refine ⟨_, ?_, small, same⟩
  rw [reduceWidened]
  by_cases large : widened ≥ modulus
  · rw [if_pos large] at small ⊢
    rw [if_pos large, subTrap_eq large, Option.bind_eq_bind, Option.bind_some,
      castTrap_eq (Nat.lt_of_lt_of_le small fits)]
  · rw [if_neg large] at small ⊢
    rw [if_neg large, castTrap_eq (Nat.lt_of_lt_of_le small fits)]

/-- A residue times a number that is minus one over the modulus cancels it. -/
theorem factor_cancels {low negInverse : Nat} (inverse : 2 ^ bits ∣ modulus * negInverse + 1) :
    2 ^ bits ∣ low + truncate bits (mulWrap bits low negInverse * modulus) := by
  rw [← Nat.modEq_zero_iff_dvd]
  have scaled : low + mulWrap bits low negInverse * modulus ≡ 0 [MOD 2 ^ bits] := by
    have wrapped := ((truncate_modEq bits (low * negInverse)).mul_right modulus).add_left low
    refine wrapped.trans (Nat.modEq_zero_iff_dvd.mpr ?_)
    have split : low + low * negInverse * modulus = low * (modulus * negInverse + 1) := by ring
    rw [split]
    exact Dvd.dvd.mul_left inverse low
  exact ((truncate_modEq bits _).add_left low).trans scaled

theorem two_mul_le_double (wide : 0 < bits) (fits : modulus < 2 ^ bits) :
    2 * modulus ≤ 2 ^ (2 * bits) := by
  have two : 2 ^ 1 ≤ 2 ^ bits := Nat.pow_le_pow_right (by decide) wide
  calc 2 * modulus ≤ 2 ^ bits * 2 ^ bits := Nat.mul_le_mul two (Nat.le_of_lt fits)
    _ = 2 ^ (2 * bits) := by rw [Nat.two_mul, pow_add]

theorem mul_lt_double {left right : Nat} (leftFits : left < 2 ^ bits) (rightFits : right < 2 ^ bits) :
    left * right < 2 ^ (2 * bits) := by
  rw [Nat.two_mul, pow_add]
  exact Nat.mul_lt_mul'' leftFits rightFits

/-- The sum is the product over the radix, below twice the modulus. -/
theorem montSum_eq {a b negInverse : Nat} (wide : 0 < bits) (fits : modulus < 2 ^ bits)
    (inverse : 2 ^ bits ∣ modulus * negInverse + 1) (aFits : a < modulus) (bFits : b < modulus) :
    ∃ sum, montSum bits a b modulus negInverse = some sum ∧ sum < 2 * modulus ∧
      2 ^ bits * sum ≡ a * b [MOD modulus] := by
  have productFits : a * b < 2 ^ (2 * bits) :=
    mul_lt_double (Nat.lt_trans aFits fits) (Nat.lt_trans bFits fits)
  have factorFits : mulWrap bits (truncate bits (a * b)) negInverse < 2 ^ bits := truncate_lt _ _
  have factorModulusFits := mul_lt_double factorFits fits
  have productSplit := truncate_add_shr bits (a * b)
  have carried := cancel_carry (truncate_lt bits (a * b)) (truncate_lt bits _)
    (@factor_cancels bits modulus (truncate bits (a * b)) negInverse inverse) (by
      intro none
      rw [none, mulWrap, Nat.zero_mul, truncate_eq (Nat.two_pow_pos bits), Nat.zero_mul,
        truncate_eq (Nat.two_pow_pos bits)])
  generalize factorEq : mulWrap bits (truncate bits (a * b)) negInverse = factor at *
  have factorSplit := truncate_add_shr bits (factor * modulus)
  generalize carryEq : (if truncate bits (a * b) ≠ 0 then 1 else 0) = carry at *
  have whole : a * b + factor * modulus =
      2 ^ bits * (shr (a * b) bits + shr (factor * modulus) bits + carry) := by
    rw [Nat.mul_add, Nat.mul_add]
    omega
  have scaled : a * b < modulus * 2 ^ bits :=
    Nat.mul_lt_mul'' aFits (Nat.lt_trans bFits fits)
  have bounded := reduced_lt whole scaled factorFits
  have room := two_mul_le_double wide fits
  refine ⟨_, ?_, bounded, reduced_modEq whole⟩
  rw [montSum, mulTrap_eq productFits, Option.bind_eq_bind, Option.bind_some]
  dsimp only
  rw [factorEq, carryEq, mulTrap_eq factorModulusFits, Option.bind_some, addTrap_eq (by omega),
    Option.bind_some, addTrap_eq (by omega)]

theorem montMul_multiplies {negInverse : Nat} (wide : 0 < bits) (fits : modulus < 2 ^ bits)
    (inverse : 2 ^ bits ∣ modulus * negInverse + 1) :
    Multiplies total Eq modulus (2 ^ bits)
      (fun left right => montMul bits left right modulus negInverse) := by
  rintro left right _ _ rfl rfl leftFits rightFits
  obtain ⟨sum, summed, bounded, same⟩ := montSum_eq wide fits inverse leftFits rightFits
  obtain ⟨reduced, ran, small, equal⟩ := reduceWidened_eq (Nat.le_of_lt fits) bounded
  refine ⟨reduced, ?_, reduced, rfl, small, (equal.mul_left _).trans same⟩
  show montMul bits left right modulus negInverse = some reduced
  rw [montMul, summed, Option.bind_eq_bind, Option.bind_some, ran]

/-! ## Powers -/

theorem doubledRadix_eq (wide : 0 < bits) (fits : modulus < 2 ^ bits) (large : 1 < modulus) :
    ∃ r2, doubledRadix bits modulus = some r2 ∧ r2 < modulus ∧
      r2 ≡ 2 ^ bits * 2 ^ bits [MOD modulus] := by
  have room := two_mul_le_double wide fits
  obtain ⟨r2, ran, small, same⟩ := @forUp_rule _
    (fun r2 _ => reduceWidened bits (shl (2 * bits) r2 1) modulus) (2 * bits) 1
    (fun index r2 => r2 < modulus ∧ r2 ≡ 2 ^ index [MOD modulus])
    ⟨large, Nat.ModEq.refl 1⟩ (by
      rintro index _ r2 ⟨small, same⟩
      have shifted : shl (2 * bits) r2 1 = r2 * 2 := truncate_eq (by omega)
      obtain ⟨reduced, ran, less, equal⟩ :=
        @reduceWidened_eq bits modulus (shl (2 * bits) r2 1) (Nat.le_of_lt fits) (by omega)
      refine ⟨reduced, ran, less, equal.trans ?_⟩
      rw [shifted, pow_succ]
      exact same.mul_right 2)
  refine ⟨r2, ran, small, ?_⟩
  rwa [Nat.two_mul, pow_add] at same

theorem coprime_two_pow (odd : modulus % 2 = 1) (bits : Nat) : Nat.Coprime modulus (2 ^ bits) := by
  apply Nat.Coprime.pow_right
  exact Nat.coprime_two_right.mpr (Nat.odd_iff.mpr odd)

/-- Montgomery exponentiation is exact. -/
theorem montPow_eq {base : Nat} (wide : 0 < bits) (narrow : bits ≤ 256) (fits : modulus < 2 ^ bits)
    (odd : modulus % 2 = 1) (baseFits : base < modulus) (exponentBytes : List UInt8) :
    montPow bits base exponentBytes modulus = some (base ^ beValue exponentBytes % modulus) := by
  have lowest : modulus &&& 1 = 1 := by rw [Nat.and_one_is_mod, odd]
  rw [montPow, assert_true lowest, Option.bind_eq_bind, Option.bind_some]
  by_cases one : modulus = 1
  · rw [if_pos one, one, Nat.mod_one]
    rfl
  have large : 1 < modulus := by omega
  rw [if_neg one]
  have multiplies := montMul_multiplies wide fits (negInverse_dvd narrow odd)
  have coprime := coprime_two_pow odd bits
  obtain ⟨r2, doubled, r2Fits, squared⟩ := doubledRadix_eq wide fits large
  obtain ⟨baseMont, entered, baseScaled⟩ := multiplies.enter coprime base 1
    rfl baseFits (by rw [pow_one]) rfl r2Fits squared
  obtain ⟨oneMont, begun, oneScaled⟩ := multiplies.enter coprime base 0
    rfl large (by rw [pow_zero]) rfl r2Fits squared
  obtain ⟨resultMont, climbed, powered⟩ :=
    ladder_meets (multiplies.climbs coprime baseScaled) oneScaled exponentBytes
  obtain ⟨result, left, exact⟩ := multiplies.leave coprime powered rfl large
  dsimp only
  rw [doubled, Option.bind_eq_bind, Option.bind_some, entered, Option.bind_some, begun, Option.bind_some]
  have same : ladder (fun result => montMul bits result result modulus
      (subWrap bits 0 (newtonInverse bits modulus))) (fun result => montMul bits result baseMont
        modulus (subWrap bits 0 (newtonInverse bits modulus))) (some baseMont) oneMont exponentBytes =
      some resultMont := climbed
  rw [same, Option.bind_some, left, exact]

end Words

end EvmZig.Modexp
