import EvmZig.Lib.Radix
import EvmZig.Uint256.Model

/-!
# Two limbs by one

`div128by64` finds a quotient limb as two half digits, each exact after the loop
that lowers its estimate.
-/

set_option autoImplicit false

namespace EvmZig.Uint256

open Zig

/-! ## A half digit -/

section HalfDigit

variable {v vn1 vn0 high digit q rhat : Nat}

theorem shl_half (fits : rhat < 2 ^ 32) : shl 64 rhat 32 = rhat * 2 ^ 32 :=
  truncate_eq (by omega)

theorem half_bound (rhatFits : rhat < 2 ^ 32) (digitFits : digit < 2 ^ 32) :
    rhat * 2 ^ 32 + digit < 2 ^ 64 := by
  omega

theorem rest_fits (rhatFits : rhat < 2 ^ 32) (vn1Fits : vn1 < 2 ^ 32) : rhat + vn1 < 2 ^ 64 := by
  omega

theorem halfTooLarge_eq (digitFits : digit < 2 ^ 32) (vn0Fits : vn0 < 2 ^ 32)
    (rhatFits : rhat < 2 ^ 32) :
    halfTooLarge vn0 digit q rhat =
      some (decide (2 ^ 32 ≤ q ∨ rhat * 2 ^ 32 + digit < q * vn0)) := by
  rw [halfTooLarge]
  by_cases large : 2 ^ 32 ≤ q
  · rw [if_pos large, decide_eq_true (.inl large)]
  · have product : q * vn0 < 2 ^ 32 * 2 ^ 32 := Nat.mul_lt_mul'' (Nat.lt_of_not_le large) vn0Fits
    rw [← pow_add] at product
    rw [if_neg large, mulTrap_eq product, shl_half rhatFits, Option.bind_eq_bind,
      Option.bind_some, addTrap_eq (half_bound rhatFits digitFits)]
    exact congrArg some (decide_eq_decide.mpr (or_iff_right large).symm)

/-- The loop stops at the digit: no estimate above it passes the test, and none below is tried. -/
theorem lowerHalf_eq (digitFits : digit < 2 ^ 32) (vn0Fits : vn0 < 2 ^ 32)
    (vn1Fits : vn1 < 2 ^ 32) (vn1Pos : 0 < vn1) (highFits : high < vn1 * 2 ^ 32 + vn0)
    (rhatFits : rhat < 2 ^ 32) (balance : q * vn1 + rhat = high)
    (least : (high * 2 ^ 32 + digit) / (vn1 * 2 ^ 32 + vn0) ≤ q) :
    lowerHalf vn1 vn0 digit q rhat =
      some ((high * 2 ^ 32 + digit) / (vn1 * 2 ^ 32 + vn0)) := by
  have positive : 0 < vn1 * 2 ^ 32 + vn0 :=
    Nat.add_pos_left (Nat.mul_pos vn1Pos (Nat.two_pow_pos 32)) vn0
  have digitSmall := @Lib.quotient_lt_base (2 ^ 32) vn1 vn0 high digit highFits digitFits
  -- an estimate that fails the test is above the digit
  have above : ∀ q rhat, q * vn1 + rhat = high → (2 ^ 32 ≤ q ∨ rhat * 2 ^ 32 + digit < q * vn0) →
      (high * 2 ^ 32 + digit) / (vn1 * 2 ^ 32 + vn0) < q := by
    rintro q rhat balance (large | test)
    · exact Nat.lt_of_lt_of_le digitSmall large
    · exact Lib.quotient_lt_of_test positive balance test
  induction q generalizing rhat with
  | zero =>
      have stops : ¬(2 ^ 32 ≤ 0 ∨ rhat * 2 ^ 32 + digit < 0 * vn0) := by
        rw [Nat.zero_mul]
        exact not_or.mpr ⟨by decide, Nat.not_lt_zero _⟩
      rw [lowerHalf, halfTooLarge_eq digitFits vn0Fits rhatFits, decide_eq_false stops]
      exact congrArg some (Nat.le_zero.mp least).symm
  | succ q ih =>
      rw [lowerHalf, halfTooLarge_eq digitFits vn0Fits rhatFits]
      by_cases test : 2 ^ 32 ≤ q + 1 ∨ rhat * 2 ^ 32 + digit < (q + 1) * vn0
      · have lower := above (q + 1) rhat balance test
        have next : q * vn1 + (rhat + vn1) = high := by
          rw [← balance]
          ring
        rw [decide_eq_true test, Option.bind_eq_bind, Option.bind_some, if_pos rfl,
          addTrap_eq (rest_fits rhatFits vn1Fits), Option.bind_eq_bind, Option.bind_some]
        by_cases last : 2 ^ 32 ≤ rhat + vn1
        · rw [if_pos last]
          have passes := @Lib.test_of_large_rest _ _ _ _ digit _ _ highFits vn0Fits next last
          have most := Lib.le_quotient_of_test positive next passes.2
          exact congrArg some (Nat.le_antisymm most (Nat.le_of_lt_succ lower))
        · rw [if_neg last]
          exact ih (Nat.lt_of_not_le last) next (Nat.le_of_lt_succ lower)
      · rw [decide_eq_false test, Option.bind_eq_bind, Option.bind_some, if_neg Bool.false_ne_true]
        have most := Lib.le_quotient_of_test positive balance (Nat.le_of_not_lt (not_or.mp test).2)
        exact congrArg some (Nat.le_antisymm most least)

theorem and_mask (value bits : Nat) : value &&& (2 ^ bits - 1) = value % 2 ^ bits :=
  Nat.and_two_pow_sub_one_eq_mod value bits

theorem leading_half (normal : 2 ^ 63 ≤ v) (fits : v < 2 ^ 64) :
    0 < v / 2 ^ 32 ∧ v / 2 ^ 32 < 2 ^ 32 := by
  omega

/-- A half digit is exact. -/
theorem halfDigit_eq (normal : 2 ^ 63 ≤ v) (vFits : v < 2 ^ 64) (highFits : high < v)
    (digitFits : digit < 2 ^ 32) :
    halfDigit v high digit =
      some ⟨(high * 2 ^ 32 + digit) / v, (high * 2 ^ 32 + digit) % v⟩ := by
  have split : v / 2 ^ 32 * 2 ^ 32 + v % 2 ^ 32 = v := Nat.div_add_mod' v (2 ^ 32)
  obtain ⟨vn1Pos, vn1Fits⟩ := leading_half normal vFits
  have vn0Fits : v % 2 ^ 32 < 2 ^ 32 := Nat.mod_lt _ (Nat.two_pow_pos 32)
  have vPos : 0 < v := Nat.lt_of_lt_of_le (Nat.two_pow_pos 63) normal
  have least := @Lib.quotient_le_estimate (2 ^ 32) (v / 2 ^ 32) (v % 2 ^ 32) high digit vn1Pos digitFits
  have ran := @lowerHalf_eq (v / 2 ^ 32) (v % 2 ^ 32) high digit (high / (v / 2 ^ 32))
    (high % (v / 2 ^ 32)) digitFits vn0Fits vn1Fits vn1Pos (by rwa [split])
    (Nat.lt_trans (Nat.mod_lt _ vn1Pos) vn1Fits) (Nat.div_add_mod' _ _) least
  rw [split] at ran
  have rest : subWrap 64 (addWrap 64 (mulWrap 64 high (2 ^ 32)) digit)
      (mulWrap 64 ((high * 2 ^ 32 + digit) / v) v) = (high * 2 ^ 32 + digit) % v := by
    have fits : (high * 2 ^ 32 + digit) % v < 2 ^ 64 := Nat.lt_trans (Nat.mod_lt _ vPos) vFits
    rw [addWrap_mulWrap, subWrap_mulWrap]
    exact subWrap_truncate (Nat.div_add_mod' _ _).symm fits
  rw [halfDigit, shr, and_mask, divTrap_eq vn1Pos, remTrap_eq vn1Pos]
  simp only [Option.bind_eq_bind, Option.bind_some, ran, rest]
  rfl

end HalfDigit

/-! ## The whole digit -/

section WholeDigit

variable {nHi nLo denominator shift : Nat}

/-- A dividend below `2 ^ 64` times the divisor, shifted with it. -/
theorem shifted_dividend (within : shift ≤ 64) (loFits : nLo < 2 ^ 64) (below : nHi < denominator)
    (fits : denominator * 2 ^ shift < 2 ^ 64) :
    ((if 0 < shift then shl 64 nHi shift ||| shr nLo (64 - shift) else nHi) * 2 ^ 64 +
        shl 64 nLo shift = (nHi * 2 ^ 64 + nLo) * 2 ^ shift) ∧
      (if 0 < shift then shl 64 nHi shift ||| shr nLo (64 - shift) else nHi) <
        denominator * 2 ^ shift := by
  have step : (nHi + 1) * 2 ^ shift ≤ denominator * 2 ^ shift := Nat.mul_le_mul_right _ below
  rw [Nat.add_mul, Nat.one_mul] at step
  have high : shl 64 nHi shift = nHi * 2 ^ shift :=
    truncate_eq (Nat.lt_of_le_of_lt (Nat.le_trans (Nat.le_add_right _ _) step) fits)
  have spill := shr_lt_pow within loFits
  have low := @shl_add_shr 64 nLo shift within
  by_cases moved : 0 < shift
  · rw [if_pos moved, shl_or_shr within loFits, high]
    refine ⟨?_, Nat.lt_of_lt_of_le (Nat.add_lt_add_left spill _) step⟩
    rw [Nat.add_mul (nHi * 2 ^ 64), ← low]
    ring
  · obtain rfl : shift = 0 := Nat.eq_zero_of_not_pos moved
    rw [if_neg moved, pow_zero, Nat.mul_one, Nat.mul_one, shl, pow_zero, Nat.mul_one,
      truncate_eq loFits]
    exact ⟨rfl, below⟩

/-- Two half digits are the digit of the whole. -/
theorem halves_eq {half v high upper lower : Nat} :
    ((high * half + upper) / v * half + ((high * half + upper) % v * half + lower) / v) * v +
      ((high * half + upper) % v * half + lower) % v =
        high * (half * half) + (upper * half + lower) := by
  have first := Nat.div_add_mod' (high * half + upper) v
  have second := Nat.div_add_mod' ((high * half + upper) % v * half + lower) v
  generalize ((high * half + upper) % v * half + lower) / v = q0 at *
  generalize ((high * half + upper) % v * half + lower) % v = r at *
  generalize (high * half + upper) / v = q1 at *
  generalize (high * half + upper) % v = rest at *
  calc (q1 * half + q0) * v + r = q1 * v * half + (q0 * v + r) := by ring
    _ = (q1 * v + rest) * half + lower := by
        rw [second]
        ring
    _ = high * (half * half) + (upper * half + lower) := by
        rw [first]
        ring

theorem half_le {v : Nat} (normal : 2 ^ 64 ≤ 2 * v) : 2 ^ 63 ≤ v := by omega

theorem halves_of {limb : Nat} (fits : limb < 2 ^ 64) :
    shr limb 32 < 2 ^ 32 ∧ shr limb 32 * 2 ^ 32 + limb % 2 ^ 32 = limb ∧
      limb % 2 ^ 32 < 2 ^ 32 := by
  rw [shr]
  omega

theorem quotient_limb {v high low limbs : Nat} (below : high < v) (lowFits : low < limbs) :
    (high * limbs + low) / v < limbs := by
  rw [Nat.div_lt_iff_lt_mul (Nat.zero_lt_of_lt below)]
  have step : (high + 1) * limbs ≤ v * limbs := Nat.mul_le_mul_right _ below
  rw [Nat.add_mul, Nat.one_mul] at step
  rw [Nat.mul_comm limbs]
  omega

/-- Both half digits of a normalized division, put together. -/
theorem halves_run {v un32 un10 : Nat} (normal : 2 ^ 63 ≤ v) (vFits : v < 2 ^ 64)
    (highFits : un32 < v) (lowFits : un10 < 2 ^ 64) :
    (do
      let upper ← halfDigit v un32 (shr un10 32)
      let lower ← halfDigit v upper.r (un10 &&& (2 ^ 32 - 1))
      let high ← mulTrap 64 upper.q (2 ^ 32)
      let q ← addTrap 64 high lower.q
      return { q, r := shr lower.r shift }) =
    some (⟨(un32 * 2 ^ 64 + un10) / v, shr ((un32 * 2 ^ 64 + un10) % v) shift⟩ : QuotRem) := by
  obtain ⟨upperFits, lower_eq, lowerFits⟩ := halves_of lowFits
  have vPos : 0 < v := Nat.zero_lt_of_lt highFits
  obtain ⟨upper, first, upperQ, upperR⟩ : ∃ upper, halfDigit v un32 (shr un10 32) = some upper ∧
      upper.q = (un32 * 2 ^ 32 + shr un10 32) / v ∧ upper.r = (un32 * 2 ^ 32 + shr un10 32) % v :=
    ⟨_, halfDigit_eq normal vFits highFits upperFits, rfl, rfl⟩
  have restFits : upper.r < v := upperR ▸ Nat.mod_lt _ vPos
  obtain ⟨lower, second, lowerQ, lowerR⟩ : ∃ lower, halfDigit v upper.r (un10 % 2 ^ 32) = some lower ∧
      lower.q = (upper.r * 2 ^ 32 + un10 % 2 ^ 32) / v ∧
        lower.r = (upper.r * 2 ^ 32 + un10 % 2 ^ 32) % v :=
    ⟨_, halfDigit_eq normal vFits restFits lowerFits, rfl, rfl⟩
  have whole := @halves_eq (2 ^ 32) v un32 (shr un10 32) (un10 % 2 ^ 32)
  rw [← pow_add, lower_eq, ← upperQ, ← upperR, ← lowerQ, ← lowerR] at whole
  have rest : lower.r < v := lowerR ▸ Nat.mod_lt _ vPos
  have quotient : (un32 * 2 ^ 64 + un10) / v = upper.q * 2 ^ 32 + lower.q := by
    rw [← whole, Nat.add_comm, Nat.add_mul_div_right _ _ vPos, Nat.div_eq_of_lt rest, Nat.zero_add]
  have remainder : (un32 * 2 ^ 64 + un10) % v = lower.r := by
    rw [← whole, Nat.add_comm, Nat.add_mul_mod_self_right, Nat.mod_eq_of_lt rest]
  have digitFits : upper.q * 2 ^ 32 + lower.q < 2 ^ 64 := quotient ▸ quotient_limb highFits lowFits
  have highPart : upper.q * 2 ^ 32 < 2 ^ 64 := Nat.lt_of_le_of_lt (Nat.le_add_right _ _) digitFits
  rw [first, Option.bind_eq_bind, Option.bind_some, and_mask, second, Option.bind_eq_bind,
    Option.bind_some, mulTrap_eq highPart, Option.bind_some, addTrap_eq digitFits, Option.bind_some,
    quotient, remainder]
  rfl

/-- The limb of a quotient below `2 ^ 64`, and the rest. -/
theorem div128by64_eq (loFits : nLo < 2 ^ 64) (fits : denominator < 2 ^ 64)
    (below : nHi < denominator) :
    div128by64 nHi nLo denominator =
      some ⟨(nHi * 2 ^ 64 + nLo) / denominator, (nHi * 2 ^ 64 + nLo) % denominator⟩ := by
  have positive : 0 < denominator := Nat.zero_lt_of_lt below
  have small : clz 64 denominator < 64 := clz_lt positive (by decide)
  obtain ⟨normal, vFits⟩ := clz_normalizes positive fits
  rw [div128by64, castTrap_eq small, Option.bind_eq_bind, Option.bind_some]
  generalize clz 64 denominator = shift at *
  obtain ⟨dividend, highFits⟩ := shifted_dividend (Nat.le_of_lt small) loFits below vFits
  have v_eq : shl 64 denominator shift = denominator * 2 ^ shift := truncate_eq vFits
  have lowFits : shl 64 nLo shift < 2 ^ 64 := truncate_lt _ _
  have ran := @halves_run shift _ _ _ (half_le normal) vFits highFits lowFits
  have remainder : shr (((nHi * 2 ^ 64 + nLo) * 2 ^ shift) % (denominator * 2 ^ shift)) shift =
      (nHi * 2 ^ 64 + nLo) % denominator := by
    rw [Nat.mul_mod_mul_right, shr, Nat.mul_div_cancel _ (Nat.two_pow_pos shift)]
  rw [dividend, Nat.mul_div_mul_right _ _ (Nat.two_pow_pos shift), remainder, ← v_eq] at ran
  exact ran

end WholeDigit

end EvmZig.Uint256
