import EvmZig.Uint256.DivMod

/-!
# Modular arithmetic on words is exact

`addMod` and `mulMod` against the integers: the reducer for moduli just below the
power of two, and the division of the eight-limb product.
-/

set_option autoImplicit false

namespace EvmZig.Uint256

open Zig

/-! ## Sums -/

section Sums

variable {a b modulo lhs rhs : BitVec 256}

theorem complement_toNat (nonzero : modulo ≠ 0) : (0 - modulo).toNat = 2 ^ 256 - modulo.toNat := by
  have positive := Nat.pos_of_ne_zero (toNat_ne_zero nonzero)
  rw [BitVec.toNat_sub]
  change (2 ^ 256 - modulo.toNat + 0) % 2 ^ 256 = 2 ^ 256 - modulo.toNat
  rw [Nat.add_zero, Nat.mod_eq_of_lt (Nat.sub_lt (Nat.two_pow_pos 256) positive)]

theorem sum_mod {left right modulus : Nat} (leftFits : left < modulus) (rightFits : right < modulus) :
    (left + right) % modulus =
      if modulus ≤ left + right then left + right - modulus else left + right := by
  by_cases wraps : modulus ≤ left + right
  · rw [if_pos wraps, Nat.mod_eq_sub_mod wraps, Nat.mod_eq_of_lt (by omega)]
  · rw [if_neg wraps, Nat.mod_eq_of_lt (Nat.lt_of_not_le wraps)]

theorem addModReduced_eq (lhsFits : lhs.toNat < modulo.toNat) (rhsFits : rhs.toNat < modulo.toNat) :
    addModReduced lhs rhs modulo =
      some (BitVec.ofNat 256 ((lhs.toNat + rhs.toNat) % modulo.toNat)) := by
  have fits := modulo.isLt
  have nonzero : modulo ≠ 0 := by
    rintro rfl
    exact Nat.not_lt_zero _ lhsFits
  have complement := complement_toNat nonzero
  rw [sum_mod lhsFits rhsFits, addModReduced, addWithOverflow]
  dsimp only
  by_cases overflow : 2 ^ 256 ≤ lhs.toNat + rhs.toNat
  · rw [if_neg (by rw [decide_eq_true overflow]; decide), if_pos (by omega), complement, truncate,
      Nat.mod_eq_sub_mod overflow, Nat.mod_eq_of_lt (by omega), addTrap_eq (by omega)]
    refine congrArg some (congrArg (BitVec.ofNat 256) ?_)
    omega
  · rw [if_pos (decide_eq_false overflow), truncate_eq (Nat.lt_of_not_le overflow)]
    by_cases wraps : modulo.toNat ≤ lhs.toNat + rhs.toNat
    · rw [if_pos wraps, if_pos wraps, subTrap_eq wraps]
      rfl
    · rw [if_neg wraps, if_neg wraps]
      rfl

/-- An operand of `addMod` reduced, if it has to be. -/
theorem reduced_eq (nonzero : modulo ≠ 0) :
    (if a.toNat ≥ modulo.toNat then mod a modulo else some a) = some (a % modulo) := by
  by_cases large : a.toNat ≥ modulo.toNat
  · rw [if_pos large, mod_eq nonzero]
  · rw [if_neg large]
    refine congrArg some (BitVec.eq_of_toNat_eq ?_)
    rw [BitVec.toNat_umod, Nat.mod_eq_of_lt (Nat.lt_of_not_le large)]

theorem addMod_eq (nonzero : modulo ≠ 0) :
    addMod a b modulo = some (BitVec.ofNat 256 ((a.toNat + b.toNat) % modulo.toNat)) := by
  have positive := Nat.pos_of_ne_zero (toNat_ne_zero nonzero)
  have ran := @addModReduced_eq modulo (a % modulo) (b % modulo)
    (by rw [BitVec.toNat_umod]; exact Nat.mod_lt _ positive)
    (by rw [BitVec.toNat_umod]; exact Nat.mod_lt _ positive)
  rw [BitVec.toNat_umod, BitVec.toNat_umod, ← Nat.add_mod] at ran
  rw [addMod, if_neg nonzero]
  dsimp only
  rw [bind_either, reduced_eq nonzero, Option.bind_some, bind_either, reduced_eq nonzero,
    Option.bind_some]
  exact ran

end Sums

/-! ## Moduli near the power of two -/

section NearPower

variable {modulus complement : Nat}

/-- A multiple of the power of two goes over to the complement. -/
theorem fold_mod (whole : modulus + complement = 2 ^ 256) (word : Nat) :
    (truncate 256 word + shr word 256 * complement) % modulus = word % modulus := by
  have split := truncate_add_shr 256 word
  have same : truncate 256 word + shr word 256 * complement + modulus * shr word 256 = word := by
    rw [Nat.mul_comm modulus, Nat.add_assoc, ← Nat.mul_add, Nat.add_comm complement, whole,
      Nat.mul_comm]
    exact split
  conv_rhs => rw [← same, Nat.add_mul_mod_self_left]

theorem pow_320 : 2 ^ 320 = 2 ^ 256 * 2 ^ 64 := by rw [← pow_add]

theorem carry_lt {reduced : Nat} (bounded : reduced < 2 ^ 320) : shr reduced 256 < 2 ^ 64 := by
  rw [pow_320] at bounded
  rw [shr, Nat.div_lt_iff_lt_mul (Nat.two_pow_pos 256), Nat.mul_comm]
  exact bounded

theorem fold_step (fits : complement < 2 ^ 64) {fuel reduced : Nat} (bounded : reduced < 2 ^ 320) :
    foldHigh complement (fuel + 1) reduced =
      if shr reduced 256 = 0 then some reduced
      else foldHigh complement fuel (truncate 256 reduced + shr reduced 256 * complement) := by
  have folded : shr reduced 256 * complement < 2 ^ 64 * 2 ^ 64 :=
    Nat.mul_lt_mul'' (carry_lt bounded) fits
  have low := truncate_lt 256 reduced
  rw [foldHigh]
  by_cases none : shr reduced 256 = 0
  · rw [if_neg (not_not.mpr none), if_pos none]
  · rw [if_pos none, if_neg none, castTrap_eq (carry_lt bounded), Option.bind_eq_bind,
      Option.bind_some, mulTrap_eq (by omega), Option.bind_some, addTrap_eq (by omega),
      Option.bind_some]

theorem lt_of_shr_zero {word : Nat} (none : shr word 256 = 0) : word < 2 ^ 256 := by
  rw [shr] at none
  omega

/-- After two folds there is nothing above 256 bits. -/
theorem foldHigh_eq (whole : modulus + complement = 2 ^ 256) (fits : complement < 2 ^ 64)
    {reduced : Nat} (bounded : reduced < 2 ^ 320) (fuel : Nat) :
    ∃ result, foldHigh complement (fuel + 3) reduced = some result ∧ result < 2 ^ 256 ∧
      result % modulus = reduced % modulus := by
  rw [fold_step fits bounded]
  by_cases none : shr reduced 256 = 0
  · rw [if_pos none]
    exact ⟨reduced, rfl, lt_of_shr_zero none, rfl⟩
  rw [if_neg none]
  have folded : shr reduced 256 * complement < 2 ^ 64 * 2 ^ 64 :=
    Nat.mul_lt_mul'' (carry_lt bounded) fits
  have low := truncate_lt 256 reduced
  have once := fold_mod whole reduced
  generalize shr reduced 256 * complement = product at *
  obtain ⟨first, first_eq⟩ : ∃ first, truncate 256 reduced + product = first := ⟨_, rfl⟩
  rw [first_eq] at once ⊢
  have firstFits : first < 2 ^ 256 + 2 ^ 128 := by omega
  rw [fold_step fits (Nat.lt_trans firstFits (pow_320 ▸ by decide))]
  by_cases done : shr first 256 = 0
  · rw [if_pos done]
    exact ⟨first, rfl, lt_of_shr_zero done, once⟩
  rw [if_neg done]
  have twice := fold_mod whole first
  have carry : shr first 256 = 1 := by
    rw [shr] at done ⊢
    omega
  have rest : truncate 256 first < 2 ^ 128 := by
    rw [shr] at carry
    rw [truncate]
    omega
  rw [carry, Nat.one_mul] at twice ⊢
  have second : truncate 256 first + complement < 2 ^ 256 := by omega
  have stops : shr (truncate 256 first + complement) 256 = 0 := Nat.div_eq_of_lt second
  rw [fold_step fits (Nat.lt_trans second (pow_320 ▸ by decide)), if_pos stops]
  exact ⟨_, rfl, second, twice.trans once⟩

theorem mulModNearPowerOfTwo_eq (whole : modulus + complement = 2 ^ 256) (fits : complement < 2 ^ 64)
    {lhs rhs : Nat} (lhsFits : lhs < 2 ^ 256) (rhsFits : rhs < 2 ^ 256) (fuel : Nat) :
    mulModNearPowerOfTwo (fuel + 3) lhs rhs modulus complement = some (lhs * rhs % modulus) := by
  have product : lhs * rhs < 2 ^ 256 * 2 ^ 256 := Nat.mul_lt_mul'' lhsFits rhsFits
  rw [← pow_add] at product
  have high : shr (lhs * rhs) 256 < 2 ^ 256 := @shr_lt 256 (lhs * rhs) 256 product
  have low := truncate_lt 256 (lhs * rhs)
  have once := fold_mod whole (lhs * rhs)
  have folded : shr (lhs * rhs) 256 * complement ≤ (2 ^ 256 - 1) * (2 ^ 64 - 1) :=
    Nat.mul_le_mul (by omega) (by omega)
  have sum : truncate 256 (lhs * rhs) + shr (lhs * rhs) 256 * complement < 2 ^ 320 := by
    rw [pow_320]
    omega
  have foldedFits := Nat.lt_of_le_of_lt (Nat.le_add_left _ _) sum
  obtain ⟨result, ran, small, same⟩ := foldHigh_eq whole fits sum fuel
  rw [mulModNearPowerOfTwo, mulTrap_eq product, Option.bind_eq_bind, Option.bind_some,
    truncate_eq high, mulTrap_eq foldedFits, Option.bind_some, addTrap_eq sum,
    Option.bind_some, ran, Option.bind_some, castTrap_eq small, Option.bind_some, ← once, ← same]
  -- one subtraction is enough for a modulus above half
  by_cases large : result ≥ modulus
  · rw [if_pos large, subWrap_eq large small, Nat.mod_eq_sub_mod large, Nat.mod_eq_of_lt (by omega)]
    rfl
  · rw [if_neg large, Nat.mod_eq_of_lt (Nat.lt_of_not_le large)]
    rfl

end NearPower

/-! ## The product -/

section Product

variable {lhs rhs out : Limbs} {i index carry whole : Nat}

/-- Eight limbs. -/
structure Wide (limbs : Limbs) : Prop where
  length : limbs.length = 8
  small : ∀ place < 8, limb limbs place < 2 ^ 64

theorem Wide.holds (wide : Wide out) : Holds out 8 := ⟨Nat.le_of_eq wide.length.symm, wide.small⟩

theorem Wide.put (wide : Wide out) {place digit : Nat} (small : digit < 2 ^ 64) :
    Wide (out.set place digit) where
  length := by rw [List.length_set, wide.length]
  small away within := by
    by_cases same : place = away
    · rw [← same, limb_set_same (by rw [wide.length]; omega)]
      exact small
    · rw [limb_set_other same]
      exact wide.small away within

theorem limb_sum_lt {left right held carry : Nat} (leftFits : left < 2 ^ 64) (rightFits : right < 2 ^ 64)
    (heldFits : held < 2 ^ 64) (carryFits : carry < 2 ^ 64) :
    left * right < 2 ^ 128 ∧ held + left * right < 2 ^ 128 ∧
      held + left * right + carry < 2 ^ (64 + 64) := by
  have product : left * right ≤ (2 ^ 64 - 1) * (2 ^ 64 - 1) := Nat.mul_le_mul (by omega) (by omega)
  omega

theorem row_balance {scale base before after digit held carry carry' low left right partials : Nat}
    {offset : Nat} (put : after + held * (offset * scale) = before + low * (offset * scale))
    (invariant : before + carry * (offset * scale) = digit + left * partials * offset)
    (sum : low + base * carry' = held + left * right + carry) :
    after + carry' * (offset * (scale * base)) =
      digit + left * (partials + right * scale) * offset := by
  zify at *
  linear_combination put + invariant + offset * scale * sum

/-- A row adds a limb of one factor times the limbs of the other. -/
theorem mulRow_eq (wide : Wide out) (row : i < 4) (lhsHolds : Holds lhs 4) (rhsHolds : Holds rhs 4) :
    ∃ done, forUp 4 (mulLimb lhs rhs i) ⟨out, 0⟩ = some done ∧ Wide done.out ∧ done.carry < 2 ^ 64 ∧
      value done.out 0 8 + done.carry * (2 ^ 64) ^ (i + 4) =
        value out 0 8 + limb lhs i * value rhs 0 4 * (2 ^ 64) ^ i := by
  have initial : Wide out ∧ 0 < 2 ^ 64 ∧ value out 0 8 + 0 * (2 ^ 64) ^ (i + 0) =
      value out 0 8 + limb lhs i * value rhs 0 0 * (2 ^ 64) ^ i := by
    rw [value_zero, Nat.mul_zero, Nat.zero_mul, Nat.zero_mul]
    exact ⟨wide, Nat.two_pow_pos 64, rfl⟩
  obtain ⟨done, ran, doneWide, carryFits, balance⟩ := @forUp_rule Row (mulLimb lhs rhs i) 4 ⟨out, 0⟩
    (fun j state => Wide state.out ∧ state.carry < 2 ^ 64 ∧
      value state.out 0 8 + state.carry * (2 ^ 64) ^ (i + j) =
        value out 0 8 + limb lhs i * value rhs 0 j * (2 ^ 64) ^ i)
    initial (by
      rintro j small state ⟨wide, carryFits, balance⟩
      have inside : i + j < state.out.length := by
        rw [wide.length]
        omega
      obtain ⟨product, partialSum, sum⟩ := limb_sum_lt (lhsHolds.small i row) (rhsHolds.small j small)
        (wide.small (i + j) (by omega)) carryFits
      have put := @value_set state.out 8 (i + j)
        (truncate 64 (limb state.out (i + j) + limb lhs i * limb rhs j + state.carry)) (by omega)
        (Nat.le_of_eq wide.length.symm)
      refine ⟨⟨state.out.set (i + j)
        (truncate 64 (limb state.out (i + j) + limb lhs i * limb rhs j + state.carry)),
        shr (limb state.out (i + j) + limb lhs i * limb rhs j + state.carry) 64⟩, ?_,
        wide.put (truncate_lt 64 _), shr_lt sum, ?_⟩
      · rw [mulLimb, get_eq (Nat.lt_of_lt_of_le row lhsHolds.room),
          get_eq (Nat.lt_of_lt_of_le small rhsHolds.room), Option.bind_eq_bind, Option.bind_some,
          Option.bind_some, mulTrap_eq product, Option.bind_some, get_eq inside, Option.bind_some,
          addTrap_eq partialSum, Option.bind_some, addTrap_eq sum, Option.bind_some, put_eq inside]
        rfl
      · dsimp only
        have power : (2 ^ 64) ^ (i + (j + 1)) = (2 ^ 64) ^ i * ((2 ^ 64) ^ j * 2 ^ 64) := by
          rw [pow_add, pow_succ (2 ^ 64) j]
        rw [pow_add] at put balance
        rw [@value_succ rhs 0 j, Nat.zero_add, power]
        exact row_balance put balance (truncate_add_shr 64 _))
  exact ⟨done, ran, doneWide, carryFits, balance⟩

theorem carry_balance {scale base before after held carry carry' low : Nat}
    (put : after + held * scale = before + low * scale) (sum : low + base * carry' = held + carry) :
    after + carry' * (scale * base) = before + carry * scale := by
  zify at *
  linear_combination put + scale * sum

/-- The carry goes up until it is spent; the whole is below the end of the array. -/
theorem carryInto_eq (wide : Wide out) (carryFits : carry < 2 ^ 64)
    (total : value out 0 8 + carry * (2 ^ 64) ^ index = whole) (bounded : whole < (2 ^ 64) ^ 8) :
    ∃ done, carryInto out index carry = some done ∧ Wide done ∧ value done 0 8 = whole := by
  induction out, index, carry using carryInto.induct with
  | case1 out index =>
      rw [Nat.zero_mul, Nat.add_zero] at total
      refine ⟨out, ?_, wide, total⟩
      rw [carryInto, if_pos rfl]
  | case2 out index carry spent inside ih =>
      have place : index < 8 := wide.length ▸ inside
      have held := wide.small index place
      have digit : out[index] = limb out index := (List.getD_eq_getElem _ _ inside).symm
      have put := @value_set out 8 index (truncate 64 (limb out index + carry)) place
        (Nat.le_of_eq wide.length.symm)
      rw [carryInto, if_neg spent, dif_pos inside, digit, addTrap_eq (by omega), Option.bind_eq_bind,
        Option.bind_some]
      have small : shr (limb out index + carry) 64 < 2 ^ 64 := by
        rw [shr]
        omega
      refine ih _ (wide.put (truncate_lt 64 _)) small ?_
      rw [← total, pow_succ]
      exact carry_balance put (truncate_add_shr 64 _)
  | case3 out index carry spent outside =>
      rw [wide.length] at outside
      have far : (2 ^ 64) ^ 8 ≤ (2 ^ 64) ^ index :=
        Nat.pow_le_pow_right (Nat.two_pow_pos 64) (Nat.le_of_not_lt outside)
      have large := Nat.le_mul_of_pos_left ((2 ^ 64) ^ index) (Nat.pos_of_ne_zero spent)
      omega

theorem mulFull4_eq (lhsHolds : Holds lhs 4) (rhsHolds : Holds rhs 4) :
    ∃ product, mulFull4 lhs rhs = some product ∧ Wide product ∧
      value product 0 8 = value lhs 0 4 * value rhs 0 4 := by
  have cleared : Wide (clearLimbs 8) := ⟨rfl, fun place _ => by
    rw [clearLimbs_limb]
    exact Nat.two_pow_pos 64⟩
  have initial : Wide (clearLimbs 8) ∧
      value (clearLimbs 8) 0 8 = value lhs 0 0 * value rhs 0 4 := by
    rw [clearLimbs_value, value_zero, Nat.zero_mul]
    exact ⟨cleared, rfl⟩
  obtain ⟨product, ran, wide, exact⟩ := @forUp_rule Limbs (fun out i => do
      let row ← forUp 4 (mulLimb lhs rhs i) ⟨out, 0⟩
      carryInto row.out (i + 4) row.carry) 4 (clearLimbs 8)
    (fun i out => Wide out ∧ value out 0 8 = value lhs 0 i * value rhs 0 4)
    initial (by
      rintro i row out ⟨wide, partials⟩
      obtain ⟨done, ran, doneWide, carryFits, balance⟩ := mulRow_eq wide row lhsHolds rhsHolds
      have next : value done.out 0 8 + done.carry * (2 ^ 64) ^ (i + 4) =
          value lhs 0 (i + 1) * value rhs 0 4 := by
        rw [balance, partials, @value_succ lhs 0 i, Nat.zero_add]
        ring
      have bounded : value lhs 0 (i + 1) * value rhs 0 4 < (2 ^ 64) ^ 8 := by
        have left := (lhsHolds.mono row).value_lt
        have most : (2 ^ 64) ^ (i + 1) ≤ (2 ^ 64) ^ 4 := Nat.pow_le_pow_right (Nat.two_pow_pos 64) row
        have factors := Nat.mul_lt_mul'' (Nat.lt_of_lt_of_le left most) rhsHolds.value_lt
        rwa [← pow_add] at factors
      obtain ⟨after, carried, afterWide, whole⟩ := carryInto_eq doneWide carryFits next bounded
      refine ⟨after, ?_, afterWide, whole⟩
      rw [ran, Option.bind_eq_bind, Option.bind_some, carried])
  exact ⟨product, ran, wide, exact⟩

end Product

/-! ## The remainder of the product -/

section Reduction

variable {numerator modulo : Limbs} {numeratorLen divisorLen count : Nat}

theorem modNxMKnuth_eq (undefined : Nat) (few : numeratorLen ≤ 8) (short : divisorLen ≤ 4)
    (two : 2 ≤ divisorLen) (ordered : divisorLen ≤ numeratorLen)
    (numeratorHolds : Holds numerator numeratorLen) (moduloHolds : Holds modulo divisorLen)
    (counted : Counted modulo count divisorLen) :
    ∃ out, modNxMKnuth undefined numerator modulo numeratorLen divisorLen = some out ∧ Holds out 4 ∧
      value out 0 4 = value numerator 0 numeratorLen % value modulo 0 divisorLen := by
  have top := counted.top (by omega)
  have shiftFits := clz_lt (Nat.pos_of_ne_zero top) (by decide : 0 < 64)
  obtain ⟨operands, prepared, shifted⟩ := @operands_eq (List.replicate 4 undefined)
    (List.replicate 9 undefined) numerator modulo numeratorLen divisorLen 9
    (by rw [List.length_replicate]; exact short) (by omega)
    (by rw [List.length_replicate]; omega) two (by omega) numeratorHolds moduloHolds top
  obtain ⟨offsets, sized⟩ : ∃ offsets, numeratorLen = divisorLen + offsets :=
    ⟨numeratorLen - divisorLen, by omega⟩
  obtain ⟨done, ran, holds, remainder⟩ := reduceLoop_eq shifted.normal
    (by omega : offsets + divisorLen < numeratorLen + 1)
    (shifted.start numeratorHolds counted (by omega) sized)
  obtain ⟨out, back, outHolds, exact⟩ := shifted.finish counted short (by omega) shiftFits (by omega)
    holds remainder
  refine ⟨out, ?_, outHolds, exact⟩
  have room := moduloHolds.room
  rw [modNxMKnuth, get_eq (by omega), Option.bind_eq_bind, Option.bind_some,
    castTrap_eq (Nat.lt_of_lt_of_le shiftFits (by decide)), Option.bind_some]
  dsimp only
  rw [bind_either, prepared, Option.bind_some, subTrap_eq ordered, Option.bind_some, sized,
    Nat.add_sub_cancel_left, ran, Option.bind_eq_bind, Option.bind_some, back]

/-- The numerator itself, where it is below the modulus. -/
theorem copyBelow_eq (few : numeratorLen ≤ 4) (holds : Holds numerator numeratorLen) :
    ∃ out, forUp 4 (fun out i =>
        if i < numeratorLen then do
          let limb ← numerator.get i
          out.put i limb
        else some out) (clearLimbs 4) = some out ∧ Holds out 4 ∧
      value out 0 4 = value numerator 0 numeratorLen := by
  obtain ⟨out, ran, outHolds, -, same, zeros⟩ := @forUp_rule Limbs (fun out i =>
      if i < numeratorLen then do
        let limb ← numerator.get i
        out.put i limb
      else some out) 4 (clearLimbs 4)
    (fun i out => Holds out 4 ∧ out.length = 4 ∧
      (∀ place < min i numeratorLen, limb out place = limb numerator place) ∧
      ∀ place, min i numeratorLen ≤ place → limb out place = 0)
    (by
      refine ⟨clear_holds, rfl, fun place below => by omega, fun place _ => clearLimbs_limb 4 place⟩)
    (by
      rintro i small out ⟨outHolds, length, same, zeros⟩
      by_cases inside : i < numeratorLen
      · have has := holds.room
        refine ⟨out.set i (limb numerator i), ?_,
          ⟨by rw [List.length_set, length], fun place within => ?_⟩,
          by rw [List.length_set, length], fun place below => ?_, fun place above => ?_⟩
        · rw [if_pos inside, get_eq (by omega), Option.bind_eq_bind, Option.bind_some,
            put_eq (by omega)]
        · by_cases written : i = place
          · rw [← written, limb_set_same (by omega)]
            exact holds.small i inside
          · rw [limb_set_other written]
            exact outHolds.small place within
        · by_cases written : i = place
          · rw [← written, limb_set_same (by omega)]
          · rw [limb_set_other written]
            exact same place (by omega)
        · rw [limb_set_other (by omega)]
          exact zeros place (by omega)
      · refine ⟨out, if_neg inside, outHolds, length, fun place below => same place (by omega),
          fun place above => zeros place (by omega)⟩)
  rw [Nat.min_eq_right few] at same zeros
  refine ⟨out, ran, outHolds, ?_⟩
  have split := @Lib.number_add (2 ^ 64) 0 (limb out) numeratorLen (4 - numeratorLen)
  have above : Lib.number (2 ^ 64) (limb out) (0 + numeratorLen) (4 - numeratorLen) = 0 :=
    Lib.number_zeros fun index _ => zeros _ (by omega)
  rw [above, Nat.mul_zero, Nat.add_zero, Nat.add_sub_cancel' few] at split
  exact split.trans (value_congr fun index small => by
    rw [Nat.zero_add]
    exact same index small)

theorem mod8By4Knuth_eq (undefined : Nat) (wide : Wide numerator) (moduloHolds : Holds modulo 4)
    (nonzero : value modulo 0 4 ≠ 0) :
    ∃ out, mod8By4Knuth undefined numerator modulo = some out ∧ Holds out 4 ∧
      value out 0 4 = value numerator 0 8 % value modulo 0 4 := by
  obtain ⟨divisorLen, divisorRan, divisorCounted⟩ := countLimbs_eq moduloHolds.room
  obtain ⟨numeratorLen, ran, counted⟩ := countLimbs_eq wide.holds.room
  have numeratorShort := wide.holds.mono counted.within
  have divisorShort := moduloHolds.mono divisorCounted.within
  have divisorPos : divisorLen ≠ 0 := by
    rintro rfl
    exact nonzero (divisorCounted.value_eq.trans value_zero)
  rw [counted.value_eq, divisorCounted.value_eq]
  rw [mod8By4Knuth, divisorRan, Option.bind_eq_bind, Option.bind_some, ran, Option.bind_some]
  by_cases empty : numeratorLen = 0
  · rw [if_pos empty, empty, value_zero, Nat.zero_mod]
    exact ⟨_, rfl, clear_holds, clearLimbs_value 4 4⟩
  rw [if_neg empty, ltPrefix_eq numeratorShort divisorShort counted divisorCounted,
    Option.bind_eq_bind, Option.bind_some]
  by_cases below : value numerator 0 numeratorLen < value modulo 0 divisorLen
  · have few : numeratorLen ≤ 4 := by
      have within := divisorCounted.within
      by_contra long
      exact Nat.lt_asymm below (counted.longer divisorShort (by omega))
    obtain ⟨out, copied, outHolds, same⟩ := copyBelow_eq few numeratorShort
    rw [if_pos (decide_eq_true below), Nat.mod_eq_of_lt below]
    exact ⟨out, copied, outHolds, same⟩
  rw [if_neg (by rwa [decide_eq_true_iff])]
  have ordered : divisorLen ≤ numeratorLen := by
    by_contra shorter
    exact below (divisorCounted.longer numeratorShort (Nat.lt_of_not_le shorter))
  by_cases single : divisorLen = 1
  · subst single
    have topNonzero := divisorCounted.top Nat.one_pos
    have one : value modulo 0 1 = limb modulo 0 := by
      rw [value_succ, value_zero, pow_zero, Nat.mul_one, Nat.zero_add]
    have limbFits := divisorShort.small 0 Nat.one_pos
    have remFits := Nat.lt_trans (Nat.mod_lt (value numerator 0 numeratorLen)
      (Nat.pos_of_ne_zero topNonzero)) limbFits
    rw [one]
    refine ⟨[value numerator 0 numeratorLen % limb modulo 0, 0, 0, 0], ?_, single_holds remFits,
      single_value⟩
    rw [if_pos rfl, get_eq (Nat.lt_of_lt_of_le (by decide) moduloHolds.room), Option.bind_some,
      remLoop_eq numeratorShort limbFits (Nat.pos_of_ne_zero topNonzero)]
    rfl
  · rw [if_neg single]
    exact modNxMKnuth_eq undefined counted.within divisorCounted.within (by omega) ordered
      numeratorShort divisorShort divisorCounted

end Reduction

/-! ## Products of words -/

section Words

variable {a b modulo : BitVec 256}

theorem mulModKnuth_eq (undefined : Nat) {lhs rhs modulus : Nat} (lhsFits : lhs < 2 ^ 256)
    (rhsFits : rhs < 2 ^ 256) (fits : modulus < 2 ^ 256) (nonzero : modulus ≠ 0) :
    mulModKnuth undefined lhs rhs modulus = some (lhs * rhs % modulus) := by
  obtain ⟨product, ran, wide, exact⟩ := mulFull4_eq (toLimbs_holds lhs) (toLimbs_holds rhs)
  obtain ⟨out, reduced, holds, remainder⟩ := mod8By4Knuth_eq undefined wide (toLimbs_holds modulus)
    (by rwa [toLimbs_value fits])
  rw [exact, toLimbs_value lhsFits, toLimbs_value rhsFits, toLimbs_value fits] at remainder
  rw [mulModKnuth, ran, Option.bind_eq_bind, Option.bind_some, reduced, Option.bind_some,
    fromLimbs_eq holds, remainder]

theorem mulMod_eq (undefined fuel : Nat) (nonzero : modulo ≠ 0) :
    mulMod undefined (fuel + 3) a b modulo =
      some (BitVec.ofNat 256 (a.toNat * b.toNat % modulo.toNat)) := by
  have positive := toNat_ne_zero nonzero
  have complement := complement_toNat nonzero
  have fits := modulo.isLt
  rw [mulMod, if_neg nonzero]
  dsimp only
  by_cases near : (0 - modulo).toNat ≤ u64Max
  · rw [if_pos near]
    have small : (0 - modulo).toNat < 2 ^ 64 := by
      rw [u64Max] at near
      omega
    rw [mulModNearPowerOfTwo_eq (by omega) small a.isLt b.isLt]
    rfl
  · rw [if_neg near, mulModKnuth_eq undefined a.isLt b.isLt fits positive]
    rfl

/-- Modular sums and products agree with the integers on every path, whatever the undefined
limbs hold, and three rounds of the reducer's loop are enough. -/
theorem modularArithmetic_exact (undefined fuel : Nat) (a b modulo : BitVec 256) :
    addMod a b modulo =
      some (if modulo = 0 then 0 else BitVec.ofNat 256 ((a.toNat + b.toNat) % modulo.toNat)) ∧
    mulMod undefined (fuel + 3) a b modulo =
      some (if modulo = 0 then 0 else BitVec.ofNat 256 (a.toNat * b.toNat % modulo.toNat)) := by
  by_cases zero : modulo = 0
  · subst zero
    exact ⟨rfl, rfl⟩
  · rw [if_neg zero, if_neg zero]
    exact ⟨addMod_eq zero, mulMod_eq undefined fuel zero⟩

end Words

end EvmZig.Uint256
