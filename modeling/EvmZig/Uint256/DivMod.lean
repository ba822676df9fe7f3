import EvmZig.Uint256.Knuth

/-!
# Division on words is exact

`div`, `mod`, `sdiv` and `smod` against the integers, on every path.
-/

set_option autoImplicit false

namespace EvmZig.Uint256

open Zig

/-! ## Limb arrays -/

/-- A quotient and a remainder, each in four limbs. -/
structure Divides (done : DivMod) (quotient remainder : Nat) : Prop where
  quotient : value done.quotient 0 4 = quotient
  remainder : value done.remainder 0 4 = remainder
  quotientHolds : Holds done.quotient 4
  remainderHolds : Holds done.remainder 4

theorem Quotient.holds {quotient : Limbs} (built : Quotient 0 quotient) : Holds quotient 4 :=
  ⟨Nat.le_of_eq built.length.symm, built.small⟩

theorem clear_holds : Holds (clearLimbs 4) 4 := (Quotient.clear 0).holds

section Arrays

variable {numerator divisor : Limbs} {numeratorLen divisorLen count : Nat}

/-- Both branches go on in the same way. -/
theorem bind_either {α β : Type} {condition : Prop} [Decidable condition] {one other : Option α}
    {next : α → Option β} :
    (if condition then one >>= next else other >>= next) =
      (if condition then one else other).bind next := by
  split
  · rfl
  · rfl

theorem divModNormalized_eq (few : numeratorLen ≤ 4) (two : 2 ≤ divisorLen)
    (ordered : divisorLen ≤ numeratorLen) (numeratorHolds : Holds numerator numeratorLen)
    (divisorHolds : Holds divisor divisorLen) (counted : Counted divisor count divisorLen) :
    ∃ done, divModNormalized numerator numeratorLen divisor divisorLen = some done ∧
      Divides done (value numerator 0 numeratorLen / value divisor 0 divisorLen)
        (value numerator 0 numeratorLen % value divisor 0 divisorLen) := by
  have top := counted.top (by omega)
  have topPos := Nat.pos_of_ne_zero top
  have shiftFits := clz_lt topPos (by decide : 0 < 64)
  obtain ⟨operands, prepared, shifted⟩ := @operands_eq (clearLimbs 4) (clearLimbs 5) numerator divisor
    numeratorLen divisorLen 5 (Nat.le_trans ordered few) (by omega) (Nat.lt_succ_of_le few) two
    (by omega) numeratorHolds divisorHolds top
  obtain ⟨offsets, sized⟩ : ∃ offsets, numeratorLen = divisorLen + offsets :=
    ⟨numeratorLen - divisorLen, by omega⟩
  obtain ⟨done, ran, built, holds, quotient, remainder⟩ := divideLoop_eq shifted.normal
    (by omega : offsets + divisorLen < numeratorLen + 1) (by omega)
    (shifted.start numeratorHolds counted (by omega) sized)
  rw [shifted.divisor, Nat.mul_div_mul_right _ _ (Nat.two_pow_pos _)] at quotient
  obtain ⟨out, back, outHolds, exact⟩ := shifted.finish counted (Nat.le_trans ordered few) (by omega)
    shiftFits (by omega) holds remainder
  refine ⟨⟨done.quotient, out⟩, ?_, quotient, exact, built.holds, outHolds⟩
  have topHas := divisorHolds.room
  rw [divModNormalized, get_eq (by omega), Option.bind_eq_bind, Option.bind_some,
    castTrap_eq (Nat.lt_of_lt_of_le shiftFits (by decide)), Option.bind_some]
  dsimp only
  rw [bind_either, prepared, Option.bind_some, subTrap_eq ordered, Option.bind_some, sized,
    Nat.add_sub_cancel_left, ran, Option.bind_eq_bind, Option.bind_some, back]
  rfl

/-- Every branch divides. -/
theorem divModKnuth_eq (numeratorHolds : Holds numerator 4) (divisorHolds : Holds divisor 4)
    (nonzero : value divisor 0 4 ≠ 0) :
    ∃ done, divModKnuth numerator divisor = some done ∧
      Divides done (value numerator 0 4 / value divisor 0 4)
        (value numerator 0 4 % value divisor 0 4) := by
  obtain ⟨divisorLen, divisorRan, divisorCounted⟩ := countLimbs_eq divisorHolds.room
  obtain ⟨numeratorLen, ran, counted⟩ := countLimbs_eq numeratorHolds.room
  have numeratorShort := numeratorHolds.mono counted.within
  have divisorShort := divisorHolds.mono divisorCounted.within
  have divisorPos : divisorLen ≠ 0 := by
    rintro rfl
    exact nonzero (divisorCounted.value_eq.trans value_zero)
  rw [counted.value_eq, divisorCounted.value_eq] at *
  rw [divModKnuth, divisorRan, Option.bind_eq_bind, Option.bind_some, if_neg divisorPos, ran,
    Option.bind_eq_bind, Option.bind_some]
  by_cases empty : numeratorLen = 0
  · rw [if_pos empty, empty, value_zero, Nat.zero_div, Nat.zero_mod]
    exact ⟨_, rfl, clearLimbs_value 4 4, clearLimbs_value 4 4, clear_holds, clear_holds⟩
  rw [if_neg empty, ltPrefix_eq numeratorShort divisorShort counted divisorCounted,
    Option.bind_some]
  by_cases below : value numerator 0 numeratorLen < value divisor 0 divisorLen
  · rw [if_pos (decide_eq_true below), Nat.div_eq_of_lt below, Nat.mod_eq_of_lt below]
    exact ⟨_, rfl, clearLimbs_value 4 4, counted.value_eq, clear_holds, numeratorHolds⟩
  rw [if_neg (by rwa [decide_eq_true_iff])]
  have ordered : divisorLen ≤ numeratorLen := by
    by_contra shorter
    exact below (divisorCounted.longer numeratorShort (Nat.lt_of_not_le shorter))
  by_cases single : divisorLen = 1
  · subst single
    have topNonzero := divisorCounted.top Nat.one_pos
    have one : value divisor 0 1 = limb divisor 0 := by
      rw [value_succ, value_zero, pow_zero, Nat.mul_one, Nat.zero_add]
    obtain ⟨done, ranSingle, built, holds, quotient, remainder⟩ := divModSingleLimb_eq counted.within
      numeratorShort (divisorShort.small 0 Nat.one_pos) (Nat.pos_of_ne_zero topNonzero)
    rw [one]
    refine ⟨done, ?_, quotient, remainder, built.holds, holds⟩
    rw [if_pos rfl, get_eq (Nat.lt_of_lt_of_le (by decide) divisorHolds.room), Option.bind_some,
      ranSingle]
  · rw [if_neg single]
    exact divModNormalized_eq counted.within (by omega) ordered numeratorShort divisorShort
      divisorCounted

end Arrays

/-! ## Words as limbs -/

theorem toLimbs_holds (word : Nat) : Holds (toLimbs word) 4 := by
  refine ⟨Nat.le_refl 4, fun place small => ?_⟩
  rcases place with _ | _ | _ | _ | place
  · exact truncate_lt _ _
  · exact truncate_lt _ _
  · exact truncate_lt _ _
  · exact truncate_lt _ _
  · omega

theorem value_four (limbs : Limbs) :
    value limbs 0 4 = limb limbs 0 + limb limbs 1 * 2 ^ 64 + limb limbs 2 * 2 ^ 128 +
      limb limbs 3 * 2 ^ 192 := by
  rw [value_succ, value_succ, value_succ, value_succ, value_zero, pow_zero, pow_one, ← pow_mul,
    ← pow_mul, Nat.mul_one, Nat.zero_add]

theorem toLimbs_value {word : Nat} (fits : word < 2 ^ 256) : value (toLimbs word) 0 4 = word := by
  rw [value_four]
  change truncate 64 word + truncate 64 (shr word 64) * 2 ^ 64 +
    truncate 64 (shr word 128) * 2 ^ 128 + truncate 64 (shr word 192) * 2 ^ 192 = word
  rw [truncate, truncate, truncate, truncate, shr, shr, shr]
  omega

theorem or_shl {low limb amount : Nat} (lowFits : low < 2 ^ amount)
    (fits : limb * 2 ^ amount < 2 ^ 256) : low ||| shl 256 limb amount = low + limb * 2 ^ amount := by
  rw [shl, truncate_eq fits, Nat.or_comm, Nat.mul_comm, Nat.add_comm]
  exact (Nat.two_pow_add_eq_or_of_lt lowFits limb).symm

theorem fromLimbs_eq {limbs : Limbs} (holds : Holds limbs 4) :
    fromLimbs limbs = some (value limbs 0 4) := by
  have room := holds.room
  have fits0 := holds.small 0 (by decide)
  have fits1 := holds.small 1 (by decide)
  have fits2 := holds.small 2 (by decide)
  have fits3 := holds.small 3 (by decide)
  have second := @or_shl (limb limbs 0 + limb limbs 1 * 2 ^ 64) (limb limbs 2) 128 (by omega) (by omega)
  have third := @or_shl (limb limbs 0 + limb limbs 1 * 2 ^ 64 + limb limbs 2 * 2 ^ 128)
    (limb limbs 3) 192 (by omega) (by omega)
  rw [fromLimbs, get_eq (by omega), get_eq (by omega), get_eq (by omega), get_eq (by omega),
    Option.bind_eq_bind, Option.bind_some, Option.bind_some, Option.bind_some, Option.bind_some,
    or_shl fits0 (by omega), second, third, value_four]
  rfl

/-! ## Words -/

section Words

variable {a b : BitVec 256}

theorem knuth_eq {word denominator : Nat} (fits : word < 2 ^ 256)
    (denominatorFits : denominator < 2 ^ 256)
    (nonzero : denominator ≠ 0) :
    divKnuth word denominator = some (word / denominator) ∧
      modKnuth word denominator = some (word % denominator) := by
  obtain ⟨done, ran, divides⟩ := divModKnuth_eq (toLimbs_holds word) (toLimbs_holds denominator)
    (by rwa [toLimbs_value denominatorFits])
  have quotient := fromLimbs_eq divides.quotientHolds
  have remainder := fromLimbs_eq divides.remainderHolds
  rw [divides.quotient, toLimbs_value fits, toLimbs_value denominatorFits] at quotient
  rw [divides.remainder, toLimbs_value fits, toLimbs_value denominatorFits] at remainder
  constructor
  · rw [divKnuth, ran, Option.bind_eq_bind, Option.bind_some, quotient]
  · rw [modKnuth, ran, Option.bind_eq_bind, Option.bind_some, remainder]

/-- Both words fit in a limb. -/
theorem both_short (short : (a ||| b).toNat ≤ u64Max) :
    truncate 64 a.toNat = a.toNat ∧ truncate 64 b.toNat = b.toNat := by
  have joined : a.toNat ||| b.toNat ≤ u64Max := by rwa [BitVec.toNat_or] at short
  rw [u64Max] at joined
  have left : a.toNat ≤ a.toNat ||| b.toNat := Nat.left_le_or
  have right : b.toNat ≤ a.toNat ||| b.toNat := Nat.right_le_or
  exact ⟨truncate_eq (by omega), truncate_eq (by omega)⟩

theorem toNat_ne_zero (nonzero : b ≠ 0) : b.toNat ≠ 0 := fun zero =>
  nonzero (BitVec.eq_of_toNat_eq zero)

theorem div_eq (nonzero : b ≠ 0) : div a b = some (a / b) := by
  have quotient : BitVec.ofNat 256 (a.toNat / b.toNat) = a / b := by
    rw [← BitVec.toNat_udiv, BitVec.ofNat_toNat, BitVec.setWidth_eq]
  have divisor := toNat_ne_zero nonzero
  rw [div, if_neg nonzero]
  by_cases short : (a ||| b).toNat ≤ u64Max
  · obtain ⟨left, right⟩ := both_short short
    rw [if_pos short, left, right, divTrap_eq (Nat.pos_of_ne_zero divisor), ← quotient]
    rfl
  · rw [if_neg short, (knuth_eq a.isLt b.isLt divisor).1, ← quotient]
    rfl

theorem mod_eq (nonzero : b ≠ 0) : mod a b = some (a % b) := by
  have remainder : BitVec.ofNat 256 (a.toNat % b.toNat) = a % b := by
    rw [← BitVec.toNat_umod, BitVec.ofNat_toNat, BitVec.setWidth_eq]
  have divisor := toNat_ne_zero nonzero
  rw [mod, if_neg nonzero]
  by_cases short : (a ||| b).toNat ≤ u64Max
  · obtain ⟨left, right⟩ := both_short short
    rw [if_pos short, left, right, remTrap_eq (Nat.pos_of_ne_zero divisor), ← remainder]
    rfl
  · rw [if_neg short, (knuth_eq a.isLt b.isLt divisor).2, ← remainder]
    rfl

/-! ## Signed words -/

theorem signedMagnitude_eq (word : BitVec 256) :
    signedMagnitude word = if word.msb then -word else word := by
  rw [signedMagnitude, BitVec.msb_eq_toInt, BitVec.neg_eq_not_add]
  by_cases negative : word.toInt < 0
  · rw [if_neg (Int.not_le.mpr negative), if_pos (decide_eq_true negative)]
    rfl
  · rw [if_pos (Int.not_lt.mp negative), if_neg (by rwa [decide_eq_true_iff])]

theorem signedMagnitude_ne_zero (nonzero : b ≠ 0) : signedMagnitude b ≠ 0 := by
  rw [signedMagnitude_eq]
  split
  · exact fun zero => nonzero (BitVec.neg_eq_zero_iff.mp zero)
  · exact nonzero

theorem sdiv_eq (nonzero : b ≠ 0) : sdiv a b = some (BitVec.ofInt 256 (a.toInt.tdiv b.toInt)) := by
  have exact : a.sdiv b = BitVec.ofInt 256 (a.toInt.tdiv b.toInt) := by
    apply BitVec.eq_of_toInt_eq
    rw [BitVec.toInt_sdiv, BitVec.toInt_ofInt]
  rw [sdiv, if_neg nonzero, div_eq (signedMagnitude_ne_zero nonzero), ← exact, signedMagnitude_eq,
    signedMagnitude_eq, ← BitVec.msb_eq_toInt, ← BitVec.msb_eq_toInt, BitVec.sdiv_eq]
  cases a.msb with
  | false =>
      cases b.msb with
      | false => rfl
      | true => exact congrArg some (BitVec.zero_sub _)
  | true =>
      cases b.msb with
      | false => exact congrArg some (BitVec.zero_sub _)
      | true => rfl

theorem smod_eq (nonzero : b ≠ 0) : smod a b = some (BitVec.ofInt 256 (a.toInt.tmod b.toInt)) := by
  have exact : a.srem b = BitVec.ofInt 256 (a.toInt.tmod b.toInt) := by
    rw [← BitVec.toInt_srem, BitVec.ofInt_toInt]
  rw [smod, if_neg nonzero, mod_eq (signedMagnitude_ne_zero nonzero), ← exact, signedMagnitude_eq,
    signedMagnitude_eq, BitVec.srem_eq]
  have sign := @BitVec.msb_eq_toInt 256 a
  cases negative : a.msb with
  | false =>
      rw [negative] at sign
      rw [Option.bind_eq_bind, Option.bind_some, if_neg (of_decide_eq_false sign.symm)]
      cases b.msb with
      | false => rfl
      | true => rfl
  | true =>
      rw [negative] at sign
      rw [Option.bind_eq_bind, Option.bind_some, if_pos (of_decide_eq_true sign.symm)]
      cases b.msb with
      | false => exact congrArg some (BitVec.zero_sub _)
      | true => exact congrArg some (BitVec.zero_sub _)

/-- Division agrees with the integers on every pair of words, and each step of the loops finds
the digit, through the correction of its estimate or the addition of the divisor. -/
theorem division_exact (a b : BitVec 256) :
    div a b = some (if b = 0 then 0 else BitVec.ofNat 256 (a.toNat / b.toNat)) ∧
    mod a b = some (if b = 0 then 0 else BitVec.ofNat 256 (a.toNat % b.toNat)) ∧
    sdiv a b = some (if b = 0 then 0 else BitVec.ofInt 256 (a.toInt.tdiv b.toInt)) ∧
    smod a b = some (if b = 0 then 0 else BitVec.ofInt 256 (a.toInt.tmod b.toInt)) ∧
    ∀ (u divisor : Limbs) (divisorLen offset : Nat), Normalized divisor divisorLen →
      Window u divisor divisorLen offset →
      ∃ digit, divideAt divisor divisorLen u offset = some digit ∧
        digit.qhat = value u offset (divisorLen + 1) / value divisor 0 divisorLen ∧
        value digit.u offset (divisorLen + 1) =
          value u offset (divisorLen + 1) % value divisor 0 divisorLen ∧
        ∀ place, place < offset ∨ offset + (divisorLen + 1) ≤ place →
          limb digit.u place = limb u place := by
  have digits : ∀ (u divisor : Limbs) (divisorLen offset : Nat), Normalized divisor divisorLen →
      Window u divisor divisorLen offset →
      ∃ digit, divideAt divisor divisorLen u offset = some digit ∧
        digit.qhat = value u offset (divisorLen + 1) / value divisor 0 divisorLen ∧
        value digit.u offset (divisorLen + 1) =
          value u offset (divisorLen + 1) % value divisor 0 divisorLen ∧
        ∀ place, place < offset ∨ offset + (divisorLen + 1) ≤ place →
          limb digit.u place = limb u place := by
    intro u divisor divisorLen offset normal window
    obtain ⟨digit, ran, quotient, rewrites, rest⟩ := divideAt_eq normal window
    exact ⟨digit, ran, quotient, rest, rewrites.same⟩
  by_cases zero : b = 0
  · subst zero
    exact ⟨rfl, rfl, rfl, rfl, digits⟩
  · rw [if_neg zero, if_neg zero, if_neg zero, if_neg zero, div_eq zero, mod_eq zero, sdiv_eq zero,
      smod_eq zero, ← BitVec.toNat_udiv, ← BitVec.toNat_umod, BitVec.ofNat_toNat, BitVec.ofNat_toNat,
      BitVec.setWidth_eq, BitVec.setWidth_eq]
    exact ⟨rfl, rfl, rfl, rfl, digits⟩

end Words

end EvmZig.Uint256
