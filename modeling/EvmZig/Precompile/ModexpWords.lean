import EvmZig.Precompile.ModexpMontgomery

/-!
# The word path

A modulus is an odd part times a power of two; the two results recombine to the
one below their product.
-/

set_option autoImplicit false

namespace EvmZig.Modexp

open Zig Uint256 Lib

/-! ## Powers of two -/

theorem powMod2k_eq {bits shift : Nat} (within : shift ≤ bits) (base : Nat)
    (exponentBytes : List UInt8) :
    powMod2k bits base exponentBytes (2 ^ shift - 1) =
      some (base ^ beValue exponentBytes % 2 ^ shift) := by
  have masked : ∀ value, mulWrap bits value 1 &&& (2 ^ shift - 1) = value % 2 ^ shift := by
    intro value
    rw [mulWrap, Nat.mul_one, truncate, Nat.and_two_pow_sub_one_eq_mod,
      Nat.mod_mod_of_dvd _ (pow_dvd_pow 2 within)]
  have product : ∀ left right, mulWrap bits left right &&& (2 ^ shift - 1) =
      left * right % 2 ^ shift := by
    intro left right
    rw [← masked, mulWrap, mulWrap, Nat.mul_one]
  have climbs : Climbs total (fun result exponent => result = base ^ exponent % 2 ^ shift)
      (fun result => some (mulWrap bits result result &&& (2 ^ shift - 1)))
      (fun result => some (mulWrap bits result base &&& (2 ^ shift - 1)))
      (some (base &&& (2 ^ shift - 1))) := by
    refine ⟨⟨_, rfl, ?_⟩, ?_, ?_⟩
    · rw [Nat.and_two_pow_sub_one_eq_mod, pow_one]
    · rintro _ exponent rfl
      refine ⟨_, rfl, ?_⟩
      rw [product, Nat.two_mul, pow_add, ← Nat.mul_mod]
    · rintro _ exponent rfl
      refine ⟨_, rfl, ?_⟩
      rw [product, pow_succ, Nat.mod_mul_mod]
  have one : 1 &&& (2 ^ shift - 1) = base ^ 0 % 2 ^ shift := by
    rw [Nat.and_two_pow_sub_one_eq_mod, pow_zero]
  obtain ⟨result, ran, power⟩ := ladder_meets climbs one exponentBytes
  rw [powMod2k, ran, power]

theorem ctz_eq {bits value : Nat} (positive : 0 < value) (fits : value < 2 ^ bits) :
    ctz bits value < bits ∧ 2 ^ ctz bits value * (value / 2 ^ ctz bits value) = value ∧
      value / 2 ^ ctz bits value % 2 = 1 := by
  induction bits generalizing value with
  | zero =>
      rw [pow_zero] at fits
      omega
  | succ bits ih =>
      rw [ctz]
      by_cases even : value % 2 = 0
      · rw [if_pos even]
        obtain ⟨below, whole, odd⟩ := @ih (value / 2) (by omega) (by rw [pow_succ] at fits; omega)
        rw [pow_succ', ← Nat.div_div_eq_div_mul]
        refine ⟨Nat.succ_lt_succ below, ?_, odd⟩
        rw [Nat.mul_assoc, whole]
        omega
      · rw [if_neg even, pow_zero, Nat.div_one, Nat.one_mul]
        exact ⟨Nat.succ_pos _, rfl, by omega⟩

/-! ## Reduction bit by bit -/

section Reduction

variable {bits value modulus : Nat}

theorem shl_or_bit {remainder bit : Nat} (fits : remainder * 2 < 2 ^ bits) (small : bit < 2) :
    shl bits remainder 1 ||| bit = 2 * remainder + bit := by
  have placed : shl bits remainder 1 = 2 ^ 1 * remainder := by
    rw [shl, pow_one, truncate_eq fits, Nat.mul_comm]
  rw [placed, ← Nat.two_pow_add_eq_or_of_lt (by rwa [pow_one])]

theorem reduceBits_eq (wide : 0 < bits) (positive : 0 < modulus) (fits : modulus < 2 ^ bits)
    (valueFits : value < 2 ^ 256) : reduceBits bits value modulus = some (value % modulus) := by
  have room := two_mul_le_double wide fits
  have none : 0 = value / 2 ^ 256 % modulus := by
    rw [Nat.div_eq_of_lt valueFits, Nat.zero_mod]
  obtain ⟨remainder, ran, exact⟩ := @forDown_rule _ (fun remainder index =>
      reduceWidened bits (shl (2 * bits) remainder 1 ||| truncate 1 (shr value index)) modulus) 256 0
    (fun index remainder => remainder = value / 2 ^ index % modulus) none (by
      rintro index _ _ rfl
      have small := Nat.mod_lt (value / 2 ^ (index + 1)) positive
      have bit : truncate 1 (shr value index) < 2 := truncate_lt 1 _
      rw [shl_or_bit (by omega) bit]
      obtain ⟨reduced, ran, less, same⟩ := @reduceWidened_eq bits modulus
        (2 * (value / 2 ^ (index + 1) % modulus) + truncate 1 (shr value index)) (Nat.le_of_lt fits)
        (by omega)
      refine ⟨reduced, ran, ?_⟩
      have split : 2 * (value / 2 ^ (index + 1)) + truncate 1 (shr value index) = value / 2 ^ index := by
        rw [pow_succ, ← Nat.div_div_eq_div_mul, truncate, shr, pow_one, Nat.div_add_mod]
      have raised := ((Nat.mod_modEq (value / 2 ^ (index + 1)) modulus).mul_left 2).add_right
        (truncate 1 (shr value index))
      rw [split] at raised
      rw [← Nat.mod_eq_of_lt less]
      exact same.trans raised)
  rw [pow_zero, Nat.div_one] at exact
  rw [reduceBits, ran, exact]

theorem reduceU256_eq (wide : 0 < bits) (positive : 0 < modulus) (fits : modulus < 2 ^ bits)
    (valueFits : value < 2 ^ 256) : reduceU256 bits value modulus = some (value % modulus) := by
  rw [reduceU256]
  split
  · split
    · next below => rw [Nat.mod_eq_of_lt below]
    · exact reduceBits_eq wide positive fits valueFits
  · split
    · next below => rw [Nat.mod_eq_of_lt below.2]
    · exact reduceBits_eq wide positive fits valueFits

end Reduction

/-! ## Recombination -/

section Recombination

variable {bits shift odd oddResult pow2Result : Nat}

theorem diffMod_eq {other : Nat} (room : 2 * odd ≤ 2 ^ bits) (oddFits : oddResult < odd)
    (otherFits : other < odd) :
    ∃ diff, diffMod bits oddResult other odd = some diff ∧ diff < odd ∧
      diff + other ≡ oddResult [MOD odd] := by
  rw [diffMod]
  by_cases ordered : oddResult ≥ other
  · rw [if_pos ordered]
    refine ⟨_, subTrap_eq ordered, by omega, ?_⟩
    rw [Nat.sub_add_cancel ordered]
  · rw [if_neg ordered]
    refine ⟨oddResult + odd - other, ?_, by omega, ?_⟩
    · rw [addTrap_eq (by omega), Option.bind_eq_bind, Option.bind_some, subTrap_eq (by omega)]
    · rw [Nat.sub_add_cancel (by omega)]
      exact Nat.add_modEq_right

/-- A halving is exact modulo an odd number. -/
theorem half_eq {h : Nat} (oddOdd : odd % 2 = 1) (room : 2 * odd ≤ 2 ^ bits) (fits : h < odd) :
    ∃ half, addTrap bits (shr h 1) (if h &&& 1 ≠ 0 then shr odd 1 + 1 else 0) = some half ∧
      half < odd ∧ 2 * half ≡ h [MOD odd] := by
  rw [Nat.and_one_is_mod, shr, shr, pow_one]
  by_cases even : h % 2 = 0
  · rw [if_neg (not_not.mpr even)]
    refine ⟨_, addTrap_eq (by omega), by omega, ?_⟩
    have whole : 2 * (h / 2 + 0) = h := by omega
    rw [whole]
  · rw [if_pos even]
    refine ⟨_, addTrap_eq (by omega), by omega, ?_⟩
    have whole : 2 * (h / 2 + (odd / 2 + 1)) = h + odd := by omega
    rw [whole]
    exact Nat.add_modEq_right

theorem halve_eq {diff : Nat} (oddOdd : odd % 2 = 1) (room : 2 * odd ≤ 2 ^ bits) (fits : diff < odd) :
    ∃ h, halve bits shift odd diff = some h ∧ h < odd ∧ 2 ^ shift * h ≡ diff [MOD odd] := by
  have stepFits : shr odd 1 + 1 < 2 ^ bits := by
    rw [shr, pow_one]
    omega
  obtain ⟨h, ran, less, same⟩ := @forUp_rule _
    (fun h _ => addTrap bits (shr h 1) (if h &&& 1 ≠ 0 then shr odd 1 + 1 else 0)) shift diff
    (fun index h => h < odd ∧ 2 ^ index * h ≡ diff [MOD odd])
    ⟨fits, by rw [pow_zero, Nat.one_mul]⟩ (by
      rintro index _ h ⟨small, same⟩
      obtain ⟨half, ran, halfFits, doubled⟩ := half_eq oddOdd room small
      refine ⟨half, ran, halfFits, ?_⟩
      rw [pow_succ, Nat.mul_assoc]
      exact (doubled.mul_left _).trans same)
  refine ⟨h, ?_, less, same⟩
  rw [halve, addTrap_eq stepFits, Option.bind_eq_bind, Option.bind_some, ran]

/-- The number below the product with both residues. -/
theorem recombine_eq (oddOdd : odd % 2 = 1) (shifted : 0 < shift) (fits : 2 ^ shift * odd < 2 ^ bits)
    (oddFits : oddResult < odd) (pow2Fits : pow2Result < 2 ^ shift) :
    ∃ result, recombine bits shift odd oddResult pow2Result = some result ∧
      result < 2 ^ shift * odd ∧ result ≡ pow2Result [MOD 2 ^ shift] ∧
      result ≡ oddResult [MOD odd] := by
  have positive : 0 < odd := by omega
  have two : 2 ^ 1 ≤ 2 ^ shift := Nat.pow_le_pow_right (by decide) shifted
  have room : 2 * odd ≤ 2 ^ bits := Nat.le_trans (Nat.mul_le_mul_right odd two) (Nat.le_of_lt fits)
  obtain ⟨diff, subtracted, diffFits, difference⟩ :=
    diffMod_eq room oddFits (Nat.mod_lt pow2Result positive)
  obtain ⟨h, halved, hFits, exact⟩ := @halve_eq bits shift odd diff oddOdd room diffFits
  have bound : pow2Result + 2 ^ shift * h < 2 ^ shift * odd := by
    calc pow2Result + 2 ^ shift * h < 2 ^ shift + 2 ^ shift * h := Nat.add_lt_add_right pow2Fits _
      _ = 2 ^ shift * (h + 1) := by ring
      _ ≤ 2 ^ shift * odd := Nat.mul_le_mul_left _ hFits
  have placed : shl bits h shift = 2 ^ shift * h := by
    rw [shl, Nat.mul_comm]
    exact truncate_eq (by omega)
  refine ⟨pow2Result + 2 ^ shift * h, ?_, bound, ?_, ?_⟩
  · rw [recombine, remTrap_eq positive, Option.bind_eq_bind, Option.bind_some, subtracted,
      Option.bind_some, halved, Option.bind_some, placed, addTrap_eq (by omega)]
  · rw [Nat.ModEq, Nat.add_mul_mod_self_left]
  · calc pow2Result + 2 ^ shift * h ≡ pow2Result % odd + diff [MOD odd] :=
          (Nat.mod_modEq pow2Result odd).symm.add exact
      _ = diff + pow2Result % odd := Nat.add_comm _ _
      _ ≡ oddResult [MOD odd] := difference

end Recombination

/-! ## Words -/

section Words

variable {bits modulus base : Nat}

theorem truncate_masked {shift : Nat} (within : shift ≤ bits) :
    truncate bits (base &&& (2 ^ shift - 1)) = base % 2 ^ shift := by
  rw [Nat.and_two_pow_sub_one_eq_mod]
  exact truncate_eq (Nat.lt_of_lt_of_le (Nat.mod_lt _ (Nat.two_pow_pos shift))
    (Nat.pow_le_pow_right (by decide) within))

/-- The word path is exact for every nonzero modulus of the width. -/
theorem modexpWords_eq (narrow : bits ≤ 256) (positive : 0 < modulus) (fits : modulus < 2 ^ bits)
    (baseFits : base < 2 ^ 256) (exponentBytes : List UInt8) :
    modexpWords bits modulus base exponentBytes =
      some (base ^ beValue exponentBytes % modulus) := by
  obtain ⟨shiftFits, whole, oddOdd⟩ := ctz_eq positive fits
  rw [modexpWords, assert_true (Nat.ne_of_gt positive), Option.bind_eq_bind, Option.bind_some,
    shiftAmount, if_pos shiftFits, Option.bind_eq_bind, Option.bind_some]
  dsimp only
  rw [shr]
  generalize ctz bits modulus = shift at *
  generalize oddEq : modulus / 2 ^ shift = odd at *
  have within := Nat.le_of_lt shiftFits
  have wide : 0 < bits := Nat.lt_of_le_of_lt (Nat.zero_le _) shiftFits
  by_cases one : odd = 1
  · have power : 2 ^ shift = modulus := by rw [← whole, one, Nat.mul_one]
    have mask : modulus - Nat.succ 0 = 2 ^ shift - 1 := by rw [power]
    rw [if_pos one, subTrap_eq positive, Option.bind_some, mask, ← power, truncate_masked
      within, powMod2k_eq within, ← Nat.pow_mod]
  · have oddPositive : 0 < odd := by omega
    have oddLe : odd ≤ modulus := by
      rw [← oddEq]
      exact Nat.div_le_self _ _
    have oddFits : odd < 2 ^ bits := Nat.lt_of_le_of_lt oddLe fits
    rw [if_neg one, reduceU256_eq wide oddPositive oddFits baseFits, Option.bind_some,
      montPow_eq wide narrow oddFits oddOdd (Nat.mod_lt base oddPositive), Option.bind_some,
      ← Nat.pow_mod]
    by_cases none : shift = 0
    · rw [none, pow_zero, Nat.one_mul] at whole
      rw [if_pos none, whole]
      rfl
    · have mask : shl bits 1 shift = 2 ^ shift := by
        rw [shl, Nat.one_mul]
        exact truncate_eq (Nat.pow_lt_pow_right (by decide) shiftFits)
      obtain ⟨result, ran, small, low, high⟩ := @recombine_eq bits shift odd
        (base ^ beValue exponentBytes % odd) (base ^ beValue exponentBytes % 2 ^ shift) oddOdd
        (Nat.pos_of_ne_zero none) (by rwa [whole]) (Nat.mod_lt _ oddPositive)
        (Nat.mod_lt _ (Nat.two_pow_pos shift))
      rw [if_neg none, mask, subTrap_eq (Nat.two_pow_pos shift), Option.bind_some,
        truncate_masked within, powMod2k_eq within, ← Nat.pow_mod, Option.bind_some, ran]
      have coprime := (coprime_two_pow oddOdd shift).symm
      have both := (Nat.modEq_and_modEq_iff_modEq_mul coprime).mp
        ⟨low.trans (Nat.mod_modEq _ _), high.trans (Nat.mod_modEq _ _)⟩
      rw [whole] at both small
      rw [← Nat.mod_eq_of_lt small, both]

theorem beValue_lt_two_pow {bytes : List UInt8} {bits : Nat} (fits : 8 * bytes.length ≤ bits) :
    beValue bytes < 2 ^ bits := by
  calc beValue bytes < 256 ^ bytes.length := beValue_lt bytes
    _ = 2 ^ (8 * bytes.length) := by
      rw [pow_mul]
      rfl
    _ ≤ 2 ^ bits := Nat.pow_le_pow_right (by decide) fits

theorem wordResult_eq {sigMod : List UInt8} (short : sigMod.length ≤ 32)
    (positive : 0 < beValue sigMod) (baseFits : base < 2 ^ 256) (exponentBytes : List UInt8) :
    wordResult sigMod base exponentBytes =
      some (base ^ beValue exponentBytes % beValue sigMod) := by
  have width : ∀ bits, bits ≤ 256 → 8 * sigMod.length ≤ bits →
      modexpWords bits (readWordBytes bits sigMod) base exponentBytes =
        some (base ^ beValue exponentBytes % beValue sigMod) := by
    intro bits narrow wide
    rw [readWordBytes_eq wide]
    exact modexpWords_eq narrow positive (beValue_lt_two_pow wide) baseFits exponentBytes
  rw [wordResult]
  split
  · exact width 64 (by decide) (by omega)
  · split
    · exact width 128 (by decide) (by omega)
    · exact width 256 (Nat.le_refl _) (by omega)

end Words

/-- The word path writes the power, or leaves the inputs to another path. -/
theorem modexpSmallInto_eq {output modulusBytes : List UInt8} (baseBytes exponentBytes : List UInt8)
    (cleared : output = List.replicate modulusBytes.length 0) (positive : 0 < beValue modulusBytes) :
    modexpSmallInto output baseBytes exponentBytes modulusBytes =
        some (some (beBytes modulusBytes.length
          (beValue baseBytes ^ beValue exponentBytes % beValue modulusBytes))) ∨
      modexpSmallInto output baseBytes exponentBytes modulusBytes = some none := by
  rw [modexpSmallInto]
  dsimp only
  split
  · exact .inr rfl
  · next suited =>
      have short : (stripLeadingZeroBytes modulusBytes).length ≤ 32 := by omega
      have shortBase : (stripLeadingZeroBytes baseBytes).length ≤ 32 := by omega
      have sigLe := stripLeadingZeroBytes_length modulusBytes
      have fits : 8 * (stripLeadingZeroBytes baseBytes).length ≤ 256 := by omega
      have sigValue := stripLeadingZeroBytes_value modulusBytes
      left
      rw [readWordBytes_eq fits, wordResult_eq short (by rwa [sigValue]) (beValue_lt_two_pow fits),
        sigValue, stripLeadingZeroBytes_value, Option.bind_eq_bind, Option.bind_some, cleared,
        List.length_replicate, beBytes_length]
      have less := Nat.mod_lt (beValue baseBytes ^ beValue exponentBytes) positive
      generalize beValue baseBytes ^ beValue exponentBytes % beValue modulusBytes = result at *
      have resultFits : result < 256 ^ min modulusBytes.length 32 := by
        have bound := beValue_lt (stripLeadingZeroBytes modulusBytes)
        rw [sigValue] at bound
        exact Nat.lt_trans less (Nat.lt_of_lt_of_le bound
          (Nat.pow_le_pow_right (by decide) (Nat.le_min.mpr ⟨sigLe, short⟩)))
      have inside : min modulusBytes.length 32 ≤ modulusBytes.length := Nat.min_le_left _ _
      rw [subTrap_eq inside, Option.bind_eq_bind, Option.bind_some,
        drop_beBytes_left (Nat.min_le_right _ _), copyInto, if_pos (by
          rw [beBytes_length, List.length_replicate]
          omega), Option.bind_some, beBytes_length, Nat.sub_add_cancel inside,
        List.drop_eq_nil_of_le (by rw [List.length_replicate]), List.append_nil,
        List.take_replicate, Nat.min_eq_left (Nat.sub_le _ _)]
      have padded := beBytes_add (modulusBytes.length - min modulusBytes.length 32)
        (min modulusBytes.length 32) result
      rw [Nat.sub_add_cancel inside, Nat.div_eq_of_lt resultFits, beBytes_zero] at padded
      rw [padded]
      rfl

end EvmZig.Modexp
