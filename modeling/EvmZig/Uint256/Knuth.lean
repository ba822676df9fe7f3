import EvmZig.Uint256.Normalization

/-!
# Division of limb arrays

Every branch of `divModKnuth` gives the quotient and the remainder of the numbers.
-/

set_option autoImplicit false

namespace EvmZig.Uint256

open Zig

/-! ## Lengths and comparison -/

section Lengths

variable {limbs left right : Limbs} {count len leftLen rightLen : Nat}

/-- The limbs from `len` on are zero, and the one before is not. -/
structure Counted (limbs : Limbs) (count len : Nat) : Prop where
  within : len ≤ count
  zeros : ∀ place, len ≤ place → place < count → limb limbs place = 0
  top : 0 < len → limb limbs (len - 1) ≠ 0

theorem countLimbs_eq (room : count ≤ limbs.length) :
    ∃ len, countLimbs limbs count = some len ∧ Counted limbs count len := by
  induction count with
  | zero => exact ⟨0, rfl, Nat.le_refl 0, fun place _ below => by omega, fun none => by omega⟩
  | succ count ih =>
      rw [countLimbs, get_eq room, Option.bind_eq_bind, Option.bind_some]
      by_cases zero : limb limbs count = 0
      · rw [if_pos zero]
        obtain ⟨len, ran, counted⟩ := ih (Nat.le_of_succ_le room)
        refine ⟨len, ran, Nat.le_succ_of_le counted.within, fun place above below => ?_, counted.top⟩
        by_cases last : place = count
        · exact last ▸ zero
        · exact counted.zeros place above (by omega)
      · rw [if_neg zero]
        exact ⟨count + 1, rfl, Nat.le_refl _, fun place above below => by omega, fun _ => zero⟩

theorem Counted.value_eq (counted : Counted limbs count len) :
    value limbs 0 count = value limbs 0 len := by
  have split := @Lib.number_add (2 ^ 64) 0 (limb limbs) len (count - len)
  have above : Lib.number (2 ^ 64) (limb limbs) (0 + len) (count - len) = 0 :=
    Lib.number_zeros fun index small => counted.zeros _ (by omega) (by omega)
  rw [above, Nat.mul_zero, Nat.add_zero, Nat.add_sub_cancel' counted.within] at split
  exact split

theorem value_ge (top : limb limbs len ≠ 0) : (2 ^ 64) ^ len ≤ value limbs 0 (len + 1) := by
  rw [value_succ, Nat.zero_add]
  exact Nat.le_trans (Nat.le_mul_of_pos_left _ (Nat.pos_of_ne_zero top)) (Nat.le_add_left _ _)

theorem Counted.value_ge (counted : Counted limbs count len) (positive : 0 < len) :
    (2 ^ 64) ^ (len - 1) ≤ value limbs 0 len := by
  have large := Uint256.value_ge (counted.top positive)
  rwa [Nat.sub_add_cancel positive] at large

/-- A number with more limbs is larger. -/
theorem Counted.longer (counted : Counted right count rightLen) (holds : Holds left leftLen)
    (less : leftLen < rightLen) : value left 0 leftLen < value right 0 rightLen :=
  calc value left 0 leftLen < (2 ^ 64) ^ leftLen := holds.value_lt
    _ ≤ (2 ^ 64) ^ (rightLen - 1) := Nat.pow_le_pow_right (Nat.two_pow_pos 64) (by omega)
    _ ≤ value right 0 rightLen := counted.value_ge (by omega)

theorem digit_lt {scale lower other high more : Nat} (lowerFits : lower < scale) (less : high < more) :
    lower + high * scale < other + more * scale := by
  have step : (high + 1) * scale ≤ more * scale := Nat.mul_le_mul_right _ less
  rw [Nat.add_mul, Nat.one_mul] at step
  omega

theorem ltFrom_eq (leftHolds : Holds left count) (rightHolds : Holds right count) :
    ltFrom left right count = some (decide (value left 0 count < value right 0 count)) := by
  induction count with
  | zero => rfl
  | succ count ih =>
      have leftLower := (leftHolds.mono (Nat.le_succ count)).value_lt
      have rightLower := (rightHolds.mono (Nat.le_succ count)).value_lt
      rw [ltFrom, get_eq leftHolds.room, get_eq rightHolds.room, Option.bind_eq_bind,
        Option.bind_some, Option.bind_some, value_succ, value_succ, Nat.zero_add]
      rcases Nat.lt_trichotomy (limb left count) (limb right count) with less | same | more
      · rw [if_pos (Nat.ne_of_lt less)]
        exact congrArg some (decide_eq_decide.mpr
          ⟨fun _ => digit_lt leftLower less, fun _ => less⟩)
      · rw [if_neg (not_not.mpr same), ih (leftHolds.mono (Nat.le_succ count))
          (rightHolds.mono (Nat.le_succ count)), same]
        exact congrArg some (decide_eq_decide.mpr (Nat.add_lt_add_iff_right).symm)
      · rw [if_pos (Nat.ne_of_gt more)]
        exact congrArg some (decide_eq_decide.mpr
          ⟨fun less => (Nat.lt_asymm less more).elim,
            fun less => (Nat.lt_asymm less (digit_lt rightLower more)).elim⟩)

/-- Numbers without leading zero limbs compare by their lengths first. -/
theorem ltPrefix_eq {leftCount rightCount : Nat} (leftHolds : Holds left leftLen)
    (rightHolds : Holds right rightLen) (leftCounted : Counted left leftCount leftLen)
    (rightCounted : Counted right rightCount rightLen) :
    ltPrefix left leftLen right rightLen =
      some (decide (value left 0 leftLen < value right 0 rightLen)) := by
  rw [ltPrefix]
  rcases Nat.lt_trichotomy leftLen rightLen with less | rfl | more
  · rw [if_pos (Nat.ne_of_lt less), decide_eq_true less,
      decide_eq_true (rightCounted.longer leftHolds less)]
  · rw [if_neg (not_not.mpr rfl), ltFrom_eq leftHolds rightHolds]
  · rw [if_pos (Nat.ne_of_gt more), decide_eq_false (Nat.lt_asymm more),
      decide_eq_false (Nat.lt_asymm (leftCounted.longer rightHolds more))]

end Lengths

/-! ## One limb -/

section SingleLimb

variable {numerator : Limbs} {numeratorLen divisor : Nat}

theorem single_balance {base scale whole lower rem limb quotient digit rest divisor : Nat}
    (held : lower + limb * scale + (divisor * quotient + rem * (scale * base)) = whole)
    (divided : digit * divisor + rest = rem * base + limb) :
    lower + (divisor * (quotient + digit * scale) + rest * scale) = whole := by
  zify at *
  linear_combination held + scale * divided

/-- One limb in an array of four. -/
theorem single_holds {rem : Nat} (fits : rem < 2 ^ 64) : Holds [rem, 0, 0, 0] 4 := by
  refine ⟨Nat.le_refl 4, fun place small => ?_⟩
  rcases place with _ | _ | _ | _ | place
  · exact fits
  · exact Nat.two_pow_pos 64
  · exact Nat.two_pow_pos 64
  · exact Nat.two_pow_pos 64
  · omega

theorem single_value {rem : Nat} : value [rem, 0, 0, 0] 0 4 = rem := by
  rw [value_succ, value_succ, value_succ, value_succ, value_zero]
  change 0 + rem * (2 ^ 64) ^ 0 + 0 * _ + 0 * _ + 0 * _ = rem
  rw [pow_zero, Nat.mul_one, Nat.zero_mul, Nat.zero_mul, Nat.zero_mul, Nat.zero_add]
  rfl

theorem divModSingleLimb_eq (few : numeratorLen ≤ 4) (holds : Holds numerator numeratorLen)
    (fits : divisor < 2 ^ 64) (positive : 0 < divisor) :
    ∃ done, divModSingleLimb numerator numeratorLen divisor = some done ∧ Quotient 0 done.quotient ∧
      Holds done.remainder 4 ∧ value done.quotient 0 4 = value numerator 0 numeratorLen / divisor ∧
      value done.remainder 0 4 = value numerator 0 numeratorLen % divisor := by
  have initial : Quotient numeratorLen (clearLimbs 4) ∧ 0 < divisor ∧
      value numerator 0 numeratorLen + (divisor * value (clearLimbs 4) 0 4 + 0 *
        (2 ^ 64) ^ numeratorLen) =
        value numerator 0 numeratorLen := by
    rw [clearLimbs_value, Nat.mul_zero, Nat.zero_mul]
    exact ⟨Quotient.clear _, positive, rfl⟩
  obtain ⟨done, ran, built, less, balance⟩ := @forDown_rule SingleLimb (singleLimb numerator divisor)
    numeratorLen ⟨clearLimbs 4, 0⟩
    (fun index state => Quotient index state.quotient ∧ state.rem < divisor ∧
      value numerator 0 index + (divisor * value state.quotient 0 4 + state.rem * (2 ^ 64) ^ index) =
        value numerator 0 numeratorLen)
    initial (by
      rintro index small state ⟨built, less, balance⟩
      have limbFits := holds.small index small
      have digitFits := quotient_limb less limbFits
      obtain ⟨next, written⟩ := built.put digitFits (by omega)
      rw [value_succ, Nat.zero_add, pow_succ] at balance
      refine ⟨⟨_, (state.rem * 2 ^ 64 + limb numerator index) % divisor⟩, ?_, next,
        Nat.mod_lt _ positive, ?_⟩
      · rw [singleLimb, get_eq (Nat.lt_of_lt_of_le small holds.room), Option.bind_eq_bind,
          Option.bind_some, div128by64_eq limbFits fits less, Option.bind_eq_bind, Option.bind_some,
          put_eq (by rw [built.length]; omega)]
        rfl
      · dsimp only
        rw [written]
        exact single_balance balance (Nat.div_add_mod' _ _))
  rw [value_zero, pow_zero, Nat.mul_one, Nat.zero_add] at balance
  refine ⟨⟨done.quotient, [done.rem, 0, 0, 0]⟩, ?_, built, single_holds (Nat.lt_trans less fits), ?_, ?_⟩
  · rw [divModSingleLimb, ran]
    rfl
  · rw [← balance, Nat.mul_add_div positive, Nat.div_eq_of_lt less, Nat.add_zero]
  · rw [← balance, Nat.mul_add_mod, Nat.mod_eq_of_lt less]
    exact single_value

/-- The single-limb loop of `mod8By4Knuth`. -/
theorem remLoop_eq (holds : Holds numerator numeratorLen) (fits : divisor < 2 ^ 64)
    (positive : 0 < divisor) :
    forDown (remLimb numerator divisor) numeratorLen 0 =
      some (value numerator 0 numeratorLen % divisor) := by
  have initial : 0 < divisor ∧ ∃ quotient,
      value numerator 0 numeratorLen + (divisor * quotient + 0 * (2 ^ 64) ^ numeratorLen) =
        value numerator 0 numeratorLen := by
    refine ⟨positive, 0, ?_⟩
    rw [Nat.mul_zero, Nat.zero_mul]
    rfl
  obtain ⟨done, ran, less, quotient, balance⟩ := @forDown_rule Nat (remLimb numerator divisor)
    numeratorLen 0
    (fun index rem => rem < divisor ∧ ∃ quotient,
      value numerator 0 index + (divisor * quotient + rem * (2 ^ 64) ^ index) =
        value numerator 0 numeratorLen)
    initial (by
      rintro index small rem ⟨less, quotient, balance⟩
      have limbFits := holds.small index small
      rw [value_succ, Nat.zero_add, pow_succ] at balance
      refine ⟨(rem * 2 ^ 64 + limb numerator index) % divisor, ?_, Nat.mod_lt _ positive, _,
        single_balance balance (Nat.div_add_mod' _ _)⟩
      rw [remLimb, get_eq (Nat.lt_of_lt_of_le small holds.room), Option.bind_eq_bind,
        Option.bind_some, div128by64_eq limbFits fits less]
      rfl)
  rw [value_zero, pow_zero, Nat.mul_one, Nat.zero_add] at balance
  rw [ran, ← balance, Nat.mul_add_mod, Nat.mod_eq_of_lt less]

end SingleLimb

/-! ## Normalized operands -/

section Operands

variable {divisorArray uArray numerator divisorIn : Limbs} {numeratorLen divisorLen cleared : Nat}

theorem Normalized.of_value {divisor : Limbs} (two : 2 ≤ divisorLen) (holds : Holds divisor divisorLen)
    (large : 2 ^ 63 * (2 ^ 64) ^ (divisorLen - 1) ≤ value divisor 0 divisorLen) :
    Normalized divisor divisorLen where
  two := two
  room := holds.room
  small := holds.small
  top := by
    by_contra low
    obtain ⟨more, rfl⟩ : ∃ more, divisorLen = more + 1 := ⟨divisorLen - 1, by omega⟩
    rw [Nat.add_sub_cancel] at low large
    have lower := (holds.mono (Nat.le_succ more)).value_lt
    have step : (limb divisor more + 1) * (2 ^ 64) ^ more ≤ 2 ^ 63 * (2 ^ 64) ^ more :=
      Nat.mul_le_mul_right _ (Nat.lt_of_not_le low)
    rw [Nat.add_mul, Nat.one_mul] at step
    rw [value_succ, Nat.zero_add] at large
    omega

/-- What both ways to normalize leave: the operands times a power of two. -/
structure Shifted (numerator divisorIn : Limbs) (numeratorLen divisorLen shift : Nat)
    (operands : Operands) : Prop where
  normal : Normalized operands.divisor divisorLen
  holds : Holds operands.u (numeratorLen + 1)
  dividend : value operands.u 0 (numeratorLen + 1) = value numerator 0 numeratorLen * 2 ^ shift
  divisor : value operands.divisor 0 divisorLen = value divisorIn 0 divisorLen * 2 ^ shift

theorem rewritten_holds {out after : Limbs} {count : Nat} (room : count ≤ out.length)
    (rewrites : Rewrites 0 count out after) : Holds after count :=
  ⟨rewrites.length ▸ room, fun place small => rewrites.small place (Nat.zero_le _) (by omega)⟩

theorem copyOperands_eq (divisorRoom : divisorLen ≤ divisorArray.length) (room : numeratorLen < cleared)
    (two : 2 ≤ divisorLen) (numeratorHolds : Holds numerator numeratorLen)
    (divisorHolds : Holds divisorIn divisorLen)
    (large : 2 ^ 63 * (2 ^ 64) ^ (divisorLen - 1) ≤ value divisorIn 0 divisorLen) :
    ∃ operands, copyOperands divisorArray (clearLimbs cleared) numerator numeratorLen divisorIn
        divisorLen = some operands ∧
      Shifted numerator divisorIn numeratorLen divisorLen 0 operands := by
  have clearedLength : (clearLimbs cleared).length = cleared := List.length_replicate
  obtain ⟨divisor, divisorRan, divisorWritten, divisorSame⟩ := copyLimbs_eq divisorRoom divisorHolds
  obtain ⟨u, ran, written, same⟩ := @copyLimbs_eq (clearLimbs cleared) numerator numeratorLen
    (by omega) numeratorHolds
  have top : limb u numeratorLen = 0 := by
    rw [written.same _ (.inr (by omega)), clearLimbs_limb]
  refine ⟨⟨divisor, u⟩, ?_, ?_, ?_, ?_, ?_⟩
  · rw [copyOperands, divisorRan, Option.bind_eq_bind, Option.bind_some, ran]
    rfl
  · exact Normalized.of_value two (rewritten_holds divisorRoom divisorWritten) (divisorSame ▸ large)
  · refine ⟨by rw [written.length]; omega, fun place small => ?_⟩
    by_cases last : place = numeratorLen
    · rw [last, top]
      exact Nat.two_pow_pos 64
    · exact written.small place (Nat.zero_le _) (by omega)
  · dsimp only
    rw [value_succ, Nat.zero_add, top, same, Nat.zero_mul, pow_zero, Nat.mul_one, Nat.add_zero]
  · dsimp only
    rw [divisorSame, pow_zero, Nat.mul_one]

theorem shiftOperands_eq {shift : Nat} (divisorRoom : divisorLen ≤ divisorArray.length)
    (room : numeratorLen < uArray.length) (two : 2 ≤ divisorLen) (positive : 0 < numeratorLen)
    (numeratorHolds : Holds numerator numeratorLen) (divisorHolds : Holds divisorIn divisorLen)
    (within : shift ≤ 64) (topFits : limb divisorIn (divisorLen - 1) * 2 ^ shift < 2 ^ 64)
    (large : 2 ^ 63 * (2 ^ 64) ^ (divisorLen - 1) ≤ value divisorIn 0 divisorLen * 2 ^ shift) :
    ∃ operands, shiftOperands divisorArray uArray numerator numeratorLen divisorIn divisorLen shift =
        some operands ∧ Shifted numerator divisorIn numeratorLen divisorLen shift operands := by
  obtain ⟨divisor, divisorRan, divisorWritten, divisorShifted⟩ :=
    @shiftUp_eq divisorArray divisorIn divisorLen shift (by omega) divisorRoom divisorHolds within
  obtain ⟨u, ran, written, shifted⟩ := @shiftUp_eq uArray numerator numeratorLen shift positive
    (Nat.le_of_lt room) numeratorHolds within
  have inside : numeratorLen < u.length := written.length ▸ room
  have lastFits := numeratorHolds.small (numeratorLen - 1) (by omega)
  have spillFits : shr (limb numerator (numeratorLen - 1)) (64 - shift) < 2 ^ 64 :=
    Nat.lt_of_le_of_lt (Nat.div_le_self _ _) lastFits
  -- a normalized divisor does not spill
  have kept : shr (limb divisorIn (divisorLen - 1)) (64 - shift) = 0 := by
    refine Nat.div_eq_of_lt ?_
    rw [show 2 ^ 64 = 2 ^ (64 - shift) * 2 ^ shift by rw [← pow_add, Nat.sub_add_cancel within]]
      at topFits
    exact Nat.lt_of_mul_lt_mul_right topFits
  rw [kept, Nat.zero_mul, Nat.add_zero] at divisorShifted
  obtain ⟨next, valued⟩ := written.next spillFits inside
  refine ⟨⟨divisor, u.set numeratorLen (shr (limb numerator (numeratorLen - 1)) (64 - shift))⟩, ?_,
    ?_, ?_, ?_, divisorShifted⟩
  · have has := numeratorHolds.room
    rw [shiftOperands, divisorRan, Option.bind_eq_bind, Option.bind_some, ran, Option.bind_some,
      get_eq (by omega), Option.bind_eq_bind, Option.bind_some, put_eq inside]
    rfl
  · exact Normalized.of_value two (rewritten_holds divisorRoom divisorWritten)
      (divisorShifted ▸ large)
  · exact rewritten_holds room next
  · exact valued.trans shifted

/-- The operands as `divModNormalized` and `modNxMKnuth` set them up. -/
theorem operands_eq (divisorRoom : divisorLen ≤ divisorArray.length) (clearRoom : numeratorLen < cleared)
    (room : numeratorLen < uArray.length) (two : 2 ≤ divisorLen) (positive : 0 < numeratorLen)
    (numeratorHolds : Holds numerator numeratorLen) (divisorHolds : Holds divisorIn divisorLen)
    (top : limb divisorIn (divisorLen - 1) ≠ 0) :
    ∃ operands,
      (if clz 64 (limb divisorIn (divisorLen - 1)) = 0 then
        copyOperands divisorArray (clearLimbs cleared) numerator numeratorLen divisorIn divisorLen
      else
        shiftOperands divisorArray uArray numerator numeratorLen divisorIn divisorLen
          (clz 64 (limb divisorIn (divisorLen - 1)))) = some operands ∧
      Shifted numerator divisorIn numeratorLen divisorLen
        (clz 64 (limb divisorIn (divisorLen - 1))) operands := by
  have topPos := Nat.pos_of_ne_zero top
  obtain ⟨normal, fits⟩ := clz_normalizes topPos (divisorHolds.small (divisorLen - 1) (by omega))
  have within := Nat.le_of_lt (clz_lt topPos (by decide : 0 < 64))
  generalize clz 64 (limb divisorIn (divisorLen - 1)) = shift at *
  have half : 2 ^ 63 ≤ limb divisorIn (divisorLen - 1) * 2 ^ shift := half_le normal
  have large : 2 ^ 63 * (2 ^ 64) ^ (divisorLen - 1) ≤ value divisorIn 0 divisorLen * 2 ^ shift := by
    obtain ⟨more, rfl⟩ : ∃ more, divisorLen = more + 1 := ⟨divisorLen - 1, by omega⟩
    rw [Nat.add_sub_cancel] at half ⊢
    calc 2 ^ 63 * (2 ^ 64) ^ more ≤ limb divisorIn more * 2 ^ shift * (2 ^ 64) ^ more :=
          Nat.mul_le_mul_right _ half
      _ = limb divisorIn more * (2 ^ 64) ^ more * 2 ^ shift := by ring
      _ ≤ value divisorIn 0 (more + 1) * 2 ^ shift := by
          refine Nat.mul_le_mul_right _ ?_
          rw [value_succ, Nat.zero_add]
          exact Nat.le_add_left _ _
  by_cases none : shift = 0
  · subst none
    rw [pow_zero, Nat.mul_one] at large
    obtain ⟨operands, ran, shifted⟩ := @copyOperands_eq divisorArray numerator divisorIn numeratorLen
      divisorLen cleared divisorRoom clearRoom two numeratorHolds divisorHolds large
    exact ⟨operands, by rw [if_pos rfl, ran], shifted⟩
  · obtain ⟨operands, ran, shifted⟩ := shiftOperands_eq divisorRoom room two positive numeratorHolds
      divisorHolds within fits large
    exact ⟨operands, by rw [if_neg none, ran], shifted⟩

/-- The loops start with the whole dividend. -/
theorem Shifted.start {shift count offsets : Nat} {operands : Operands}
    (shifted : Shifted numerator divisorIn numeratorLen divisorLen shift operands)
    (numeratorHolds : Holds numerator numeratorLen) (counted : Counted divisorIn count divisorLen)
    (positive : 0 < divisorLen) (sized : numeratorLen = divisorLen + offsets) :
    Divided operands.divisor divisorLen (numeratorLen + 1) (value numerator 0 numeratorLen * 2 ^ shift)
      (offsets + 1) operands.u 0 := by
  refine ⟨shifted.holds, ?_, ?_⟩
  · rw [shifted.dividend, shifted.divisor]
    have least := Nat.mul_le_mul_right ((2 ^ 64) ^ (offsets + 1)) (counted.value_ge positive)
    rw [← pow_add, show divisorLen - 1 + (offsets + 1) = numeratorLen by omega] at least
    rw [Nat.mul_right_comm]
    exact Nat.mul_lt_mul_of_pos_right (Nat.lt_of_lt_of_le numeratorHolds.value_lt least)
      (Nat.two_pow_pos shift)
  · rw [Nat.mul_zero, Nat.add_zero, shifted.dividend]

/-- A number below a power of the base is in the limbs below it. -/
theorem value_low {limbs : Limbs} {len total : Nat} (within : len ≤ total)
    (small : value limbs 0 total < (2 ^ 64) ^ len) : value limbs 0 len = value limbs 0 total := by
  obtain ⟨more, rfl⟩ : ∃ more, total = len + more := ⟨total - len, by omega⟩
  have above := @Lib.number_above (2 ^ 64) 0 len more (limb limbs) small
  have split := @Lib.number_add (2 ^ 64) 0 (limb limbs) len more
  rw [above, Nat.mul_zero, Nat.add_zero] at split
  exact split.symm

/-- The remainder that the loops leave is shifted back. -/
theorem Shifted.finish {shift count total : Nat} {operands : Operands} {rest : Limbs}
    (shifted : Shifted numerator divisorIn numeratorLen divisorLen shift operands)
    (counted : Counted divisorIn count divisorLen) (few : divisorLen ≤ 4) (positive : 0 < divisorLen)
    (shiftFits : shift < 64) (within : divisorLen ≤ total) (holds : Holds rest total)
    (remainder : value rest 0 total =
      value numerator 0 numeratorLen * 2 ^ shift % value operands.divisor 0 divisorLen) :
    ∃ out, unnormalizeRemainder rest divisorLen shift = some out ∧ Holds out 4 ∧
      value out 0 4 = value numerator 0 numeratorLen % value divisorIn 0 divisorLen := by
  have divisorPos : 0 < value divisorIn 0 divisorLen :=
    Nat.lt_of_lt_of_le (Nat.pow_pos (Nat.two_pow_pos 64)) (counted.value_ge positive)
  have bounded := shifted.normal.value_lt
  rw [shifted.divisor] at bounded remainder
  rw [Nat.mul_mod_mul_right] at remainder
  have small : value rest 0 total < (2 ^ 64) ^ divisorLen := by
    rw [remainder]
    exact Nat.lt_trans (Nat.mul_lt_mul_of_pos_right (Nat.mod_lt _ divisorPos) (Nat.two_pow_pos _))
      bounded
  have lower := (value_low within small).trans remainder
  obtain ⟨out, ran, outHolds, -, exact⟩ :=
    unnormalizeRemainder_eq shiftFits few positive (holds.mono within) lower
  exact ⟨out, ran, outHolds, exact⟩

end Operands

end EvmZig.Uint256
