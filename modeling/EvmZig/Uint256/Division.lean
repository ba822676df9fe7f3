import EvmZig.Uint256.Digits

/-!
# Long division

The loops keep the dividend as the divisor times the quotient so far and the rest,
and normalize the operands by a shift that the remainder undoes.
-/

set_option autoImplicit false

namespace EvmZig.Uint256

open Zig

/-- `count` limbs are there, each of them a limb. -/
structure Holds (limbs : Limbs) (count : Nat) : Prop where
  room : count ≤ limbs.length
  small : ∀ place < count, limb limbs place < 2 ^ 64

section Holding

variable {limbs after : Limbs} {count more place digit : Nat}

theorem Holds.mono (holds : Holds limbs count) (fewer : more ≤ count) : Holds limbs more :=
  ⟨Nat.le_trans fewer holds.room, fun place small => holds.small place (Nat.lt_of_lt_of_le small fewer)⟩

theorem Holds.value_lt (holds : Holds limbs count) : value limbs 0 count < (2 ^ 64) ^ count :=
  Uint256.value_lt fun index small => by
    rw [Nat.zero_add]
    exact holds.small index small

theorem Holds.rewritten {start width : Nat} (holds : Holds limbs count)
    (rewrites : Rewrites start width limbs after) : Holds after count where
  room := rewrites.length ▸ holds.room
  small place within := by
    by_cases inside : start ≤ place ∧ place < start + width
    · exact rewrites.small place inside.1 inside.2
    · rw [rewrites.same place (by omega)]
      exact holds.small place within

/-- A limb that is written counts with its place. -/
theorem value_set (within : place < count) (room : count ≤ limbs.length) :
    value (limbs.set place digit) 0 count + limb limbs place * (2 ^ 64) ^ place =
      value limbs 0 count + digit * (2 ^ 64) ^ place := by
  induction count with
  | zero => exact absurd within (Nat.not_lt_zero place)
  | succ count ih =>
      rw [value_succ, value_succ, Nat.zero_add]
      by_cases last : place = count
      · rw [last, value_set_outside (.inr (by omega)), limb_set_same (by omega)]
        ring
      · rw [limb_set_other last, Nat.add_right_comm, ih (by omega) (by omega)]
        ring

theorem value_split (limbs : Limbs) (low middle high : Nat) :
    value limbs 0 (low + middle + high) =
      value limbs 0 low + (2 ^ 64) ^ low * value limbs low middle +
        (2 ^ 64) ^ (low + middle) * value limbs (low + middle) high := by
  rw [value, Lib.number_add, Lib.number_add, Nat.zero_add, Nat.zero_add]
  rfl

end Holding

/-! ## One step of the loops -/

section Steps

variable {u divisor : Limbs} {divisorLen offset total : Nat}

theorem divideAt_step (normal : Normalized divisor divisorLen) (holds : Holds u total)
    (inside : offset + divisorLen < total)
    (below : value u 0 total < value divisor 0 divisorLen * (2 ^ 64) ^ (offset + 1)) :
    ∃ digit, divideAt divisor divisorLen u offset = some digit ∧ digit.qhat < 2 ^ 64 ∧
      Holds digit.u total ∧
      value digit.u 0 total + value divisor 0 divisorLen * (digit.qhat * (2 ^ 64) ^ offset) =
        value u 0 total ∧
      value digit.u 0 total < value divisor 0 divisorLen * (2 ^ 64) ^ offset := by
  obtain ⟨more, rfl⟩ : ∃ more, total = offset + (divisorLen + 1) + more :=
    ⟨total - (offset + (divisorLen + 1)), by omega⟩
  have positive := normal.positive
  -- nothing is left above the window
  have above : value u (offset + (divisorLen + 1)) more = 0 := by
    have bounded : value divisor 0 divisorLen * (2 ^ 64) ^ (offset + 1) ≤
        (2 ^ 64) ^ (offset + (divisorLen + 1)) := by
      have scaled := Nat.mul_le_mul_right ((2 ^ 64) ^ (offset + 1)) (Nat.le_of_lt normal.value_lt)
      rwa [← pow_add, show divisorLen + (offset + 1) = offset + (divisorLen + 1) by omega] at scaled
    have small := Nat.lt_of_lt_of_le below bounded
    have none := @Lib.number_above _ 0 (offset + (divisorLen + 1)) more (limb u) small
    rwa [Nat.zero_add] at none
  have split := value_split u offset (divisorLen + 1) more
  rw [above, Nat.mul_zero, Nat.add_zero] at split
  have window : Window u divisor divisorLen offset := by
    refine ⟨Nat.lt_of_lt_of_le inside holds.room, fun index small => holds.small _ (by omega), ?_⟩
    have least : (2 ^ 64) ^ offset * value u offset (divisorLen + 1) <
        (2 ^ 64) ^ offset * (value divisor 0 divisorLen * 2 ^ 64) := by
      calc (2 ^ 64) ^ offset * value u offset (divisorLen + 1)
          ≤ value u 0 (offset + (divisorLen + 1) + more) := split ▸ Nat.le_add_left _ _
        _ < value divisor 0 divisorLen * (2 ^ 64) ^ (offset + 1) := below
        _ = (2 ^ 64) ^ offset * (value divisor 0 divisorLen * 2 ^ 64) := by
            rw [pow_succ]
            ring
    exact Nat.lt_of_mul_lt_mul_left least
  obtain ⟨digit, ran, quotient, rewrites, rest⟩ := divideAt_eq normal window
  have held := holds.rewritten rewrites
  have lower : value digit.u 0 offset = value u 0 offset :=
    value_congr fun index small => rewrites.same _ (.inl (by omega))
  have upper : value digit.u (offset + (divisorLen + 1)) more =
      value u (offset + (divisorLen + 1)) more :=
    value_congr fun index _ => rewrites.same _ (.inr (by omega))
  have after := value_split digit.u offset (divisorLen + 1) more
  rw [lower, upper, above, Nat.mul_zero, Nat.add_zero, rest] at after
  have lowFits : value u 0 offset < (2 ^ 64) ^ offset := (holds.mono (by omega)).value_lt
  have remainder := Nat.mod_lt (value u offset (divisorLen + 1)) positive
  have whole := Nat.div_add_mod' (value u offset (divisorLen + 1)) (value divisor 0 divisorLen)
  refine ⟨digit, ran, ?_, held, ?_, ?_⟩
  · rw [quotient, Nat.div_lt_iff_lt_mul positive, Nat.mul_comm]
    exact window.below
  · rw [after, split, quotient]
    rw [← quotient] at whole ⊢
    calc value u 0 offset + (2 ^ 64) ^ offset *
          (value u offset (divisorLen + 1) % value divisor 0 divisorLen) +
          value divisor 0 divisorLen * (digit.qhat * (2 ^ 64) ^ offset)
        = value u 0 offset + (2 ^ 64) ^ offset * (digit.qhat * value divisor 0 divisorLen +
            value u offset (divisorLen + 1) % value divisor 0 divisorLen) := by ring
      _ = value u 0 offset + (2 ^ 64) ^ offset * value u offset (divisorLen + 1) := by rw [whole]
  · rw [after]
    have step := Nat.mul_le_mul_left ((2 ^ 64) ^ offset) remainder
    rw [Nat.succ_eq_add_one, Nat.mul_add, Nat.mul_one] at step
    rw [Nat.mul_comm (value divisor 0 divisorLen)]
    omega

/-- The dividend from `offset` on is divided. -/
structure Divided (divisor : Limbs) (divisorLen total dividend offset : Nat) (u : Limbs)
    (quotient : Nat) : Prop where
  holds : Holds u total
  below : value u 0 total < value divisor 0 divisorLen * (2 ^ 64) ^ offset
  balance : value u 0 total + value divisor 0 divisorLen * quotient = dividend

theorem Divided.done {dividend quotient : Nat}
    (divided : Divided divisor divisorLen total dividend 0 u quotient) :
    quotient = dividend / value divisor 0 divisorLen ∧
      value u 0 total = dividend % value divisor 0 divisorLen := by
  have below := divided.below
  rw [pow_zero, Nat.mul_one] at below
  rw [← divided.balance, Nat.add_mul_div_left _ _ (Nat.zero_lt_of_lt below),
    Nat.div_eq_of_lt below, Nat.zero_add, Nat.add_mul_mod_self_left, Nat.mod_eq_of_lt below]
  exact ⟨rfl, rfl⟩

/-- A digit of the quotient goes to a limb that is still zero. -/
structure Quotient (offset : Nat) (quotient : Limbs) : Prop where
  length : quotient.length = 4
  small : ∀ place < 4, limb quotient place < 2 ^ 64
  zeros : ∀ place < offset, limb quotient place = 0

theorem Quotient.put {quotient : Limbs} {digit : Nat} (built : Quotient (offset + 1) quotient)
    (small : digit < 2 ^ 64) (inside : offset < 4) :
    Quotient offset (quotient.set offset digit) ∧
      value (quotient.set offset digit) 0 4 = value quotient 0 4 + digit * (2 ^ 64) ^ offset := by
  refine ⟨⟨by rw [List.length_set, built.length], fun place within => ?_, fun place below => ?_⟩, ?_⟩
  · by_cases same : offset = place
    · rw [← same, limb_set_same (by rw [built.length]; exact inside)]
      exact small
    · rw [limb_set_other same]
      exact built.small place within
  · rw [limb_set_other (by omega)]
    exact built.zeros place (by omega)
  · have whole := @value_set quotient 4 offset digit inside (Nat.le_of_eq built.length.symm)
    rwa [built.zeros offset (Nat.lt_succ_self _), Nat.zero_mul, Nat.add_zero] at whole

theorem clearLimbs_limb (count place : Nat) : limb (clearLimbs count) place = 0 := by
  rw [limb, clearLimbs, List.getD_eq_getElem?_getD, List.getElem?_replicate]
  split
  · rfl
  · rfl

theorem clearLimbs_value (size count : Nat) : value (clearLimbs size) 0 count = 0 :=
  Lib.number_zeros fun _ _ => clearLimbs_limb size _

theorem Quotient.clear (offset : Nat) : Quotient offset (clearLimbs 4) where
  length := rfl
  small place _ := by
    rw [clearLimbs_limb]
    exact Nat.two_pow_pos 64
  zeros place _ := clearLimbs_limb 4 place

/-- The loop of `divModNormalized`. -/
theorem divideLoop_eq {offsets dividend : Nat} (normal : Normalized divisor divisorLen)
    (sized : offsets + divisorLen < total) (few : offsets < 4)
    (start : Divided divisor divisorLen total dividend (offsets + 1) u 0) :
    ∃ done, forDown (fun (state : DivMod) offset => do
        let digit ← divideAt divisor divisorLen state.remainder offset
        let quotient ← state.quotient.put offset digit.qhat
        return { quotient, remainder := digit.u }) (offsets + 1) ⟨clearLimbs 4, u⟩ = some done ∧
      Quotient 0 done.quotient ∧ Holds done.remainder total ∧
      value done.quotient 0 4 = dividend / value divisor 0 divisorLen ∧
      value done.remainder 0 total = dividend % value divisor 0 divisorLen := by
  have initial : Quotient (offsets + 1) (clearLimbs 4) ∧
      Divided divisor divisorLen total dividend (offsets + 1) u (value (clearLimbs 4) 0 4) := by
    rw [clearLimbs_value]
    exact ⟨Quotient.clear _, start⟩
  obtain ⟨done, ran, built, divided⟩ := @forDown_rule DivMod (fun state offset => do
      let digit ← divideAt divisor divisorLen state.remainder offset
      let quotient ← state.quotient.put offset digit.qhat
      return { quotient, remainder := digit.u }) (offsets + 1) ⟨clearLimbs 4, u⟩
    (fun offset state => Quotient offset state.quotient ∧
      Divided divisor divisorLen total dividend offset state.remainder (value state.quotient 0 4))
    initial (by
      rintro offset below state ⟨built, divided⟩
      obtain ⟨digit, ran, small, holds, balance, less⟩ :=
        divideAt_step normal divided.holds (by omega) divided.below
      obtain ⟨next, written⟩ := built.put small (by omega)
      refine ⟨⟨state.quotient.set offset digit.qhat, digit.u⟩, ?_, next, holds, less, ?_⟩
      · rw [ran, Option.bind_eq_bind, Option.bind_some, put_eq (by rw [built.length]; omega)]
        rfl
      · dsimp only
        rw [written, Nat.mul_add, Nat.add_left_comm, balance, Nat.add_comm]
        exact divided.balance)
  exact ⟨done, ran, built, divided.holds, divided.done⟩

/-- The loop of `modNxMKnuth`. -/
theorem reduceLoop_eq {offsets dividend : Nat} (normal : Normalized divisor divisorLen)
    (sized : offsets + divisorLen < total)
    (start : Divided divisor divisorLen total dividend (offsets + 1) u 0) :
    ∃ done, forDown (fun u offset => Digit.u <$> divideAt divisor divisorLen u offset)
        (offsets + 1) u = some done ∧ Holds done total ∧
      value done 0 total = dividend % value divisor 0 divisorLen := by
  obtain ⟨done, ran, quotient, divided⟩ := @forDown_rule Limbs
    (fun u offset => Digit.u <$> divideAt divisor divisorLen u offset) (offsets + 1) u
    (fun offset u => ∃ quotient, Divided divisor divisorLen total dividend offset u quotient)
    ⟨0, start⟩ (by
      rintro offset below state ⟨quotient, divided⟩
      obtain ⟨digit, ran, -, holds, balance, less⟩ :=
        divideAt_step normal divided.holds (by omega) divided.below
      refine ⟨digit.u, ?_, quotient + digit.qhat * (2 ^ 64) ^ offset, holds, less, ?_⟩
      · rw [ran]
        rfl
      · rw [Nat.mul_add, Nat.add_left_comm, balance, Nat.add_comm]
        exact divided.balance)
  exact ⟨done, ran, divided.holds, divided.done.2⟩

end Steps

end EvmZig.Uint256
