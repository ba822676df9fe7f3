import Mathlib.Algebra.Order.Ring.Nat
import Mathlib.Tactic.Linarith
import Mathlib.Tactic.Ring

/-!
# Numbers in a radix, and one digit of a long division

A number is read off a stretch of digits, least significant first.  The digit of
a quotient is estimated from the top of the operands; the test that lowers an
estimate never lowers one that is right, and leaves it at most one too large.
-/

set_option autoImplicit false

namespace EvmZig.Lib

/-- The number whose digits are `count` of `digits`, from `start` on. -/
def number (base : Nat) (digits : Nat → Nat) (start : Nat) : Nat → Nat
  | 0 => 0
  | count + 1 => number base digits start count + digits (start + count) * base ^ count

section Number

variable {base start count more : Nat} {digits other : Nat → Nat}

theorem number_congr {origin : Nat}
    (same : ∀ index < count, digits (start + index) = other (origin + index)) :
    number base digits start count = number base other origin count := by
  induction count with
  | zero => rfl
  | succ count ih =>
      rw [number, number, ih fun index below => same index (Nat.lt_succ_of_lt below),
        same count (Nat.lt_succ_self count)]

theorem number_lt (small : ∀ index < count, digits (start + index) < base) :
    number base digits start count < base ^ count := by
  induction count with
  | zero => exact Nat.one_pos
  | succ count ih =>
      have lower := ih fun index below => small index (Nat.lt_succ_of_lt below)
      have digit : digits (start + count) + 1 ≤ base := small count (Nat.lt_succ_self count)
      have scaled := Nat.mul_le_mul_right (base ^ count) digit
      rw [number, pow_succ']
      rw [Nat.add_mul, Nat.one_mul] at scaled
      omega

theorem number_add (count more : Nat) :
    number base digits start (count + more) =
      number base digits start count + base ^ count * number base digits (start + count) more := by
  induction more with
  | zero => rfl
  | succ more ih =>
      rw [← Nat.add_assoc, number, ih, number, Nat.add_assoc start, pow_add]
      ring

theorem number_zeros (zeros : ∀ index < count, digits (start + index) = 0) :
    number base digits start count = 0 := by
  induction count with
  | zero => rfl
  | succ count ih =>
      rw [number, ih fun index below => zeros index (Nat.lt_succ_of_lt below),
        zeros count (Nat.lt_succ_self count), Nat.zero_mul]

/-- Above a power of the base that the number is below there is nothing. -/
theorem number_above (small : number base digits start (count + more) < base ^ count) :
    number base digits (start + count) more = 0 := by
  rw [number_add] at small
  by_contra some
  have large := Nat.le_mul_of_pos_right (base ^ count) (Nat.pos_of_ne_zero some)
  omega

end Number

/-! ## The digit of a quotient

The divisor is `(high * base + next) * scale` and a remainder below `scale`; the
dividend is `(top * base + digit) * scale` and a remainder below `scale`.  An
estimate `guess` of the quotient goes with the rest `top - guess * high`. -/

section Digit

variable {base high next scale low divisor top digit rest dividend guess surplus : Nat}

/-- The estimate from the leading digit alone is not too small. -/
theorem quotient_mul_high (divisor_eq : divisor = (high * base + next) * scale + low)
    (dividend_eq : dividend = (top * base + digit) * scale + rest) (digitFits : digit < base)
    (restFits : rest < scale) (inside : guess * divisor ≤ dividend) :
    guess * high ≤ top := by
  have positive : 0 < base * scale := Nat.mul_pos (by omega) (by omega)
  have larger : guess * high * (base * scale) ≤ guess * divisor := by
    rw [divisor_eq]
    nlinarith [Nat.zero_le (guess * next * scale), Nat.zero_le (guess * low)]
  have smaller : dividend < (top + 1) * (base * scale) := by
    have step : (digit + 1) * scale ≤ base * scale := Nat.mul_le_mul_right _ digitFits
    rw [dividend_eq]
    nlinarith
  have scaled : guess * high * (base * scale) < (top + 1) * (base * scale) :=
    Nat.lt_of_le_of_lt (Nat.le_trans larger inside) smaller
  exact Nat.le_of_lt_succ (Nat.lt_of_mul_lt_mul_right scaled)

/-- The dividend of one digit has a leading digit no larger than the divisor's. -/
theorem top_le {second lead : Nat} (divisor_eq : divisor = (high * base + second) * scale + low)
    (dividend_eq : dividend = ((lead * base + next) * base + digit) * scale + rest)
    (lowFits : low < scale) (secondFits : second < base) (below : dividend < divisor * base) :
    lead ≤ high := by
  have larger : lead * (base * base * scale) ≤ dividend := by
    rw [dividend_eq]
    nlinarith [Nat.zero_le (next * base * scale), Nat.zero_le (digit * scale)]
  have step : (second + 1) * scale ≤ base * scale := Nat.mul_le_mul_right _ secondFits
  have bounded : divisor < (high + 1) * (base * scale) := by
    rw [divisor_eq]
    nlinarith
  have scaled : divisor * base ≤ (high + 1) * (base * scale) * base :=
    Nat.mul_le_mul_right _ (Nat.le_of_lt bounded)
  have chained : lead * (base * base * scale) < (high + 1) * (base * base * scale) := by
    have same : (high + 1) * (base * scale) * base = (high + 1) * (base * base * scale) := by ring
    omega
  exact Nat.le_of_lt_succ (Nat.lt_of_mul_lt_mul_right chained)

/-- An estimate that fails the test is too large. -/
theorem dividend_lt_of_test (divisor_eq : divisor = (high * base + next) * scale + low)
    (dividend_eq : dividend = (top * base + digit) * scale + rest) (restFits : rest < scale)
    (balance : guess * high + surplus = top) (test : surplus * base + digit < guess * next) :
    dividend < guess * divisor := by
  have step : (surplus * base + digit + 1) * scale ≤ guess * next * scale :=
    Nat.mul_le_mul_right _ test
  rw [divisor_eq, dividend_eq, ← balance]
  nlinarith [Nat.zero_le (guess * low)]

/-- An estimate that passes the test fits without the low part of the divisor. -/
theorem guess_mul_top_le (dividend_eq : dividend = (top * base + digit) * scale + rest)
    (balance : guess * high + surplus = top) (test : guess * next ≤ surplus * base + digit) :
    guess * ((high * base + next) * scale) ≤ dividend := by
  have step : guess * next * scale ≤ (surplus * base + digit) * scale := Nat.mul_le_mul_right _ test
  rw [dividend_eq, ← balance]
  nlinarith

/-- An estimate that passes the test is at most one too large. -/
theorem pred_guess_mul_le (divisor_eq : divisor = (high * base + next) * scale + low)
    (lowFits : low < scale) (dividend_eq : dividend = (top * base + digit) * scale + rest)
    (balance : guess * high + surplus = top) (test : guess * next ≤ surplus * base + digit)
    (highPos : 0 < high) (guessFits : guess ≤ base) : (guess - 1) * divisor ≤ dividend := by
  have fits := guess_mul_top_le dividend_eq balance test
  cases guess with
  | zero => omega
  | succ guess =>
      rw [Nat.add_sub_cancel]
      have room : guess ≤ high * base + next := by nlinarith
      have spare : guess * low ≤ (high * base + next) * scale :=
        Nat.mul_le_mul room (Nat.le_of_lt lowFits)
      rw [divisor_eq]
      nlinarith

/-- So the estimate is the quotient, or one more. -/
theorem quotient_of_bounds (positive : 0 < divisor) (least : dividend / divisor ≤ guess)
    (near : (guess - 1) * divisor ≤ dividend) :
    guess = dividend / divisor ∨ guess = dividend / divisor + 1 := by
  have most : guess - 1 ≤ dividend / divisor := (Nat.le_div_iff_mul_le positive).mpr near
  omega

end Digit

/-! ## Divisors of two digits

Without a low part the test is exact. -/

section TwoDigits

variable {base high next top digit guess surplus : Nat}

theorem le_quotient_of_test (positive : 0 < high * base + next)
    (balance : guess * high + surplus = top) (test : guess * next ≤ surplus * base + digit) :
    guess ≤ (top * base + digit) / (high * base + next) := by
  have dividend : top * base + digit = (top * base + digit) * 1 + 0 := by
    rw [Nat.mul_one, Nat.add_zero]
  have fits := guess_mul_top_le dividend balance test
  rw [Nat.mul_one] at fits
  exact (Nat.le_div_iff_mul_le positive).mpr fits

theorem quotient_lt_of_test (positive : 0 < high * base + next)
    (balance : guess * high + surplus = top) (test : surplus * base + digit < guess * next) :
    (top * base + digit) / (high * base + next) < guess := by
  have dividend : top * base + digit = (top * base + digit) * 1 + 0 := by
    rw [Nat.mul_one, Nat.add_zero]
  have divisor : high * base + next = (high * base + next) * 1 + 0 := by
    rw [Nat.mul_one, Nat.add_zero]
  exact (Nat.div_lt_iff_lt_mul positive).mpr
    (dividend_lt_of_test divisor dividend Nat.one_pos balance test)

theorem quotient_le_estimate (highPos : 0 < high) (digitFits : digit < base) :
    (top * base + digit) / (high * base + next) ≤ top / high := by
  have dividend : top * base + digit = (top * base + digit) * 1 + 0 := by
    rw [Nat.mul_one, Nat.add_zero]
  have divisor : high * base + next = (high * base + next) * 1 + 0 := by
    rw [Nat.mul_one, Nat.add_zero]
  rw [Nat.le_div_iff_mul_le highPos]
  exact quotient_mul_high divisor dividend digitFits Nat.one_pos (Nat.div_mul_le_self _ _)

theorem quotient_lt_base (topFits : top < high * base + next) (digitFits : digit < base) :
    (top * base + digit) / (high * base + next) < base := by
  rw [Nat.div_lt_iff_lt_mul (by omega)]
  have step : (top + 1) * base ≤ (high * base + next) * base := Nat.mul_le_mul_right _ topFits
  rw [Nat.add_mul, Nat.one_mul] at step
  rw [Nat.mul_comm base]
  omega

/-- With a rest of `base` or more an estimate passes the test. -/
theorem test_of_large_rest (topFits : top < high * base + next) (nextFits : next < base)
    (balance : guess * high + surplus = top) (large : base ≤ surplus) :
    guess < base ∧ guess * next ≤ surplus * base + digit := by
  have small : guess < base := by
    by_contra wide
    have scaled := Nat.mul_le_mul_right high (Nat.le_of_not_lt wide)
    rw [Nat.mul_comm base] at scaled
    omega
  have product : guess * next ≤ base * base :=
    Nat.mul_le_mul (Nat.le_of_lt small) (Nat.le_of_lt nextFits)
  have spare : base * base ≤ surplus * base := Nat.mul_le_mul_right _ large
  exact ⟨small, by omega⟩

end TwoDigits

end EvmZig.Lib
