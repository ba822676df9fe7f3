import EvmZig.Uint256.Limbs
import EvmZig.Uint256.TrialDivision

/-!
# One digit of the quotient

The estimate is the digit or one more, and the body of the division loops finds
the digit and leaves the remainder, whether or not the divisor has to be added back.
-/

set_option autoImplicit false

namespace EvmZig.Uint256

open Zig

/-- A divisor of at least two limbs with its top bit set. -/
structure Normalized (divisor : Limbs) (divisorLen : Nat) : Prop where
  two : 2 ≤ divisorLen
  room : divisorLen ≤ divisor.length
  small : ∀ place < divisorLen, limb divisor place < 2 ^ 64
  top : 2 ^ 63 ≤ limb divisor (divisorLen - 1)

/-! ## The estimate -/

section Estimate

variable {high second digit top next guess rest : Nat}

/-- What an estimate leaves; the flag lifts the rest by `2 ^ 64`. -/
def leftOver (rest : Nat) (overflow : Bool) : Nat := rest + if overflow then 2 ^ 64 else 0

theorem test_of_overflow {product : Nat} (bounded : product ≤ (2 ^ 64 - 1) * (2 ^ 64 - 1)) :
    product ≤ leftOver rest true * 2 ^ 64 + digit := by
  have square : (2 ^ 64 - 1) * (2 ^ 64 - 1) ≤ leftOver rest true * 2 ^ 64 :=
    Nat.mul_le_mul (Nat.le_trans (Nat.sub_le _ _) (Nat.le_add_left _ _)) (Nat.sub_le _ _)
  exact Nat.le_trans bounded (Nat.le_trans square (Nat.le_add_right _ _))

theorem rest_word (restFits : rest < 2 ^ 64) (digitFits : digit < 2 ^ 64) :
    shl 128 rest 64 ||| digit = rest * 2 ^ 64 + digit := by
  have wide : rest * 2 ^ 64 < 2 ^ 128 := by omega
  rw [shl, truncate_eq wide, Nat.mul_comm]
  exact (Nat.two_pow_add_eq_or_of_lt digitFits rest).symm

/-- The sum of the rest and the leading limb, as `@addWithOverflow` gives it. -/
theorem leftOver_add (restFits : rest < 2 ^ 64) (highFits : high < 2 ^ 64) :
    leftOver (truncate 64 (rest + high)) (decide (2 ^ 64 ≤ rest + high)) = rest + high := by
  rw [leftOver, truncate]
  by_cases wide : 2 ^ 64 ≤ rest + high
  · rw [if_pos (decide_eq_true wide)]
    omega
  · rw [if_neg (by rwa [decide_eq_true_iff]), Nat.mod_eq_of_lt (Nat.lt_of_not_le wide)]
    rfl

/-- The loop ends with an estimate that passes the test, and lowers none that is the digit. -/
theorem lowerGuess_eq {quotient topTwo : Nat} (secondFits : second < 2 ^ 64) (digitFits : digit < 2 ^ 64)
    (highFits : high < 2 ^ 64)
    (fails : ∀ guess rest, guess * high + rest = topTwo → rest * 2 ^ 64 + digit < guess * second →
      quotient < guess)
    {overflow : Bool} (guessFits : guess < 2 ^ 64) (restFits : rest < 2 ^ 64)
    (balance : guess * high + leftOver rest overflow = topTwo) (least : quotient ≤ guess) :
    ∃ found remaining, lowerGuess high second digit guess rest overflow = some found ∧
      found < 2 ^ 64 ∧ found * high + remaining = topTwo ∧
      found * second ≤ remaining * 2 ^ 64 + digit ∧ quotient ≤ found := by
  induction guess generalizing rest overflow with
  | zero =>
      refine ⟨0, leftOver rest overflow, rfl, guessFits, balance, ?_, least⟩
      rw [Nat.zero_mul]
      exact Nat.zero_le _
  | succ guess ih =>
      have product : (guess + 1) * second ≤ (2 ^ 64 - 1) * (2 ^ 64 - 1) :=
        Nat.mul_le_mul (by omega) (by omega)
      rw [lowerGuess]
      cases overflow with
      | true =>
          exact ⟨guess + 1, leftOver rest true, if_pos rfl, guessFits, balance,
            test_of_overflow product, least⟩
      | false =>
          have balanced : (guess + 1) * high + rest = topTwo := by
            rw [← balance, leftOver, if_neg Bool.false_ne_true]
            rfl
          have productFits : (guess + 1) * second < 2 ^ 128 :=
            Nat.lt_of_le_of_lt product (by decide)
          rw [if_neg Bool.false_ne_true, mulTrap_eq productFits, Option.bind_eq_bind,
            Option.bind_some, rest_word restFits digitFits]
          by_cases test : (guess + 1) * second > rest * 2 ^ 64 + digit
          · rw [if_pos test]
            have lower := fails (guess + 1) rest balanced test
            refine ih (Nat.lt_of_succ_lt guessFits) (truncate_lt _ _) ?_ (Nat.le_of_lt_succ lower)
            rw [leftOver_add restFits highFits, ← balanced]
            ring
          · rw [if_neg test]
            exact ⟨guess + 1, rest, rfl, guessFits, balanced, Nat.le_of_not_lt test, least⟩

/-- The estimate from the leading limb. -/
theorem firstGuess_eq (nextFits : next < 2 ^ 64) (highFits : high < 2 ^ 64) (highPos : 0 < high)
    (topFits : top ≤ high) :
    ∃ guess, firstGuess top next high = some guess ∧ guess.qhat < 2 ^ 64 ∧ guess.rhat < 2 ^ 64 ∧
      guess.qhat * high + leftOver guess.rhat guess.rhatOverflow = top * 2 ^ 64 + next ∧
      (top < high → guess.qhat = (top * 2 ^ 64 + next) / high) ∧
      (top = high → guess.qhat = 2 ^ 64 - 1) := by
  rw [firstGuess]
  by_cases same : top = high
  · rw [if_pos same]
    refine ⟨⟨u64Max, truncate 64 (next + high), decide (2 ^ 64 ≤ next + high)⟩, rfl, ?_,
      truncate_lt 64 _, ?_, fun less => absurd same (Nat.ne_of_lt less), fun _ => rfl⟩
    · exact Nat.sub_lt (Nat.two_pow_pos 64) Nat.one_pos
    · dsimp only
      rw [leftOver_add nextFits highFits, u64Max, Nat.sub_mul, same, Nat.mul_comm high]
      omega
  · have less : top < high := Nat.lt_of_le_of_ne topFits same
    rw [if_neg same, div128by64_eq nextFits highFits less]
    refine ⟨_, rfl, quotient_limb less nextFits, Nat.lt_trans (Nat.mod_lt _ highPos) highFits, ?_,
      fun _ => rfl, fun equal => absurd equal same⟩
    rw [leftOver, if_neg Bool.false_ne_true, Nat.add_zero]
    exact Nat.div_add_mod' _ _

end Estimate

/-! ## The digit -/

section Digit

variable {u divisor : Limbs} {divisorLen offset : Nat}

/-- The window of a division step: all its limbs are there, and its quotient is one limb. -/
structure Window (u divisor : Limbs) (divisorLen offset : Nat) : Prop where
  inside : offset + divisorLen < u.length
  small : ∀ index ≤ divisorLen, limb u (offset + index) < 2 ^ 64
  below : value u offset (divisorLen + 1) < value divisor 0 divisorLen * 2 ^ 64

theorem Normalized.positive (normal : Normalized divisor divisorLen) :
    0 < value divisor 0 divisorLen := by
  obtain ⟨more, rfl⟩ : ∃ more, divisorLen = more + 1 := ⟨divisorLen - 1, by
    have two := normal.two
    omega⟩
  have top := normal.top
  rw [Nat.add_sub_cancel] at top
  rw [value_succ, Nat.zero_add]
  exact Nat.add_pos_right _ (Nat.mul_pos (by omega) (Nat.pow_pos (Nat.two_pow_pos 64)))

theorem Normalized.value_lt (normal : Normalized divisor divisorLen) :
    value divisor 0 divisorLen < (2 ^ 64) ^ divisorLen :=
  Uint256.value_lt fun index small => by
    rw [Nat.zero_add]
    exact normal.small index small

/-- The leading limbs of the operands, and their rest. -/
theorem value_three (limbs : Limbs) (start count : Nat) :
    value limbs start (count + 3) =
      ((limb limbs (start + count + 2) * 2 ^ 64 + limb limbs (start + count + 1)) * 2 ^ 64 +
        limb limbs (start + count)) * (2 ^ 64) ^ count + value limbs start count := by
  rw [value_succ, value_succ, value_succ, ← Nat.add_assoc, ← Nat.add_assoc, pow_succ _ (count + 1),
    pow_succ]
  ring

theorem value_two (limbs : Limbs) (start count : Nat) :
    value limbs start (count + 2) =
      (limb limbs (start + count + 1) * 2 ^ 64 + limb limbs (start + count)) * (2 ^ 64) ^ count +
        value limbs start count := by
  rw [value_succ, value_succ, ← Nat.add_assoc, pow_succ]
  ring

/-- The estimate is the digit or one more. -/
theorem estimateAt_eq (normal : Normalized divisor divisorLen)
    (window : Window u divisor divisorLen offset) :
    ∃ qhat, estimateAt u divisor divisorLen offset = some qhat ∧ qhat < 2 ^ 64 ∧
      (qhat = value u offset (divisorLen + 1) / value divisor 0 divisorLen ∨
        qhat = value u offset (divisorLen + 1) / value divisor 0 divisorLen + 1) := by
  obtain ⟨low, rfl⟩ : ∃ low, divisorLen = low + 2 := ⟨divisorLen - 2, by
    have two := normal.two
    omega⟩
  have top := normal.top
  have room := normal.room
  have inside := window.inside
  have highFits := normal.small (low + 1) (by omega)
  have secondFits := normal.small low (by omega)
  have nextFits : limb u (offset + low + 1) < 2 ^ 64 := window.small (low + 1) (by omega)
  have digitFits := window.small low (by omega)
  have divisor_eq := value_two divisor 0 low
  have dividend_eq := value_three u offset low
  have lowFits : value divisor 0 low < (2 ^ 64) ^ low := Uint256.value_lt fun index small => by
    rw [Nat.zero_add]
    exact normal.small index (by omega)
  have restFits : value u offset low < (2 ^ 64) ^ low := Uint256.value_lt fun index small =>
    window.small index (by omega)
  have positive := normal.positive
  have below := window.below
  rw [Nat.zero_add] at divisor_eq
  have lastPlace : low + 2 - 1 = low + 1 := rfl
  rw [lastPlace] at top
  have highPos : 0 < limb divisor (low + 1) := Nat.lt_of_lt_of_le (Nat.two_pow_pos 63) top
  have leading := Lib.top_le divisor_eq dividend_eq lowFits secondFits below
  obtain ⟨guess, guessed, guessFits, restOf, balance, strict, equal⟩ :=
    firstGuess_eq nextFits highFits highPos leading
  have least : value u offset (low + 2 + 1) / value divisor 0 (low + 2) ≤ guess.qhat := by
    rcases Nat.lt_or_eq_of_le leading with less | same
    · rw [strict less, Nat.le_div_iff_mul_le highPos]
      exact Lib.quotient_mul_high divisor_eq dividend_eq digitFits restFits (Nat.div_mul_le_self _ _)
    · rw [equal same]
      have small := (Nat.div_lt_iff_lt_mul positive).mpr (Nat.mul_comm _ _ ▸ below)
      exact Nat.le_sub_one_of_lt small
  obtain ⟨found, remaining, ran, foundFits, found_eq, test, enough⟩ :=
    @lowerGuess_eq _ _ _ _ _ (value u offset (low + 2 + 1) / value divisor 0 (low + 2)) _ secondFits
      digitFits highFits
      (fun guess rest balance test => (Nat.div_lt_iff_lt_mul positive).mpr
        (Lib.dividend_lt_of_test divisor_eq dividend_eq restFits balance test))
      guess.rhatOverflow guessFits restOf balance least
  have near := Lib.pred_guess_mul_le divisor_eq lowFits dividend_eq found_eq test highPos
    (Nat.le_of_lt foundFits)
  refine ⟨found, ?_, foundFits, Lib.quotient_of_bounds positive enough near⟩
  have nextPlace : offset + (low + 2) - 1 = offset + low + 1 := rfl
  have digitPlace : offset + low + 2 - 2 = offset + low := rfl
  rw [estimateAt, get_eq inside, Option.bind_eq_bind, Option.bind_some, nextPlace,
    get_eq (by omega), Option.bind_some, lastPlace, get_eq (by omega), Option.bind_some,
    ← Nat.add_assoc, guessed, Option.bind_eq_bind, Option.bind_some, if_pos (by omega),
      Nat.add_sub_cancel,
    get_eq (by omega), Option.bind_some, digitPlace, get_eq (by omega), Option.bind_some]
  exact ran

/-- A digit of the quotient and the rest of the window. -/
theorem digit_of_difference {whole dividend rest borrow power : Nat} (positive : 0 < whole)
    (restFits : rest < power) (borrowFits : borrow ≤ 1)
    {qhat : Nat} (balance : rest + qhat * whole = dividend + borrow * power) :
    (qhat = dividend / whole → borrow = 0 ∧ rest = dividend % whole) ∧
      (qhat = dividend / whole + 1 → borrow = 1 ∧ rest + whole = dividend % whole + power) := by
  have split := Nat.div_add_mod' dividend whole
  have remainder := Nat.mod_lt dividend positive
  generalize dividend / whole = quotient at *
  generalize dividend % whole = left at *
  constructor
  · rintro rfl
    generalize qhat * whole = product at *
    obtain rfl | rfl : borrow = 0 ∨ borrow = 1 := by omega
    · exact ⟨rfl, by omega⟩
    · omega
  · rintro rfl
    rw [Nat.add_mul, Nat.one_mul] at balance
    generalize quotient * whole = product at *
    obtain rfl | rfl : borrow = 0 ∨ borrow = 1 := by omega
    · omega
    · exact ⟨rfl, by omega⟩

/-- Adding back lifts the rest of the window over the power once. -/
theorem rest_of_sum {whole left rest sum overflow power : Nat} (leftFits : left < whole)
    (bounded : whole ≤ power) (sumFits : sum < power)
    (lifted : rest + whole = left + power) (balance : sum + overflow * power = rest + whole) :
    sum = left := by
  rw [lifted] at balance
  rcases Nat.lt_trichotomy overflow 1 with none | rfl | more
  · obtain rfl : overflow = 0 := by omega
    omega
  · omega
  · have twice : 2 * power ≤ overflow * power := Nat.mul_le_mul_right _ more
    omega

/-- The body of the division loops finds the digit and leaves the rest of the window. -/
theorem divideAt_eq (normal : Normalized divisor divisorLen)
    (window : Window u divisor divisorLen offset) :
    ∃ digit, divideAt divisor divisorLen u offset = some digit ∧
      digit.qhat = value u offset (divisorLen + 1) / value divisor 0 divisorLen ∧
      Rewrites offset (divisorLen + 1) u digit.u ∧
      value digit.u offset (divisorLen + 1) =
        value u offset (divisorLen + 1) % value divisor 0 divisorLen := by
  have positive := normal.positive
  have bounded : value divisor 0 divisorLen ≤ (2 ^ 64) ^ (divisorLen + 1) :=
    Nat.le_trans (Nat.le_of_lt normal.value_lt)
      (Nat.pow_le_pow_right (Nat.two_pow_pos 64) (Nat.le_succ _))
  obtain ⟨qhat, estimated, qhatFits, near⟩ := estimateAt_eq normal window
  obtain ⟨lowered, borrow, subtracted, rewrites, borrowFits, balance⟩ :=
    mulSubAt_eq qhatFits normal.room normal.small window.inside window.small
  obtain ⟨exact, high⟩ :=
    digit_of_difference positive rewrites.value_lt borrowFits balance
  rw [divideAt, estimated, Option.bind_eq_bind, Option.bind_some, subtracted,
    Option.bind_eq_bind, Option.bind_some]
  rcases near with same | above
  · obtain ⟨rfl, rest⟩ := exact same
    exact ⟨⟨qhat, lowered⟩, rfl, same, rewrites, rest⟩
  · obtain ⟨rfl, lifted⟩ := high above
    have inside : offset + divisorLen < lowered.length := rewrites.length ▸ window.inside
    obtain ⟨restored, overflow, added, rewritten, sum⟩ := addBackAt_eq normal.room normal.small inside
      fun index small => rewrites.small _ (Nat.le_add_right _ _) (by omega)
    refine ⟨⟨subWrap 64 qhat 1, restored⟩, ?_, ?_, rewrites.trans rewritten, ?_⟩
    · rw [decide_eq_true rfl]
      dsimp only
      rw [if_pos rfl, added]
      rfl
    · dsimp only
      have one : 1 ≤ qhat := by
        rw [above]
        exact Nat.le_add_left 1 _
      rw [subWrap_eq one qhatFits, above, Nat.add_sub_cancel]
    · exact rest_of_sum (Nat.mod_lt _ positive) bounded rewritten.value_lt lifted sum

end Digit

end EvmZig.Uint256
