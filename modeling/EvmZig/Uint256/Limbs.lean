import EvmZig.Lib.Radix
import EvmZig.Uint256.Model
import Mathlib.Tactic.LinearCombination
import Mathlib.Tactic.Zify

/-!
# Limb arrays as numbers

What the subtraction of a multiple and the addition of the divisor do to the
number in a window of the dividend.
-/

set_option autoImplicit false

namespace EvmZig.Uint256

open Zig

/-! ## Arrays -/

def limb (limbs : Limbs) (place : Nat) : Nat := limbs.getD place 0

/-- The number in `count` limbs from `start` on. -/
def value (limbs : Limbs) (start count : Nat) : Nat := Lib.number (2 ^ 64) (limb limbs) start count

section Arrays

variable {limbs other : Limbs} {place start count digit : Nat}

theorem get_eq (inside : place < limbs.length) : limbs.get place = some (limb limbs place) := by
  rw [Limbs.get, limb, List.getElem?_eq_getElem inside, List.getD_eq_getElem _ _ inside]

theorem put_eq (inside : place < limbs.length) :
    limbs.put place digit = some (limbs.set place digit) :=
  if_pos inside

theorem limb_set_same (inside : place < limbs.length) :
    limb (limbs.set place digit) place = digit := by
  rw [limb, List.getD_eq_getElem _ _ (by rwa [List.length_set]), List.getElem_set_self]

theorem limb_set_other {away : Nat} (ne : place ≠ away) :
    limb (limbs.set place digit) away = limb limbs away := by
  rw [limb, limb, List.getD_eq_getElem?_getD, List.getD_eq_getElem?_getD, List.getElem?_set_ne ne]

theorem value_zero : value limbs start 0 = 0 := rfl

theorem value_succ : value limbs start (count + 1) =
    value limbs start count + limb limbs (start + count) * (2 ^ 64) ^ count := rfl

theorem value_congr (same : ∀ index < count, limb limbs (start + index) = limb other (start + index)) :
    value limbs start count = value other start count :=
  Lib.number_congr same

theorem value_lt (small : ∀ index < count, limb limbs (start + index) < 2 ^ 64) :
    value limbs start count < (2 ^ 64) ^ count :=
  Lib.number_lt small

theorem value_set_outside (outside : place < start ∨ start + count ≤ place) :
    value (limbs.set place digit) start count = value limbs start count :=
  value_congr fun index small => limb_set_other (by omega)

end Arrays

/-- One array comes from another by writes into a window of limbs. -/
structure Rewrites (start count : Nat) (before after : Limbs) : Prop where
  length : after.length = before.length
  same : ∀ place, place < start ∨ start + count ≤ place → limb after place = limb before place
  small : ∀ place, start ≤ place → place < start + count → limb after place < 2 ^ 64

section Windows

variable {start count digit : Nat} {before middle after : Limbs}

theorem Rewrites.none (limbs : Limbs) (start : Nat) : Rewrites start 0 limbs limbs where
  length := rfl
  same _ _ := rfl
  small place above below := by omega

theorem Rewrites.push (rewrites : Rewrites start count before after) (small : digit < 2 ^ 64)
    (inside : start + count < after.length) :
    Rewrites start (count + 1) before (after.set (start + count) digit) where
  length := by rw [List.length_set, rewrites.length]
  same place outside := by
    rw [limb_set_other (by omega)]
    exact rewrites.same place (by omega)
  small place above below := by
    by_cases last : place = start + count
    · rw [last, limb_set_same inside]
      exact small
    · rw [limb_set_other (by omega)]
      exact rewrites.small place above (by omega)

theorem Rewrites.trans (first : Rewrites start count before middle)
    (second : Rewrites start count middle after) : Rewrites start count before after where
  length := second.length.trans first.length
  same place outside := (second.same place outside).trans (first.same place outside)
  small := second.small

theorem value_push (inside : start + count < after.length) (digit : Nat) :
    value (after.set (start + count) digit) start (count + 1) =
      value after start count + digit * (2 ^ 64) ^ count := by
  rw [value_succ, value_set_outside (.inr (Nat.le_refl _)), limb_set_same inside]

theorem Rewrites.value_lt (rewrites : Rewrites start count before after) :
    value after start count < (2 ^ 64) ^ count :=
  Uint256.value_lt fun index small => rewrites.small _ (Nat.le_add_right _ _) (by omega)

end Windows

/-! ## Subtracting a multiple -/

section MulSubbing

variable {u divisor : Limbs} {offset qhat divisorLen place lhs rhs : Nat}

/-- A limb of the difference, and what is borrowed for it. -/
theorem subLimb_eq (inside : place < u.length) (lhsFits : lhs < 2 ^ 64) (rhsFits : rhs ≤ 2 ^ 64) :
    ∃ digit borrow, subLimb u place lhs rhs = some (u.set place digit, borrow) ∧
      digit < 2 ^ 64 ∧ borrow ≤ 1 ∧ digit + rhs = lhs + borrow * 2 ^ 64 := by
  rw [subLimb]
  by_cases covers : lhs ≥ rhs
  · refine ⟨lhs - rhs, 0, ?_, by omega, by omega, by omega⟩
    rw [if_pos covers, subTrap_eq covers, Option.bind_eq_bind, Option.bind_some, put_eq inside,
      truncate_eq (by omega)]
    rfl
  · refine ⟨2 ^ 64 + lhs - rhs, 1, ?_, by omega, by omega, by omega⟩
    rw [if_neg covers, addTrap_eq (by omega), Option.bind_eq_bind, Option.bind_some,
      subTrap_eq (by omega), Option.bind_some, put_eq inside, truncate_eq (by omega)]
    rfl

/-- After `count` limbs the window lacks the multiple, up to what is carried and borrowed. -/
structure MulSubbed (u divisor : Limbs) (offset qhat count : Nat) (state : MulSub) : Prop where
  rewrites : Rewrites offset count u state.u
  carry : state.carry < 2 ^ 64
  borrow : state.borrow ≤ 1
  balance : value state.u offset count + qhat * value divisor 0 count =
    value u offset count + (state.carry + state.borrow) * (2 ^ 64) ^ count

theorem product_fits {factor carry : Nat} (qhatFits : qhat < 2 ^ 64) (factorFits : factor < 2 ^ 64)
    (carryFits : carry < 2 ^ 64) : qhat * factor + carry < 2 ^ 64 * 2 ^ 64 := by
  have product : qhat * factor ≤ (2 ^ 64 - 1) * (2 ^ 64 - 1) :=
    Nat.mul_le_mul (by omega) (by omega)
  omega

theorem mulSub_balance {base scale lower lower' dlower q d carry carry' borrow borrow' low digit lhs :
    Nat} (held : lower' + q * dlower = lower + (carry + borrow) * scale)
    (product : q * d + carry = low + base * carry')
    (difference : digit + (low + borrow) = lhs + borrow' * base) :
    lower' + digit * scale + q * (dlower + d * scale) =
      lower + lhs * scale + (carry' + borrow') * (scale * base) := by
  zify at *
  linear_combination held + scale * product + scale * difference

theorem mulSubLimb_step {count : Nat} {state : MulSub} (qhatFits : qhat < 2 ^ 64)
    (divisorHas : count < divisor.length) (divisorFits : limb divisor count < 2 ^ 64)
    (inside : offset + count < u.length) (fits : limb u (offset + count) < 2 ^ 64)
    (held : MulSubbed u divisor offset qhat count state) :
    ∃ after, mulSubLimb divisor offset qhat state count = some after ∧
      MulSubbed u divisor offset qhat (count + 1) after := by
  have total := product_fits qhatFits divisorFits held.carry
  have inside' : offset + count < state.u.length := held.rewrites.length ▸ inside
  have lhs_eq : limb state.u (offset + count) = limb u (offset + count) :=
    held.rewrites.same _ (.inr (Nat.le_refl _))
  have lowFits : truncate 64 (qhat * limb divisor count + state.carry) < 2 ^ 64 := truncate_lt _ _
  have borrowed := held.borrow
  have wide : truncate 64 (qhat * limb divisor count + state.carry) + state.borrow < 2 ^ 128 := by
    omega
  obtain ⟨digit, borrow, ran, digitFits, borrowFits, difference⟩ := @subLimb_eq state.u
    (offset + count) (limb u (offset + count))
    (truncate 64 (qhat * limb divisor count + state.carry) + state.borrow) inside' fits (by omega)
  refine ⟨⟨state.u.set (offset + count) digit, shr (qhat * limb divisor count + state.carry) 64,
    borrow⟩, ?_, held.rewrites.push digitFits inside', shr_lt total, borrowFits, ?_⟩
  · have productFits : qhat * limb divisor count < 2 ^ 128 :=
      Nat.lt_of_le_of_lt (Nat.le_add_right _ _) total
    rw [mulSubLimb, get_eq divisorHas, Option.bind_eq_bind, Option.bind_some, mulTrap_eq productFits,
      Option.bind_some, addTrap_eq total, Option.bind_some, addTrap_eq wide, Option.bind_some,
      get_eq inside', Option.bind_some, lhs_eq, ran]
    rfl
  · dsimp only
    rw [value_push inside', value_succ, value_succ, Nat.zero_add, pow_succ]
    exact mulSub_balance held.balance (truncate_add_shr 64 _).symm difference

/-- The window without the multiple, or that lifted by a power where the multiple is larger. -/
theorem mulSubAt_eq (qhatFits : qhat < 2 ^ 64) (divisorHas : divisorLen ≤ divisor.length)
    (divisorFits : ∀ place < divisorLen, limb divisor place < 2 ^ 64)
    (inside : offset + divisorLen < u.length)
    (fits : ∀ index ≤ divisorLen, limb u (offset + index) < 2 ^ 64) :
    ∃ after borrow, mulSubAt u divisor divisorLen offset qhat = some (after, decide (borrow = 1)) ∧
      Rewrites offset (divisorLen + 1) u after ∧ borrow ≤ 1 ∧
      value after offset (divisorLen + 1) + qhat * value divisor 0 divisorLen =
        value u offset (divisorLen + 1) + borrow * (2 ^ 64) ^ (divisorLen + 1) := by
  have start : MulSubbed u divisor offset qhat 0 ⟨u, 0, 0⟩ :=
    ⟨Rewrites.none u offset, Nat.two_pow_pos 64, Nat.zero_le 1, by
      rw [value_zero, value_zero, Nat.mul_zero, Nat.add_zero, Nat.zero_mul]⟩
  obtain ⟨state, ran, held⟩ := forUp_rule (MulSubbed u divisor offset qhat) start
    fun index small state held => mulSubLimb_step qhatFits (Nat.lt_of_lt_of_le small divisorHas)
      (divisorFits index small) (by omega) (fits index (Nat.le_of_lt small)) held
  have inside' : offset + divisorLen < state.u.length := held.rewrites.length ▸ inside
  have lhs_eq : limb state.u (offset + divisorLen) = limb u (offset + divisorLen) :=
    held.rewrites.same _ (.inr (Nat.le_refl _))
  have carried := held.carry
  have borrowed := held.borrow
  obtain ⟨digit, borrow, last, digitFits, borrowFits, difference⟩ := @subLimb_eq state.u
    (offset + divisorLen) (limb u (offset + divisorLen)) (state.carry + state.borrow) inside'
    (fits divisorLen (Nat.le_refl _)) (by omega)
  refine ⟨state.u.set (offset + divisorLen) digit, borrow, ?_, held.rewrites.push digitFits inside',
    borrowFits, ?_⟩
  · rw [mulSubAt, ran, Option.bind_eq_bind, Option.bind_some, addTrap_eq (by omega),
      Option.bind_eq_bind, Option.bind_some, get_eq inside', Option.bind_some, lhs_eq, last]
    rfl
  · rw [value_push inside', value_succ, pow_succ]
    have balance := @mulSub_balance (2 ^ 64) ((2 ^ 64) ^ divisorLen) _ _ _ qhat 0 _ 0 _ borrow
      state.carry digit _ held.balance (by ring) difference
    rw [Nat.zero_mul, Nat.add_zero, Nat.zero_add] at balance
    exact balance

end MulSubbing

/-! ## Adding the divisor back -/

section AddingBack

variable {u divisor : Limbs} {offset divisorLen : Nat}

structure AddedBack (u divisor : Limbs) (offset count : Nat) (state : AddBack) : Prop where
  rewrites : Rewrites offset count u state.u
  carry : state.carry ≤ 1
  balance : value state.u offset count + state.carry * (2 ^ 64) ^ count =
    value u offset count + value divisor 0 count

theorem addBack_balance {base scale lower lower' dlower d carry carry' low lhs : Nat}
    (held : lower' + carry * scale = lower + dlower) (sum : low + base * carry' = lhs + d + carry) :
    lower' + low * scale + carry' * (scale * base) = lower + lhs * scale + (dlower + d * scale) := by
  zify at *
  linear_combination held + scale * sum

theorem addBackLimb_step {count : Nat} {state : AddBack} (divisorHas : count < divisor.length)
    (divisorFits : limb divisor count < 2 ^ 64) (inside : offset + count < u.length)
    (fits : limb u (offset + count) < 2 ^ 64) (held : AddedBack u divisor offset count state) :
    ∃ after, addBackLimb divisor offset state count = some after ∧
      AddedBack u divisor offset (count + 1) after := by
  have inside' : offset + count < state.u.length := held.rewrites.length ▸ inside
  have lhs_eq : limb state.u (offset + count) = limb u (offset + count) :=
    held.rewrites.same _ (.inr (Nat.le_refl _))
  have carried := held.carry
  have carryFits : shr (limb u (offset + count) + limb divisor count + state.carry) 64 ≤ 1 := by
    rw [shr]
    omega
  refine ⟨⟨state.u.set (offset + count)
    (truncate 64 (limb u (offset + count) + limb divisor count + state.carry)),
    shr (limb u (offset + count) + limb divisor count + state.carry) 64⟩, ?_,
    held.rewrites.push (truncate_lt _ _) inside', carryFits, ?_⟩
  · rw [addBackLimb, get_eq inside', Option.bind_eq_bind, Option.bind_some, lhs_eq,
      get_eq divisorHas, Option.bind_some, addTrap_eq (by omega), Option.bind_some,
      addTrap_eq (by omega), Option.bind_some, put_eq inside']
    rfl
  · dsimp only
    rw [value_push inside', value_succ, value_succ, Nat.zero_add, pow_succ]
    exact addBack_balance held.balance (truncate_add_shr 64 _)

theorem addBackAt_eq (divisorHas : divisorLen ≤ divisor.length)
    (divisorFits : ∀ place < divisorLen, limb divisor place < 2 ^ 64)
    (inside : offset + divisorLen < u.length)
    (fits : ∀ index ≤ divisorLen, limb u (offset + index) < 2 ^ 64) :
    ∃ after overflow, addBackAt u divisor divisorLen offset = some after ∧
      Rewrites offset (divisorLen + 1) u after ∧
      value after offset (divisorLen + 1) + overflow * (2 ^ 64) ^ (divisorLen + 1) =
        value u offset (divisorLen + 1) + value divisor 0 divisorLen := by
  have start : AddedBack u divisor offset 0 ⟨u, 0⟩ :=
    ⟨Rewrites.none u offset, Nat.zero_le 1, by
      rw [value_zero, value_zero, Nat.zero_mul]⟩
  obtain ⟨state, ran, held⟩ := forUp_rule (AddedBack u divisor offset) start
    fun index small state held => addBackLimb_step (Nat.lt_of_lt_of_le small divisorHas)
      (divisorFits index small) (by omega) (fits index (Nat.le_of_lt small)) held
  have inside' : offset + divisorLen < state.u.length := held.rewrites.length ▸ inside
  have lhs_eq : limb state.u (offset + divisorLen) = limb u (offset + divisorLen) :=
    held.rewrites.same _ (.inr (Nat.le_refl _))
  have carried := held.carry
  refine ⟨_, shr (limb u (offset + divisorLen) + state.carry) 64, ?_,
    held.rewrites.push (truncate_lt 64 (limb u (offset + divisorLen) + state.carry)) inside', ?_⟩
  · rw [addBackAt, ran, Option.bind_eq_bind, Option.bind_some, get_eq inside',
      Option.bind_eq_bind, Option.bind_some, lhs_eq, put_eq inside', addWrap, truncate_eq
        (by omega : state.carry < 2 ^ 64)]
  · rw [value_push inside', value_succ, pow_succ]
    have balance := @addBack_balance (2 ^ 64) ((2 ^ 64) ^ divisorLen) _ _ _ 0 state.carry
      (shr (limb u (offset + divisorLen) + state.carry) 64)
      (truncate 64 (limb u (offset + divisorLen) + state.carry)) _ held.balance
      (truncate_add_shr 64 _)
    rw [Nat.zero_mul, Nat.add_zero] at balance
    exact balance

end AddingBack

end EvmZig.Uint256
