import EvmZig.Precompile.ModexpMontgomery
import EvmZig.Uint256.Knuth

/-!
# Montgomery exponentiation in limbs

A row adds the product by one limb and takes the lowest limb out; the limbs stay
below twice the modulus, so the carry column never wraps.
-/

set_option autoImplicit false

namespace EvmZig.Modexp

open Zig Uint256 Lib

variable {low base scale lower total held factor number x y : Nat} {t : Limbs}

/-! ## One limb of a row -/

section Rows

variable {a modulus t : Limbs} {limbCount count bi n0 factor : Nat}

theorem madd_fits {left right carry : Nat} (leftFits : left < 2 ^ 64) (rightFits : right < 2 ^ 64)
    (lowFits : low < 2 ^ 64) (carryFits : carry < 2 ^ 64) :
    left * right + low + carry < 2 ^ 128 := by
  have product : left * right ≤ (2 ^ 64 - 1) * (2 ^ 64 - 1) :=
    Nat.mul_le_mul (by omega) (by omega)
  omega

theorem mulAdd_balance {base scale lower lower' alower digit carry carry' low held bi : Nat}
    (invariant : lower' + carry * scale = lower + bi * alower)
    (sum : low + base * carry' = digit * bi + held + carry) :
    lower' + low * scale + carry' * (scale * base) =
      lower + held * scale + bi * (alower + digit * scale) := by
  zify at *
  linear_combination invariant + scale * sum

/-- The lower limbs hold the sum of the lower limbs of `t` and of the product. -/
structure MulAdded (a t : Limbs) (bi count : Nat) (state : Carried) : Prop where
  rewrites : Rewrites 0 count t state.t
  carry : state.carry < 2 ^ 64
  balance : value state.t 0 count + state.carry * (2 ^ 64) ^ count =
    value t 0 count + bi * value a 0 count

theorem mulAddLimb_step {state : Carried} (aHas : Holds a (count + 1)) (tHas : Holds t (count + 1))
    (biFits : bi < 2 ^ 64) (held : MulAdded a t bi count state) :
    ∃ after, mulAddLimb a bi state count = some after ∧ MulAdded a t bi (count + 1) after := by
  have aFits := aHas.small count (Nat.lt_succ_self count)
  have tFits := tHas.small count (Nat.lt_succ_self count)
  have inside : count < state.t.length := held.rewrites.length ▸ tHas.room
  have same : limb state.t count = limb t count := held.rewrites.same count (.inr (by omega))
  have fits := madd_fits aFits biFits tFits held.carry
  have placed : 0 + count < state.t.length := by rwa [Nat.zero_add]
  have pushed := held.rewrites.push
    (truncate_lt 64 (limb a count * bi + limb t count + state.carry)) placed
  have grown := value_push placed
    (truncate 64 (limb a count * bi + limb t count + state.carry))
  have high : shr (limb a count * bi + limb t count + state.carry) 64 < 2 ^ 64 := shr_lt fits
  rw [Nat.zero_add] at pushed grown
  refine ⟨⟨_, _⟩, ?_, pushed, high, ?_⟩
  · rw [mulAddLimb, get_eq aHas.room, Option.bind_eq_bind, Option.bind_some,
      mulTrap_eq (by omega), Option.bind_some, get_eq inside, Option.bind_some, same,
      addTrap_eq (by omega), Option.bind_some, addTrap_eq fits, Option.bind_some,
      put_eq inside, Option.bind_eq_bind, Option.bind_some, castTrap_eq high]
    rfl
  · dsimp only
    rw [grown, value_succ, value_succ, Nat.zero_add, pow_succ]
    exact mulAdd_balance held.balance (truncate_add_shr 64 _)

/-- The product by a limb is added over two more limbs. -/
theorem mulAddRow_eq (aHas : Holds a limbCount) (tHas : Holds t (limbCount + 1))
    (room : limbCount + 1 < t.length) (biFits : bi < 2 ^ 64) :
    ∃ after, mulAddRow limbCount a bi t = some after ∧ after.length = t.length ∧
      Holds after (limbCount + 2) ∧
      value after 0 (limbCount + 2) = value t 0 (limbCount + 1) + bi * value a 0 limbCount := by
  have start : MulAdded a t bi 0 ⟨t, 0⟩ :=
    ⟨Rewrites.none t 0, Nat.two_pow_pos 64, by
      rw [value_zero, value_zero, Nat.mul_zero, Nat.zero_mul]⟩
  obtain ⟨row, ran, held⟩ := forUp_rule (MulAdded a t bi) start fun index below state held =>
    mulAddLimb_step (aHas.mono below) (tHas.mono (by omega)) biFits held
  have inside : limbCount < row.t.length := held.rewrites.length ▸ tHas.room
  have same : limb row.t limbCount = limb t limbCount :=
    held.rewrites.same limbCount (.inr (by omega))
  have tFits := tHas.small limbCount (Nat.lt_succ_self limbCount)
  have carried := held.carry
  have split := truncate_add_shr 64 (limb t limbCount + row.carry)
  have high : shr (limb t limbCount + row.carry) 64 < 2 ^ 64 := by
    rw [shr]
    omega
  have placed : 0 + limbCount < row.t.length := by rwa [Nat.zero_add]
  have pushed := held.rewrites.push (truncate_lt 64 (limb t limbCount + row.carry)) placed
  have grown := value_push placed
    (truncate 64 (limb t limbCount + row.carry))
  rw [Nat.zero_add] at pushed grown
  have last : 0 + (limbCount + 1) <
      (row.t.set limbCount (truncate 64 (limb t limbCount + row.carry))).length := by
    rw [pushed.length, Nat.zero_add]
    exact room
  have pushedHigh := pushed.push high last
  have grownHigh := value_push last
    (shr (limb t limbCount + row.carry) 64)
  rw [Nat.zero_add] at pushedHigh grownHigh last
  refine ⟨_, ?_, pushedHigh.length, ⟨by rw [pushedHigh.length]; omega, fun place below =>
    pushedHigh.small place (Nat.zero_le _) (by omega)⟩, ?_⟩
  · rw [mulAddRow, ran]
    simp only [Option.bind_eq_bind]
    rw [Option.bind_some, get_eq inside, Option.bind_some, same,
      addTrap_eq (by omega), Option.bind_some, put_eq inside, Option.bind_some, castTrap_eq high,
      Option.bind_some, put_eq last]
  · have balance := @mulAdd_balance (2 ^ 64) ((2 ^ 64) ^ limbCount) _ _ (value a 0 limbCount) 0
      row.carry (shr (limb t limbCount + row.carry) 64)
      (truncate 64 (limb t limbCount + row.carry)) (limb t limbCount) bi held.balance (by
        rw [Nat.zero_mul, Nat.zero_add]
        exact split)
    rw [Nat.zero_mul, Nat.add_zero] at balance
    rw [grownHigh, grown, pow_succ, value_succ, Nat.zero_add]
    exact balance

/-! ## Taking the lowest limb out -/

theorem reduce_balance {base scale lower lower' mlower digit carry carry' low held factor : Nat}
    (invariant : base * lower' + carry * (scale * base) = lower + factor * mlower)
    (sum : low + base * carry' = factor * digit + held + carry) :
    base * (lower' + low * scale) + carry' * (scale * base * base) =
      lower + held * (scale * base) + factor * (mlower + digit * (scale * base)) := by
  zify at *
  linear_combination invariant + base * scale * sum

/-- The lower limbs hold, a place lower, the sum of the lower limbs of `t` and of the multiple. -/
structure Reduced (modulus t : Limbs) (factor count : Nat) (state : Carried) : Prop where
  rewrites : Rewrites 0 count t state.t
  carry : state.carry < 2 ^ 64
  balance : 2 ^ 64 * value state.t 0 count + state.carry * (2 ^ 64) ^ (count + 1) =
    value t 0 (count + 1) + factor * value modulus 0 (count + 1)

theorem reduceLimb_step {state : Carried} (modulusHas : Holds modulus (count + 2))
    (tHas : Holds t (count + 2)) (factorFits : factor < 2 ^ 64)
    (held : Reduced modulus t factor count state) :
    ∃ after, reduceLimb modulus factor state count = some after ∧
      Reduced modulus t factor (count + 1) after := by
  have modulusFits := modulusHas.small (count + 1) (Nat.lt_succ_self _)
  have tFits := tHas.small (count + 1) (Nat.lt_succ_self _)
  have inside : count + 1 < state.t.length := held.rewrites.length ▸ tHas.room
  have same : limb state.t (count + 1) = limb t (count + 1) :=
    held.rewrites.same (count + 1) (.inr (by omega))
  have fits := madd_fits factorFits modulusFits tFits held.carry
  have lower : count < state.t.length := Nat.lt_of_succ_lt inside
  have placed : 0 + count < state.t.length := by rwa [Nat.zero_add]
  have pushed := held.rewrites.push
    (truncate_lt 64 (factor * limb modulus (count + 1) + limb t (count + 1) + state.carry)) placed
  have grown := value_push placed
    (truncate 64 (factor * limb modulus (count + 1) + limb t (count + 1) + state.carry))
  have high : shr (factor * limb modulus (count + 1) + limb t (count + 1) + state.carry) 64 < 2 ^ 64 :=
    shr_lt fits
  rw [Nat.zero_add] at pushed grown
  refine ⟨⟨_, _⟩, ?_, pushed, high, ?_⟩
  · rw [reduceLimb, get_eq modulusHas.room, Option.bind_eq_bind, Option.bind_some,
      mulTrap_eq (by omega), Option.bind_some, get_eq inside, Option.bind_some, same,
      addTrap_eq (by omega), Option.bind_some, addTrap_eq fits, Option.bind_some,
      put_eq lower, Option.bind_eq_bind, Option.bind_some, castTrap_eq high]
    rfl
  · have balance := held.balance
    rw [pow_succ] at balance
    have next := reduce_balance balance (truncate_add_shr 64
      (factor * limb modulus (count + 1) + limb t (count + 1) + state.carry))
    dsimp only
    rw [grown, @value_succ t 0 (count + 1), @value_succ modulus 0 (count + 1), Nat.zero_add, pow_succ,
      pow_succ]
    exact next

/-- What a way to add the carry column has to do. -/
def Adds (column : Nat → Nat → Option Nat) : Prop :=
  ∀ left right, left + right < 2 ^ 64 → column left right = some (left + right)

theorem adds_trap : Adds (addTrap 64) := fun _ _ fits => addTrap_eq fits

theorem adds_wrap : Adds (fun left right => some (addWrap 64 left right)) := fun _ _ fits =>
  congrArg some (truncate_eq fits)

theorem column_balance {limbs carry above : Nat}
    (next : base * (lower + low * scale) + carry * (scale * base * base) = limbs + held *
      (scale * base) + factor * (total + 0 * (scale * base))) :
    base * (lower + low * scale) + (above + carry) * (scale * base) * base =
      limbs + held * (scale * base) + above * (scale * base * base) + factor * total := by
  zify at *
  linear_combination next

/-- The column holds what is left over the limbs, which is at most one. -/
theorem column_small {sum above high : Nat}
    (split : base * (lower + low * scale) + (above + high) * (scale * base) * base = sum)
    (bounded : sum < base * (2 * total)) (totalFits : total < scale * base) : above + high < 2 := by
  by_contra more
  have twice : 2 * (scale * base) ≤ (above + high) * (scale * base) :=
    Nat.mul_le_mul_right _ (Nat.le_of_not_lt more)
  have scaled : 2 * (scale * base) * base ≤ (above + high) * (scale * base) * base :=
    Nat.mul_le_mul_right base twice
  have bound : base * (2 * total) ≤ base * (2 * (scale * base)) :=
    Nat.mul_le_mul_left base (Nat.mul_le_mul_left 2 (Nat.le_of_lt totalFits))
  have same : base * (2 * (scale * base)) = 2 * (scale * base) * base := Nat.mul_comm _ _
  omega

/-- The lowest limb is out, and the column did not wrap. -/
theorem reduceRow_eq {sum : Nat} (nonempty : 0 < limbCount) (modulusHas : Holds modulus limbCount)
    (tHas : Holds t (limbCount + 2)) (modulusValue : value modulus 0 limbCount = total)
    (inverse : 2 ^ 64 ∣ limb modulus 0 * n0 + 1) (factorEq : mulWrap 64 (limb t 0) n0 = factor)
    (sumEq : value t 0 (limbCount + 2) + factor * total = sum)
    (bounded : sum < 2 ^ 64 * (2 * total)) :
    ∃ after, (∀ column, Adds column → reduceRow column limbCount modulus n0 t = some after) ∧
      after.length = t.length ∧ Holds after (limbCount + 1) ∧
        2 ^ 64 * value after 0 (limbCount + 1) = sum := by
  obtain ⟨lower, rfl⟩ : ∃ lower, limbCount = lower + 1 := ⟨limbCount - 1, by omega⟩
  have factorFits : factor < 2 ^ 64 := by
    rw [← factorEq]
    exact truncate_lt _ _
  have lowestFits := tHas.small 0 (by omega)
  have firstFits := modulusHas.small 0 (by omega)
  have lowestInside : 0 < t.length := Nat.lt_of_lt_of_le (Nat.succ_pos _) tHas.room
  have firstInside : 0 < modulus.length := Nat.lt_of_lt_of_le (Nat.succ_pos _) modulusHas.room
  have firstTotal := madd_fits factorFits firstFits lowestFits (Nat.two_pow_pos 64)
  rw [Nat.add_zero] at firstTotal
  have cancels : 2 ^ 64 ∣ factor * limb modulus 0 + limb t 0 := by
    have cleared := @factor_cancels 64 (limb modulus 0) (limb t 0) n0 inverse
    rw [factorEq] at cleared
    have whole := (Nat.modEq_zero_iff_dvd.mpr cleared).symm.trans
      ((truncate_modEq 64 (factor * limb modulus 0)).add_left (limb t 0))
    rw [Nat.add_comm]
    exact Nat.modEq_zero_iff_dvd.mp whole.symm
  have carryEq : 2 ^ 64 * shr (factor * limb modulus 0 + limb t 0) 64 =
      factor * limb modulus 0 + limb t 0 := Nat.mul_div_cancel' cancels
  have carryFits : shr (factor * limb modulus 0 + limb t 0) 64 < 2 ^ 64 := shr_lt firstTotal
  have start : Reduced modulus t factor 0 ⟨t, shr (factor * limb modulus 0 + limb t 0) 64⟩ :=
    ⟨Rewrites.none t 0, carryFits, by
      rw [value_zero, @value_succ t 0 0, @value_succ modulus 0 0, value_zero, value_zero, pow_zero,
        Nat.zero_add, Nat.zero_add, Nat.mul_zero, Nat.zero_add, pow_one, Nat.mul_one, Nat.mul_one,
        Nat.mul_comm, carryEq, Nat.zero_add, Nat.zero_add (limb modulus 0), Nat.add_comm]⟩
  obtain ⟨row, ran, held⟩ := @forUp_rule _ (reduceLimb modulus factor) lower _
    (Reduced modulus t factor) start
    fun index below state held => reduceLimb_step (modulusHas.mono (by omega))
      (tHas.mono (by omega)) factorFits held
  have topSame : limb row.t (lower + 1) = limb t (lower + 1) :=
    held.rewrites.same (lower + 1) (.inr (by omega))
  have topFits := tHas.small (lower + 1) (by omega)
  have carried := held.carry
  have split := truncate_add_shr 64 (limb t (lower + 1) + row.carry)
  have highFits : shr (limb t (lower + 1) + row.carry) 64 < 2 ^ 64 := by
    rw [shr]
    omega
  have length := held.rewrites.length
  have roomy := tHas.room
  have placed : 0 + lower < row.t.length := by omega
  have pushed := held.rewrites.push (truncate_lt 64 (limb t (lower + 1) + row.carry)) placed
  have grown := value_push placed
    (truncate 64 (limb t (lower + 1) + row.carry))
  rw [Nat.zero_add] at pushed grown placed
  have aboveSame : limb (row.t.set lower (truncate 64 (limb t (lower + 1) + row.carry))) (lower + 2) =
      limb t (lower + 2) := pushed.same (lower + 2) (.inr (by omega))
  have balance := held.balance
  rw [pow_succ (2 ^ 64 : Nat) lower] at balance
  have whole : 2 ^ 64 * (value row.t 0 lower +
      truncate 64 (limb t (lower + 1) + row.carry) * (2 ^ 64) ^ lower) +
      (limb t (lower + 2) + shr (limb t (lower + 1) + row.carry) 64) *
        ((2 ^ 64) ^ lower * 2 ^ 64) * 2 ^ 64 = sum := by
    have next := @reduce_balance (2 ^ 64) ((2 ^ 64) ^ lower) (value t 0 (lower + 1))
      (value row.t 0 lower) (value modulus 0 (lower + 1)) 0 row.carry
      (shr (limb t (lower + 1) + row.carry) 64) (truncate 64 (limb t (lower + 1) + row.carry))
      (limb t (lower + 1)) factor balance (by
        rw [Nat.mul_zero, Nat.zero_add]
        exact split)
    rw [← sumEq, ← modulusValue, @value_succ t 0 (lower + 2), @value_succ t 0 (lower + 1),
      Nat.zero_add, Nat.zero_add, pow_succ (2 ^ 64 : Nat) (lower + 1),
      pow_succ (2 ^ 64 : Nat) lower]
    exact column_balance next
  have totalFits : total < (2 ^ 64) ^ lower * 2 ^ 64 := by
    rw [← modulusValue, ← pow_succ]
    exact modulusHas.value_lt
  have bit := column_small whole bounded totalFits
  have columnFits : limb t (lower + 2) + shr (limb t (lower + 1) + row.carry) 64 < 2 ^ 64 := by omega
  have last : 0 + (lower + 1) <
      (row.t.set lower (truncate 64 (limb t (lower + 1) + row.carry))).length := by
    rw [pushed.length]
    omega
  have pushedTop := pushed.push columnFits last
  have grownTop := value_push last
    (limb t (lower + 2) + shr (limb t (lower + 1) + row.carry) 64)
  rw [Nat.zero_add] at pushedTop grownTop last
  refine ⟨_, ?_, pushedTop.length, ⟨by rw [pushedTop.length]; omega, fun place below =>
    pushedTop.small place (Nat.zero_le _) (by omega)⟩, ?_⟩
  · have above : lower + 2 <
        (row.t.set lower (truncate 64 (limb t (lower + 1) + row.carry))).length := by
      rw [pushed.length]
      omega
    intro column adds
    rw [reduceRow, get_eq lowestInside]
    simp only [Option.bind_eq_bind]
    rw [Option.bind_some, factorEq, get_eq firstInside, Option.bind_some, mulTrap_eq (by omega),
      Option.bind_some, addTrap_eq firstTotal, Option.bind_some, castTrap_eq carryFits,
      Option.bind_some, Nat.add_sub_cancel, ran, Option.bind_some, get_eq (by omega),
      Option.bind_some, topSame, addTrap_eq (by omega), Option.bind_some, put_eq placed,
      Option.bind_some, castTrap_eq highFits, Option.bind_some, get_eq above, Option.bind_some,
      aboveSame, adds _ _ columnFits, Option.bind_some, put_eq last]
  · rw [grownTop, grown, pow_succ, ← whole]
    ring

end Rows

/-! ## All rows -/

/-- Steps that agree on what they are run on give one run. -/
theorem forUp_agree {σ π : Type} {count : Nat} {step : π → σ → Nat → Option σ} {state : σ}
    (admits : π → Prop) (holds : Nat → σ → Prop) (start : holds 0 state)
    (stepped : ∀ index < count, ∀ state, holds index state →
      ∃ after, (∀ way, admits way → step way state index = some after) ∧ holds (index + 1) after) :
    ∃ after, (∀ way, admits way → forUp count (step way) state = some after) ∧ holds count after := by
  induction count with
  | zero => exact ⟨state, fun _ _ => rfl, start⟩
  | succ count ih =>
      obtain ⟨middle, ran, held⟩ := ih fun index below => stepped index (Nat.lt_succ_of_lt below)
      obtain ⟨after, moved, next⟩ := stepped count (Nat.lt_succ_self count) middle held
      refine ⟨after, fun way admitted => ?_, next⟩
      have before := ran way admitted
      rw [forUp] at before ⊢
      rw [List.range_succ, List.foldlM_append, before]
      simp [moved way admitted]

section Products

variable {a b modulus : Limbs} {limbCount n0 total : Nat}

/-- The modulus and the inverse of its lowest limb. -/
structure Reduces (limbCount : Nat) (modulus : Limbs) (n0 total : Nat) : Prop where
  nonempty : 0 < limbCount
  room : limbCount ≤ maxMontgomeryLimbs
  holds : HoldsLimbs limbCount modulus total
  inverse : 2 ^ 64 ∣ limb modulus 0 * n0 + 1

theorem HoldsLimbs.holds {limbs : Limbs} (held : HoldsLimbs limbCount limbs number)
    (room : limbCount ≤ maxMontgomeryLimbs) : Holds limbs limbCount where
  room := by rwa [held.length]
  small := held.small

/-- After some rows: the product by the limbs read, up to a multiple of the modulus, over as many
limbs. -/
structure RowsDone (limbCount : Nat) (a b : Limbs) (total index : Nat) (t : Limbs) : Prop where
  length : t.length = maxMontgomeryLimbs + 2
  holds : Holds t (limbCount + 1)
  bounded : value t 0 (limbCount + 1) < 2 * total
  balance : ∃ multiple, value t 0 (limbCount + 1) * (2 ^ 64) ^ index =
    value a 0 limbCount * value b 0 index + multiple * total

theorem row_bounded {current limb : Nat} (currentBounded : current < 2 * total)
    (limbFits : limb < base) (numberFits : number < total) (factorFits : factor < base) :
    current + limb * number + factor * total < base * (2 * total) := by
  obtain ⟨top, rfl⟩ : ∃ top, base = top + 1 := ⟨base - 1, by omega⟩
  have product : limb * number ≤ top * total :=
    Nat.mul_le_mul (Nat.le_of_lt_succ limbFits) (Nat.le_of_lt numberFits)
  have multiple : factor * total ≤ top * total :=
    Nat.mul_le_mul_right total (Nat.le_of_lt_succ factorFits)
  calc current + limb * number + factor * total < 2 * total + top * total + top * total := by omega
    _ = (top + 1) * (2 * total) := by ring

theorem rows_balance {current next limb partials multiple : Nat}
    (row : base * next = current + limb * number + factor * total)
    (held : current * scale = number * partials + multiple * total) :
    next * (scale * base) = number * (partials + limb * scale) + (multiple + factor * scale) *
      total := by
  zify at *
  linear_combination held + scale * row

theorem row_step {index : Nat} (reduces : Reduces limbCount modulus n0 total)
    (aHolds : HoldsLimbs limbCount a x) (aFits : x < total) (bHas : Holds b (index + 1))
    (done : RowsDone limbCount a b total index t) : ∃ after, (∀ column, Adds column → (do
        let bi ← b.get index
        let t ← mulAddRow limbCount a bi t
        reduceRow column limbCount modulus n0 t) = some after) ∧
      RowsDone limbCount a b total (index + 1) after := by
  have biFits := bHas.small index (Nat.lt_succ_self index)
  have room := reduces.room
  have length := done.length
  obtain ⟨added, mulAdded, addedLength, addedHolds, addedValue⟩ :=
    mulAddRow_eq (aHolds.holds room) done.holds (by omega) biFits
  have bounded := row_bounded done.bounded biFits aFits (truncate_lt 64 (limb added 0 * n0))
  obtain ⟨reduced, ran, reducedLength, reducedHolds, reducedValue⟩ := reduceRow_eq
    reduces.nonempty (reduces.holds.holds room) addedHolds reduces.holds.value reduces.inverse rfl rfl
    (by
      rw [addedValue, aHolds.value]
      exact bounded)
  rw [addedValue] at reducedValue
  obtain ⟨multiple, balance⟩ := done.balance
  refine ⟨reduced, ?_, reducedLength.trans (addedLength.trans length), reducedHolds, ?_, ?_⟩
  · intro column adds
    rw [get_eq bHas.room, Option.bind_eq_bind, Option.bind_some, mulAdded, Option.bind_eq_bind,
      Option.bind_some, ran column adds]
  · rw [← aHolds.value] at bounded
    exact Nat.lt_of_mul_lt_mul_left (reducedValue ▸ bounded)
  · refine ⟨multiple + mulWrap 64 (limb added 0) n0 * (2 ^ 64) ^ index, ?_⟩
    rw [pow_succ (2 ^ 64 : Nat) index, @value_succ b 0 index, Nat.zero_add]
    exact rows_balance reducedValue balance

/-! ## The last subtraction -/

structure Subtracted (modulus t : Limbs) (count : Nat) (state : Borrowed) : Prop where
  rewrites : Rewrites 0 count t state.t
  borrow : state.borrow ≤ 1
  balance : value state.t 0 count + value modulus 0 count =
    value t 0 count + state.borrow * (2 ^ 64) ^ count

theorem subModulus_balance {lower' mlower digit other borrow borrow' : Nat}
    (invariant : lower' + mlower = lower + borrow * scale)
    (difference : digit + other + borrow = held + borrow' * base) :
    lower' + digit * scale + (mlower + other * scale) =
      lower + held * scale + borrow' * (scale * base) := by
  zify at *
  linear_combination invariant + scale * difference

/-- The low limb of an `i128`, and whether it is negative. -/
theorem sub_limb {other borrow : Nat} (heldFits : held < 2 ^ 64) (otherFits : other < 2 ^ 64)
    (borrowFits : borrow ≤ 1) : (((held : Int) - other - borrow) % 2 ^ 64).toNat < 2 ^ 64 ∧
      (((held : Int) - other - borrow) % 2 ^ 64).toNat + other + borrow =
        held + (if (held : Int) - other - borrow < 0 then 1 else 0) * 2 ^ 64 := by
  split <;> omega

theorem subModulusLimb_step {count : Nat} {state : Borrowed}
    (modulusHas : Holds modulus (count + 1)) (tHas : Holds t (count + 1))
    (held : Subtracted modulus t count state) :
    ∃ after, subModulusLimb modulus state count = some after ∧
      Subtracted modulus t (count + 1) after := by
  have modulusFits := modulusHas.small count (Nat.lt_succ_self count)
  have tFits := tHas.small count (Nat.lt_succ_self count)
  have inside : count < state.t.length := held.rewrites.length ▸ tHas.room
  have same : limb state.t count = limb t count := held.rewrites.same count (.inr (by omega))
  obtain ⟨small, difference⟩ := sub_limb tFits modulusFits held.borrow
  have placed : 0 + count < state.t.length := by rwa [Nat.zero_add]
  have pushed := held.rewrites.push small placed
  have grown := value_push placed
    ((((limb t count : Int) - limb modulus count - state.borrow) % 2 ^ 64).toNat)
  rw [Nat.zero_add] at pushed grown
  refine ⟨⟨_, if (limb t count : Int) - limb modulus count - state.borrow < 0 then 1 else 0⟩, ?_,
    pushed, ?_, ?_⟩
  · rw [subModulusLimb, get_eq inside, Option.bind_eq_bind, Option.bind_some, same,
      get_eq modulusHas.room, Option.bind_some]
    dsimp only
    rw [put_eq inside]
    rfl
  · dsimp only
    split <;> omega
  · dsimp only
    rw [grown, value_succ, value_succ, Nat.zero_add, pow_succ]
    exact subModulus_balance held.balance difference

/-- Below twice the modulus the subtraction reduces. -/
theorem subModulus_eq (modulusHas : Holds modulus limbCount)
    (modulusValue : value modulus 0 limbCount = total) (tHas : Holds t (limbCount + 1))
    (bounded : value t 0 (limbCount + 1) < 2 * total) :
    ∃ after, subModulus limbCount modulus t = some after ∧ after.length = t.length ∧
      Holds after limbCount ∧ value after 0 limbCount < total ∧
      value after 0 limbCount ≡ value t 0 (limbCount + 1) [MOD total] := by
  have lower := tHas.mono (Nat.le_succ limbCount)
  have totalFits := modulusHas.value_lt
  have lowerFits := lower.value_lt
  have tSplit := @value_succ t 0 limbCount
  rw [Nat.zero_add] at tSplit
  rw [modulusValue] at totalFits
  have compared := ltFrom_eq lower modulusHas
  rw [modulusValue] at compared
  rw [subModulus, get_eq tHas.room, Option.bind_eq_bind, Option.bind_some, compared,
    Option.bind_eq_bind, Option.bind_some]
  generalize scaleEq : (2 ^ 64) ^ limbCount = scale at *
  by_cases large : limb t limbCount ≠ 0 ∨ decide (value t 0 limbCount < total) = false
  · rw [if_pos large]
    have start : Subtracted modulus t 0 ⟨t, 0⟩ :=
      ⟨Rewrites.none t 0, Nat.zero_le 1, by
        rw [value_zero, value_zero, Nat.zero_mul]⟩
    obtain ⟨state, ran, held⟩ := forUp_rule (Subtracted modulus t) start fun index below state held =>
      subModulusLimb_step (modulusHas.mono below) (lower.mono below) held
    have afterHolds : Holds state.t limbCount := ⟨by
      rw [held.rewrites.length]
      exact lower.room, fun place below => held.rewrites.small place (Nat.zero_le _) (by omega)⟩
    have afterFits := afterHolds.value_lt
    have balance := held.balance
    have borrowed := held.borrow
    rw [scaleEq] at afterFits balance
    rw [modulusValue] at balance
    have reaches : total ≤ value t 0 (limbCount + 1) := by
      rw [tSplit]
      rcases large with some | more
      · have one : scale ≤ limb t limbCount * scale :=
          Nat.le_mul_of_pos_left _ (Nat.pos_of_ne_zero some)
        omega
      · have notLess := of_decide_eq_false more
        omega
    have reduced : value state.t 0 limbCount + total = value t 0 (limbCount + 1) := by
      have top : limb t limbCount < 2 := by
        by_contra two
        have twice : 2 * scale ≤ limb t limbCount * scale :=
          Nat.mul_le_mul_right _ (Nat.le_of_not_lt two)
        omega
      rw [tSplit] at reaches bounded ⊢
      generalize limb t limbCount = digit at *
      generalize state.borrow = borrow at *
      obtain rfl | rfl : digit = 0 ∨ digit = 1 := by omega
      · obtain rfl | rfl : borrow = 0 ∨ borrow = 1 := by omega
        · omega
        · omega
      · obtain rfl | rfl : borrow = 0 ∨ borrow = 1 := by omega
        · omega
        · omega
    refine ⟨state.t, ?_, held.rewrites.length, afterHolds, by omega, ?_⟩
    · rw [ran]
      rfl
    · rw [← reduced]
      exact Nat.add_modEq_right.symm
  · rw [if_neg large]
    have none : limb t limbCount = 0 := by
      by_contra some
      exact large (.inl some)
    have less : value t 0 limbCount < total := by
      by_contra more
      exact large (.inr (decide_eq_false more))
    refine ⟨t, rfl, rfl, lower, less, ?_⟩
    rw [tSplit, none, Nat.zero_mul, Nat.add_zero]

/-- The limb product is the product over the radix, reduced. -/
theorem montMulColumn_eq (reduces : Reduces limbCount modulus n0 total)
    (aHolds : HoldsLimbs limbCount a x) (bHolds : HoldsLimbs limbCount b y) (aFits : x < total) :
    ∃ product, (∀ column, Adds column →
        montMulColumn column limbCount a b modulus n0 = some product) ∧
      ∃ z, HoldsLimbs limbCount product z ∧ z < total ∧
        (2 ^ 64) ^ limbCount * z ≡ x * y [MOD total] := by
  have room := reduces.room
  have positive : 0 < total := Nat.lt_of_le_of_lt (Nat.zero_le _) aFits
  have cleared : RowsDone limbCount a b total 0 (clearLimbs (maxMontgomeryLimbs + 2)) := by
    refine ⟨List.length_replicate, ⟨?_, ?_⟩, ?_, 0, ?_⟩
    · rw [clearLimbs, List.length_replicate]
      omega
    · intro place _
      rw [clearLimbs_limb]
      exact Nat.two_pow_pos 64
    · rw [clearLimbs_value]
      omega
    · rw [clearLimbs_value, value_zero, Nat.zero_mul, Nat.mul_zero, Nat.zero_mul]
  obtain ⟨t, ran, done⟩ := forUp_agree Adds (RowsDone limbCount a b total) cleared
    fun index below t done => row_step reduces aHolds aFits ((bHolds.holds room).mono below) done
  obtain ⟨after, subtracted, length, holds, small, same⟩ :=
    subModulus_eq (reduces.holds.holds room) reduces.holds.value done.holds done.bounded
  have taken : (after.take limbCount).length = limbCount := by
    rw [List.length_take, length, done.length]
    omega
  have kept : ∀ place < limbCount,
      limb (after.take limbCount ++ clearLimbs (maxMontgomeryLimbs - limbCount)) place =
        limb after place := by
    intro place below
    rw [limb_append_left (by rwa [taken]), limb, limb, List.getD_eq_getElem?_getD,
      List.getD_eq_getElem?_getD, List.getElem?_take_of_lt below]
  refine ⟨after.take limbCount ++ clearLimbs (maxMontgomeryLimbs - limbCount), ?_,
    value after 0 limbCount, ⟨?_, ?_, ?_⟩, small, ?_⟩
  · intro column adds
    rw [montMulColumn, ran column adds, Option.bind_eq_bind, Option.bind_some, subtracted]
    rfl
  · rw [List.length_append, taken, clearLimbs, List.length_replicate]
    omega
  · intro place below
    rw [kept place below]
    exact holds.small place below
  · exact value_congr fun index below => by
      rw [Nat.zero_add]
      exact kept index below
  · obtain ⟨multiple, balance⟩ := done.balance
    rw [aHolds.value, bHolds.value, Nat.mul_comm] at balance
    refine (same.mul_left _).trans ?_
    rw [balance, Nat.ModEq, Nat.add_mul_mod_self_right]

theorem montMulLimbs_multiplies (reduces : Reduces limbCount modulus n0 total) :
    Multiplies Lib.total (HoldsLimbs limbCount) total ((2 ^ 64) ^ limbCount)
      (fun left right => montMulLimbs limbCount left right modulus n0) :=
  fun _ _ _ _ leftHolds rightHolds leftFits _ => by
    obtain ⟨product, ran, exact⟩ := montMulColumn_eq reduces leftHolds rightHolds leftFits
    exact ⟨product, ran _ adds_wrap, exact⟩

/-- Adding the column with a check changes nothing. -/
theorem montMulLimbs_checked (reduces : Reduces limbCount modulus n0 total)
    (aHolds : HoldsLimbs limbCount a x) (bHolds : HoldsLimbs limbCount b y) (aFits : x < total) :
    montMulColumn (addTrap 64) limbCount a b modulus n0 = montMulLimbs limbCount a b modulus n0 ∧
      (montMulLimbs limbCount a b modulus n0).isSome := by
  obtain ⟨product, ran, _⟩ := montMulColumn_eq reduces aHolds bHolds aFits
  have wrapped : montMulLimbs limbCount a b modulus n0 = some product := ran _ adds_wrap
  rw [ran _ adds_trap, wrapped]
  exact ⟨rfl, rfl⟩

/-! ## Powers -/

theorem oneLimbs_holds (reduces : Reduces limbCount modulus n0 total) :
    HoldsLimbs limbCount oneLimbs 1 where
  length := rfl
  small place below := by
    cases place with
    | zero => exact Nat.one_lt_two_pow (by decide)
    | succ place =>
        rw [oneLimbs, limb_cons_succ, clearLimbs_limb]
        exact Nat.two_pow_pos 64
  value := by
    obtain ⟨lower, rfl⟩ : ∃ lower, limbCount = lower + 1 :=
      ⟨limbCount - 1, by have nonempty := reduces.nonempty; omega⟩
    rw [oneLimbs, value_cons, clearLimbs_value, Nat.mul_zero]

theorem limbsPow_eq {base r2 : Limbs} (reduces : Reduces limbCount modulus n0 total)
    (odd : total % 2 = 1) (large : 1 < total) (baseHolds : HoldsLimbs limbCount base x)
    (baseFits : x < total) (squareHolds : HoldsLimbs limbCount r2 y) (squareFits : y < total)
    (squared : y ≡ (2 ^ 64) ^ limbCount * (2 ^ 64) ^ limbCount [MOD total])
    (exponentBytes : List UInt8) :
    ∃ result, limbsPow limbCount base r2 modulus n0 exponentBytes = some result ∧
      HoldsLimbs limbCount result (x ^ beValue exponentBytes % total) := by
  have multiplies := montMulLimbs_multiplies reduces
  have coprime : Nat.Coprime total ((2 ^ 64) ^ limbCount) :=
    Nat.Coprime.pow_right _ (coprime_two_pow odd 64)
  have oneHolds := oneLimbs_holds reduces
  obtain ⟨baseMont, entered, baseScaled⟩ := multiplies.enter coprime x 1
    baseHolds baseFits (by rw [pow_one]) squareHolds squareFits squared
  obtain ⟨oneMont, begun, oneScaled⟩ := multiplies.enter coprime x 0
    oneHolds large (by rw [pow_zero]) squareHolds squareFits squared
  obtain ⟨resultMont, climbed, powered⟩ :=
    ladder_meets (multiplies.climbs coprime baseScaled) oneScaled exponentBytes
  obtain ⟨result, left, exact⟩ := multiplies.leave coprime powered oneHolds large
  refine ⟨result, ?_, exact⟩
  have same : ladder (fun result => montMulLimbs limbCount result result modulus n0)
      (fun result => montMulLimbs limbCount result baseMont modulus n0) (some baseMont) oneMont
      exponentBytes = some resultMont := climbed
  rw [limbsPow, entered, Option.bind_eq_bind, Option.bind_some, begun,
    Option.bind_some, same, Option.bind_some, left]

end Products

end EvmZig.Modexp
