import EvmZig.Execution.Result

/-!
# Frame-local gas arithmetic

The accounting operations shared by bytecode frames and native activations.
They read and write the gas counters of a receiver and charge regular gas
through its own `trackGas`, which also performs the receiver's out-of-gas
transition.
-/

set_option autoImplicit false

namespace EvmZig.Execution

open Zig
open Lib (SpillLedger)

/-- A carrier of gas counters with its own way to charge regular gas.  A live
receiver pays what it has; short of gas it stops with nothing left. -/
class Receiver (σ : Type) where
  gas : σ → Counters
  setGas : Counters → σ → σ
  live : σ → Prop
  trackGas : Int → Action σ Empty Bool
  gas_setGas : ∀ counters self, gas (setGas counters self) = counters
  trackGas_paid : ∀ {amount self}, live self → amount ≤ (gas self).gasLeft →
    FitsI64 ((gas self).gasLeft - amount) →
    trackGas amount self =
      .ok true (setGas { gas self with gasLeft := (gas self).gasLeft - amount } self)
  trackGas_short : ∀ {amount self}, live self → (gas self).gasLeft < amount →
    ∃ after, trackGas amount self = .ok false after ∧ gas after = { gas self with gasLeft := 0 }
  trackGas_ok : ∀ {amount self paid after}, trackGas amount self = .ok paid after →
    gas after = { gas self with gasLeft := if paid then (gas self).gasLeft - amount else 0 } ∧
      FitsI64 (gas after).gasLeft

export Receiver (gas setGas trackGas)

variable {σ : Type} [Receiver σ]

/-- Assign to the counters. -/
def assignGas (change : Counters → Option Counters) : Action σ Empty Unit := fun self =>
  match change (gas self) with
  | some counters => .ok () (setGas counters self)
  | none => .illegal

def repayStateGasSpill (self : Counters) : Option Counters := do
  assert (0 ≤ self.gasReservoir)
  assert (0 ≤ self.stateGasFromGasLeft)
  let repayment := min self.gasReservoir self.stateGasFromGasLeft
  let gasLeft ← addI64 self.gasLeft repayment
  let gasReservoir ← subI64 self.gasReservoir repayment
  let stateGasFromGasLeft ← subI64 self.stateGasFromGasLeft repayment
  assert (gasReservoir = 0 ∨ stateGasFromGasLeft = 0)
  return { self with gasLeft, gasReservoir, stateGasFromGasLeft }

def refillStateGas (amount : Int) (self : Counters) : Option Counters := do
  if amount ≤ 0 then return self
  let toRegular := min self.stateGasFromGasLeft amount
  let stateGasFromGasLeft ← subI64 self.stateGasFromGasLeft toRegular
  let toReservoir ← subI64 amount toRegular
  return { self with
    gasLeft := addSatI64 self.gasLeft toRegular
    stateGasFromGasLeft
    gasReservoir := addSatI64 self.gasReservoir toReservoir
    stateGasSpent := subSatI64 self.stateGasSpent amount }

def trackStateGas (amount : Int) : Action σ Empty Bool := do
  if amount ≤ 0 then return true
  let fromReservoir ← Action.read fun self => min (max (gas self).gasReservoir 0) amount
  let fromRegular ← subI64 amount fromReservoir
  if !(← trackGas fromRegular) then return false
  assignGas fun self => do
    let gasReservoir ← subI64 self.gasReservoir fromReservoir
    return { self with
      gasReservoir
      stateGasFromGasLeft := addSatI64 self.stateGasFromGasLeft fromRegular
      stateGasSpent := addSatI64 self.stateGasSpent amount }
  return true

/-- The assignments of `settleChild` that take over the state gas of the child. -/
def takeStateGas (child : HostResult) (self : Counters) : Counters :=
  { self with
    gasReservoir := child.gas.gasReservoir
    stateGasSpent := addSatI64 self.stateGasSpent child.gas.stateGasSpent
    stateGasFromGasLeft := addSatI64 self.stateGasFromGasLeft child.gas.stateGasFromGasLeft }

/-- The refund of a child that succeeded. -/
def takeRefund (child : HostResult) (self : Counters) : Option Counters := do
  let gasRefund ← addI64 self.gasRefund child.gas.gasRefund
  return { self with gasRefund }

def settleChild (gasLimit stateGasCharged : Int) (child : HostResult) : Action σ Empty Bool := do
  let succeeded := child.isSuccess
  let charge ← subI64 gasLimit (max child.gas.gasLeft 0)
  let gasCharged ← trackGas charge
  assignGas fun self => some (takeStateGas child self)
  if succeeded then
    assignGas repayStateGasSpill
  else
    assignGas (refillStateGas stateGasCharged)
  if !gasCharged then return false
  if succeeded then assignGas (takeRefund child)
  return true

/-! ## The operations on unbounded counters -/

namespace Counters

/-- `trackStateGas` without bounds. -/
def charged (amount : Int) (paid : Bool) (self : Counters) : Counters :=
  if amount ≤ 0 then self
  else if paid then self.withLedger (self.ledger.charge amount)
  else { self with gasLeft := 0 }

/-- `refillStateGas` without bounds. -/
def refilled (amount : Int) (self : Counters) : Counters :=
  if amount ≤ 0 then self else self.withLedger (self.ledger.credit amount)

/-- The first half of `settleChild`: the regular gas the child used up is
charged and its state gas is taken over. -/
def absorbed (gasLimit : Int) (child : HostResult) (paid : Bool) (self : Counters) : Counters :=
  let charge := gasLimit - max child.gas.gasLeft 0
  let charged := { self with gasLeft := if paid then self.gasLeft - charge else 0 }
  charged.withLedger (charged.ledger.absorb child.gas.ledger)

/-- `settleChild` without bounds. -/
def settled (gasLimit stateGasCharged : Int) (child : HostResult) (paid : Bool)
    (self : Counters) : Counters :=
  let absorbed := self.absorbed gasLimit child paid
  if child.isSuccess then
    { absorbed.withLedger absorbed.ledger.repay with
      gasRefund := if paid then self.gasRefund + child.gas.gasRefund else self.gasRefund }
  else absorbed.refilled stateGasCharged

/-- Nothing overflows or saturates while a child is settled. -/
structure SettleFits (gasLimit stateGasCharged : Int) (child : HostResult) (paid : Bool)
    (before : Counters) : Prop where
  charge : FitsI64 (gasLimit - max child.gas.gasLeft 0)
  absorbed : (before.absorbed gasLimit child paid).Fits
  settled : (before.settled gasLimit stateGasCharged child paid).Fits

variable {opening amount gasLimit stateGasCharged : Int} {paid : Bool} {self : Counters}
  {child : HostResult}

theorem charged_sound (sound : self.Sound opening) :
    (self.charged amount paid).Sound opening := by
  by_cases none : amount ≤ 0
  · simpa only [charged, if_pos none] using sound
  simp only [charged, if_neg none]
  cases paid with
  | false => exact sound.of_same ⟨rfl, rfl, rfl⟩
  | true => exact sound.charge (by omega)

theorem refilled_sound (sound : self.Sound opening) : (self.refilled amount).Sound opening := by
  by_cases none : amount ≤ 0
  · simpa only [refilled, if_pos none] using sound
  · simp only [refilled, if_neg none]
    exact sound.credit (by omega)

theorem refilled_same {other : Counters} (same : self.SameState other) :
    (self.refilled amount).SameState (other.refilled amount) := by
  by_cases none : amount ≤ 0
  · simpa only [refilled, if_pos none] using same
  · simp only [refilled, if_neg none]
    exact same.credit amount

theorem refilled_charged (sound : self.Sound opening) :
    ((self.charged amount true).refilled amount).SameState self := by
  by_cases none : amount ≤ 0
  · simp only [refilled, charged, if_pos none]
    exact SpillLedger.Same.refl _
  · simp only [refilled, charged, if_neg none, if_true, ledger_withLedger]
    rw [sound.credit_charge (by omega)]
    exact SpillLedger.Same.refl _

theorem absorbed_same (gasLimit : Int) (child : HostResult) (paid : Bool) (self : Counters) :
    SpillLedger.Same (self.absorbed gasLimit child paid).ledger
      (self.ledger.absorb child.gas.ledger) := ⟨rfl, rfl, rfl⟩

/-- A child that was rewound leaves the state gas of its parent as it was,
apart from the refill. -/
theorem settled_failed {left : Int} (failed : child.isSuccess = false)
    (rewound : SpillLedger.Same child.gas.ledger (SpillLedger.opened left self.gasReservoir)) :
    (self.settled gasLimit stateGasCharged child paid).SameState
      (self.refilled stateGasCharged) := by
  simp only [settled, failed]
  exact refilled_same ((absorbed_same gasLimit child paid self).trans
    (SpillLedger.absorb_rewound rewound))

theorem settled_sound {left : Int} (sound : self.Sound opening)
    (childSound : child.gas.Sound self.gasReservoir)
    (rewound : child.isSuccess = false →
      SpillLedger.Same child.gas.ledger (SpillLedger.opened left self.gasReservoir)) :
    (self.settled gasLimit stateGasCharged child paid).Sound opening := by
  cases succeeded : child.isSuccess with
  | false =>
      exact (refilled_sound sound).of_same (settled_failed succeeded (rewound succeeded))
  | true =>
      simp only [settled, succeeded, if_true]
      exact (sound.absorb_repay childSound).of_same ⟨rfl, rfl, rfl⟩

end Counters

/-! ## The operations agree with them inside the range -/

variable {opening amount gasLimit stateGasCharged : Int} {paid : Bool} {counters : Counters}
  {child : HostResult} {self after : σ}

theorem assignGas_ok {change : Counters → Option Counters} {value : Unit} :
    (assignGas change : Action σ Empty Unit) self = .ok value after ↔
      ∃ counters, change (gas self) = some counters ∧ setGas counters self = after := by
  unfold assignGas
  cases change (gas self) <;> simp

theorem refillStateGas_eq (spilledNonneg : 0 ≤ counters.stateGasFromGasLeft)
    (amountFits : FitsI64 amount) (fits : (counters.refilled amount).Fits) :
    refillStateGas amount counters = some (counters.refilled amount) := by
  by_cases none : amount ≤ 0
  · simp [refillStateGas, Counters.refilled, none]
  simp only [Counters.refilled, if_neg none] at fits ⊢
  have spilledFits := fits.stateGasFromGasLeft
  have reservoirFits : FitsI64 (amount - min counters.stateGasFromGasLeft amount) := by
    simp only [FitsI64, i64Min_eq, i64Max_eq] at amountFits ⊢
    omega
  have leftExact := addSatI64_eq fits.gasLeft
  have reservoirExact := addSatI64_eq fits.gasReservoir
  have spentExact := subSatI64_eq fits.stateGasSpent
  simp only [Counters.withLedger, SpillLedger.credit, SpillLedger.owed, Counters.ledger]
    at spilledFits leftExact reservoirExact spentExact ⊢
  simp only [refillStateGas, if_neg none, subI64_eq spilledFits, subI64_eq reservoirFits,
    leftExact, reservoirExact, spentExact, Option.bind_eq_bind, Option.bind_some,
    Option.pure_def]

/-- The assertions of `repayStateGasSpill` hold on nonnegative pools. -/
theorem repayStateGasSpill_eq (reservoirNonneg : 0 ≤ counters.gasReservoir)
    (spilledNonneg : 0 ≤ counters.stateGasFromGasLeft)
    (fits : (counters.withLedger counters.ledger.repay).Fits) :
    repayStateGasSpill counters = some (counters.withLedger counters.ledger.repay) := by
  have leftFits := fits.gasLeft
  have reservoirFits := fits.gasReservoir
  have spilledFits := fits.stateGasFromGasLeft
  have settled : counters.gasReservoir - min counters.gasReservoir counters.stateGasFromGasLeft = 0 ∨
      counters.stateGasFromGasLeft -
        min counters.gasReservoir counters.stateGasFromGasLeft = 0 := by
    omega
  simp only [Counters.withLedger, SpillLedger.repay, SpillLedger.repayable, Counters.ledger]
    at leftFits reservoirFits spilledFits ⊢
  simp only [repayStateGasSpill, assert_true reservoirNonneg, assert_true spilledNonneg,
    addI64_eq leftFits, subI64_eq reservoirFits, subI64_eq spilledFits, assert_true settled,
    Option.bind_eq_bind, Option.bind_some, Option.pure_def]

theorem trackStateGas_ok (ran : trackStateGas amount self = .ok paid after)
    (fits : ((gas self).charged amount paid).Fits) :
    gas after = (gas self).charged amount paid := by
  by_cases none : amount ≤ 0
  · simp only [trackStateGas, if_pos none, Action.pure_run, Outcome.ok.injEq] at ran
    obtain ⟨rfl, rfl⟩ := ran
    simp only [Counters.charged, if_pos none]
  simp only [trackStateGas, if_neg none, Action.bind_eq_ok, Action.read_run,
    Action.liftOption_eq_ok, Outcome.ok.injEq] at ran
  obtain ⟨fromReservoir, middle, ⟨rfl, rfl⟩, fromRegular, middle', ⟨subtracted, rfl⟩, covered,
    charged, tracked, rest⟩ := ran
  obtain ⟨-, rfl⟩ := subI64_eq_some.mp subtracted
  obtain ⟨chargedGas, -⟩ := Receiver.trackGas_ok tracked
  cases covered with
  | false =>
      simp only [Bool.not_false, if_true, Action.pure_run, Outcome.ok.injEq] at rest
      obtain ⟨rfl, rfl⟩ := rest
      simp only [Counters.charged, if_neg none, chargedGas]
      rfl
  | true =>
      simp only [Bool.not_true, Bool.false_eq_true, if_false, Action.bind_eq_ok, Action.pure_run,
        Outcome.ok.injEq, assignGas_ok] at rest
      obtain ⟨_, assigned, ⟨counters, changed, rfl⟩, rfl, rfl⟩ := rest
      simp only [Option.bind_eq_bind, Option.bind_eq_some_iff, Option.pure_def,
        Option.some.injEq] at changed
      obtain ⟨gasReservoir, reservoir, rfl⟩ := changed
      obtain ⟨-, rfl⟩ := subI64_eq_some.mp reservoir
      simp only [Counters.charged, if_neg none, if_true] at fits ⊢
      have spentExact := addSatI64_eq fits.stateGasSpent
      have spilledExact := addSatI64_eq fits.stateGasFromGasLeft
      simp only [Counters.ledger, SpillLedger.covered] at spentExact spilledExact
      rw [Receiver.gas_setGas, chargedGas]
      simp only [Counters.withLedger, SpillLedger.charge, SpillLedger.covered, Counters.ledger,
        if_true, spentExact, spilledExact]

/-- Once the regular gas of the child is charged or found missing, settling it
returns with the exact counters. -/
theorem settleChild_run {charged : σ}
    (tracked : trackGas (gasLimit - max child.gas.gasLeft 0) self = .ok paid charged)
    (fits : (gas self).SettleFits gasLimit stateGasCharged child paid)
    (chargedFits : FitsI64 stateGasCharged) (reservoirNonneg : 0 ≤ child.gas.gasReservoir)
    (spilledNonneg : 0 ≤ (gas self).stateGasFromGasLeft + child.gas.stateGasFromGasLeft) :
    ∃ after, settleChild gasLimit stateGasCharged child self = .ok paid after ∧
      gas after = (gas self).settled gasLimit stateGasCharged child paid := by
  obtain ⟨chargeFits, absorbedFits, settledFits⟩ := fits
  obtain ⟨chargedGas, -⟩ := Receiver.trackGas_ok tracked
  set absorbed := (gas self).absorbed gasLimit child paid with absorbedDef
  have takenOver : takeStateGas child (gas charged) = absorbed := by
    have spentExact := addSatI64_eq absorbedFits.stateGasSpent
    have spilledExact := addSatI64_eq absorbedFits.stateGasFromGasLeft
    simp only [Counters.ledger] at spentExact spilledExact
    rw [chargedGas]
    simp only [absorbedDef, Counters.absorbed, Counters.withLedger, SpillLedger.absorb,
      Counters.ledger, takeStateGas, spentExact, spilledExact]
  simp only [settleChild, subI64_eq chargeFits, Action.bind_run, Action.liftM_some, tracked,
    assignGas, takenOver]
  cases succeeded : child.isSuccess with
  | false =>
      simp only [Counters.settled, succeeded, Bool.false_eq_true, if_false, ← absorbedDef]
        at settledFits ⊢
      have refilled : refillStateGas stateGasCharged absorbed =
          some (absorbed.refilled stateGasCharged) :=
        refillStateGas_eq spilledNonneg chargedFits settledFits
      cases paid <;>
        simp [Action.bind_run, assignGas, Receiver.gas_setGas, refilled]
  | true =>
      simp only [Counters.settled, succeeded, if_true, ← absorbedDef] at settledFits ⊢
      have repayFits : (absorbed.withLedger absorbed.ledger.repay).Fits :=
        ⟨settledFits.gasLeft, absorbedFits.gasRefund, settledFits.gasReservoir,
          settledFits.stateGasSpent, settledFits.stateGasFromGasLeft⟩
      have repaid : repayStateGasSpill absorbed = some (absorbed.withLedger absorbed.ledger.repay) :=
        repayStateGasSpill_eq reservoirNonneg spilledNonneg repayFits
      cases paid with
      | false =>
          have unchanged : absorbed.gasRefund = (gas self).gasRefund := rfl
          simp [Action.map_run, assignGas, Receiver.gas_setGas, repaid, Counters.ext_iff, unchanged]
      | true =>
          have refund : takeRefund child (absorbed.withLedger absorbed.ledger.repay) =
              some { absorbed.withLedger absorbed.ledger.repay with
                gasRefund := (gas self).gasRefund + child.gas.gasRefund } := by
            have sum : addI64 (absorbed.withLedger absorbed.ledger.repay).gasRefund
                child.gas.gasRefund = some ((gas self).gasRefund + child.gas.gasRefund) :=
              addI64_eq settledFits.gasRefund
            simp only [takeRefund, sum, Option.bind_eq_bind, Option.bind_some, Option.pure_def]
          simp [Action.bind_run, Action.map_run, assignGas, Receiver.gas_setGas, repaid, refund]

/-- A settlement that returned tells whether the regular gas was charged. -/
theorem settleChild_tracked (ran : settleChild gasLimit stateGasCharged child self = .ok paid after) :
    ∃ charged, trackGas (gasLimit - max child.gas.gasLeft 0) self = .ok paid charged := by
  simp only [settleChild, Action.bind_eq_ok, Action.liftOption_eq_ok, subI64_eq_some] at ran
  obtain ⟨charge, middle, ⟨⟨-, rfl⟩, rfl⟩, gasCharged, charged, tracked, _, taken, -, rest⟩ := ran
  refine ⟨charged, ?_⟩
  suffices returned : gasCharged = paid by rw [tracked, returned]
  -- whatever is assigned in between, the value returned last is `gasCharged`
  split at rest
  case isTrue succeeded =>
    obtain ⟨_, repaid, -, rest⟩ := Action.bind_eq_ok.mp rest
    cases gasCharged with
    | false => exact (Outcome.ok.inj rest).1
    | true =>
        rw [if_neg (by simp)] at rest
        obtain ⟨_, refunded, -, rest⟩ := Action.bind_eq_ok.mp rest
        exact (Outcome.ok.inj rest).1
  case isFalse failed =>
    obtain ⟨_, refilled, -, rest⟩ := Action.bind_eq_ok.mp rest
    cases gasCharged with
    | false => exact (Outcome.ok.inj rest).1
    | true => exact (Outcome.ok.inj rest).1

end EvmZig.Execution
