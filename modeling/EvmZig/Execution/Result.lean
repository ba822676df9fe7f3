import EvmZig.Zig.Signed
import EvmZig.Zig.Checked
import EvmZig.Lib.SpillLedger

/-!
# Execution results and their state gas

Status and cause of a completed execution, the gas counters every frame and
every result carries, and the settlement of the state gas when an execution
ends: `finalizeStateGas`, the code-deposit charge `trackStateGas` on a result.
-/

set_option autoImplicit false

namespace EvmZig.Execution

open Zig
open Lib (SpillLedger)

inductive Status where
  | success
  | revert
  | invalid
  | outOfGas
  deriving DecidableEq, Repr

inductive TerminalCause where
  | none
  | revert
  | outOfGas
  | invalid
  | callDepthExceeded
  | insufficientBalance
  | nonceOverflow
  | invalidOpcode
  | stackUnderflow
  | stackOverflow
  | invalidJump
  | writeProtection
  | returnDataOutOfBounds
  | contractAddressCollision
  | maxCodeSizeExceeded
  | invalidCode
  | codeStoreOutOfGas
  deriving DecidableEq, Repr

/-- The interpreter's reason for halting one call frame. -/
inductive FrameHalt where
  | success
  | revert
  | outOfGas
  | invalidOpcode
  | stackUnderflow
  | stackOverflow
  | invalidJump
  | writeProtection
  | returnDataOutOfBounds
  deriving DecidableEq, Repr

namespace FrameHalt

def status : FrameHalt → Status
  | .success => .success
  | .revert => .revert
  | .outOfGas => .outOfGas
  | .invalidOpcode | .stackUnderflow | .stackOverflow | .invalidJump | .writeProtection
  | .returnDataOutOfBounds => .invalid

def terminalCause : FrameHalt → TerminalCause
  | .success => .none
  | .revert => .revert
  | .outOfGas => .outOfGas
  | .invalidOpcode => .invalidOpcode
  | .stackUnderflow => .stackUnderflow
  | .stackOverflow => .stackOverflow
  | .invalidJump => .invalidJump
  | .writeProtection => .writeProtection
  | .returnDataOutOfBounds => .returnDataOutOfBounds

def consumesAllGas : FrameHalt → Bool
  | .success | .revert => false
  | _ => true

end FrameHalt

structure ExecutionOutcome where
  status : Status
  cause : TerminalCause
  deriving DecidableEq, Repr

/-- The gas counters of an activation or of its result. -/
@[ext] structure Counters where
  gasLeft : Int
  gasRefund : Int
  gasReservoir : Int
  stateGasSpent : Int
  stateGasFromGasLeft : Int
  deriving DecidableEq, Repr

namespace Counters

/-- Every counter is an `i64`. -/
structure Fits (gas : Counters) : Prop where
  gasLeft : FitsI64 gas.gasLeft
  gasRefund : FitsI64 gas.gasRefund
  gasReservoir : FitsI64 gas.gasReservoir
  stateGasSpent : FitsI64 gas.stateGasSpent
  stateGasFromGasLeft : FitsI64 gas.stateGasFromGasLeft

/-- The state-gas ledger among the counters. -/
def ledger (gas : Counters) : SpillLedger where
  left := gas.gasLeft
  reservoir := gas.gasReservoir
  spent := gas.stateGasSpent
  spilled := gas.stateGasFromGasLeft

/-- The counters with another ledger. -/
def withLedger (gas : Counters) (ledger : SpillLedger) : Counters where
  gasLeft := ledger.left
  gasRefund := gas.gasRefund
  gasReservoir := ledger.reservoir
  stateGasSpent := ledger.spent
  stateGasFromGasLeft := ledger.spilled

@[simp] theorem ledger_withLedger (gas : Counters) (ledger : SpillLedger) :
    (gas.withLedger ledger).ledger = ledger := rfl

@[simp] theorem gasRefund_withLedger (gas : Counters) (ledger : SpillLedger) :
    (gas.withLedger ledger).gasRefund = gas.gasRefund := rfl

/-- The state gas of both agrees; regular gas and refunds may differ. -/
abbrev SameState (first second : Counters) : Prop := SpillLedger.Same first.ledger second.ledger

abbrev Sound (opening : Int) (gas : Counters) : Prop := SpillLedger.Sound opening gas.ledger

end Counters

def unwindStateGas (restoreRegularGas : Bool) (gas : Counters) : Counters :=
  let reservoirDelta := subSatI64 gas.stateGasSpent gas.stateGasFromGasLeft
  { gas with
    gasReservoir := addSatI64 gas.gasReservoir reservoirDelta
    gasLeft :=
      if restoreRegularGas then addSatI64 gas.gasLeft gas.stateGasFromGasLeft else gas.gasLeft
    stateGasSpent := 0
    stateGasFromGasLeft := 0 }

/-- `finalizeStateGas`, for a frame result, an execution result and a host
result alike: it reads the status and writes the counters. -/
def finalizeStateGas (status : Status) (gas : Counters) : Counters :=
  match status with
  | .success => gas
  | .revert => unwindStateGas true gas
  | .invalid | .outOfGas => unwindStateGas false gas

/-- Final engine result of one execution. -/
structure ExecutionResult where
  outcome : ExecutionOutcome
  frameHalt : Option FrameHalt
  gas : Counters
  outputData : List UInt8
  deriving DecidableEq, Repr

/-- `Host.Result`. -/
structure HostResult where
  outcome : ExecutionOutcome
  frameHalt : Option FrameHalt
  checkpointReverted : Bool
  outputData : List UInt8
  gas : Counters
  deriving DecidableEq, Repr

namespace HostResult

def status (self : HostResult) : Status := self.outcome.status

def isSuccess (self : HostResult) : Bool := self.status = .success

def fromExecution (result : ExecutionResult) (checkpointReverted : Bool) : HostResult where
  outcome := result.outcome
  frameHalt := result.frameHalt
  checkpointReverted := checkpointReverted
  outputData := result.outputData
  gas := result.gas

end HostResult

/-- `ExecutionResult.trackStateGas`: charge a completed result. -/
def ExecutionResult.trackStateGas (amount : Int) (self : ExecutionResult) :
    Option ExecutionResult := do
  if amount ≤ 0 then return self
  let reservoirAvailable := max self.gas.gasReservoir 0
  let fromReservoir := min reservoirAvailable amount
  let fromRegular ← subI64 amount fromReservoir
  if fromRegular > self.gas.gasLeft then
    return { self with
      outcome := ⟨.outOfGas, .outOfGas⟩
      gas := { self.gas with gasLeft := 0 } }
  let gasReservoir ← subI64 self.gas.gasReservoir fromReservoir
  let gasLeft ← subI64 self.gas.gasLeft fromRegular
  return { self with
    gas := { self.gas with
      gasReservoir := gasReservoir
      gasLeft := gasLeft
      stateGasFromGasLeft := addSatI64 self.gas.stateGasFromGasLeft fromRegular
      stateGasSpent := addSatI64 self.gas.stateGasSpent amount } }

/-! ## What the settlement does to the ledger -/

variable {opening amount : Int} {gas : Counters} {status : Status}

/-- What the saturating operators of `unwindStateGas` compute, apart from the
regular gas: the ledger is rewound. -/
theorem unwindStateGas_same (restoreRegularGas : Bool) (reservoirFits : FitsI64 gas.gasReservoir)
    (openingFits : FitsI64 opening) (nonneg : 0 ≤ opening) (sound : gas.Sound opening) :
    (unwindStateGas restoreRegularGas gas).SameState (gas.withLedger gas.ledger.rewind) := by
  have balance : gas.gasReservoir + gas.stateGasSpent - gas.stateGasFromGasLeft = opening :=
    sound.balance
  have reservoirNonneg : 0 ≤ gas.gasReservoir := sound.reservoir_nonneg
  have deltaFits : FitsI64 (gas.stateGasSpent - gas.stateGasFromGasLeft) := by
    simp only [FitsI64, i64Min_eq, i64Max_eq] at openingFits reservoirFits ⊢
    omega
  have sumFits : FitsI64 (gas.gasReservoir + (gas.stateGasSpent - gas.stateGasFromGasLeft)) := by
    have same : gas.gasReservoir + (gas.stateGasSpent - gas.stateGasFromGasLeft) = opening := by
      omega
    rw [same]
    exact openingFits
  constructor
  case reservoir =>
    simp only [unwindStateGas, Counters.ledger, Counters.withLedger, SpillLedger.rewind]
    rw [subSatI64_eq deltaFits, addSatI64_eq sumFits]
  case spent => rfl
  case spilled => rfl

theorem unwindStateGas_gasLeft_false (gas : Counters) :
    (unwindStateGas false gas).gasLeft = gas.gasLeft := rfl

theorem unwindStateGas_gasLeft_true
    (fits : FitsI64 (gas.gasLeft + gas.stateGasFromGasLeft)) :
    (unwindStateGas true gas).gasLeft = gas.gasLeft + gas.stateGasFromGasLeft := by
  simp only [unwindStateGas, if_true]
  exact addSatI64_eq fits

/-- A result that is not a success carries the reservoir its execution was
opened with and no state gas. -/
theorem finalizeStateGas_rewound (failed : status ≠ .success)
    (reservoirFits : FitsI64 gas.gasReservoir) (openingFits : FitsI64 opening)
    (nonneg : 0 ≤ opening) (sound : gas.Sound opening) :
    SpillLedger.Same (finalizeStateGas status gas).ledger
      (SpillLedger.opened gas.gasLeft opening) := by
  have rewound : ∀ restore, (unwindStateGas restore gas).SameState
      (gas.withLedger gas.ledger.rewind) := fun restore =>
    unwindStateGas_same restore reservoirFits openingFits nonneg sound
  have reopened : SpillLedger.Same gas.ledger.rewind (SpillLedger.opened gas.gasLeft opening) :=
    ⟨sound.rewind_reservoir, rfl, rfl⟩
  cases status with
  | success => exact absurd rfl failed
  | revert => exact (rewound true).trans reopened
  | invalid => exact (rewound false).trans reopened
  | outOfGas => exact (rewound false).trans reopened

theorem finalizeStateGas_sound (reservoirFits : FitsI64 gas.gasReservoir) (openingFits : FitsI64 opening)
    (nonneg : 0 ≤ opening) (sound : gas.Sound opening) :
    (finalizeStateGas status gas).Sound opening := by
  by_cases succeeded : status = .success
  · subst succeeded
    exact sound
  · exact (SpillLedger.sound_opened nonneg).of_same
      (finalizeStateGas_rewound succeeded reservoirFits openingFits nonneg sound)

/-- A charge does not saturate the counters of the state gas. -/
structure Counters.ChargeFits (gas : Counters) (amount : Int) : Prop where
  spent : FitsI64 (gas.ledger.charge amount).spent
  spilled : FitsI64 (gas.ledger.charge amount).spilled

/-- What a charge to a completed result can do. -/
inductive ExecutionResult.Charged (self : ExecutionResult) (amount : Int) :
    ExecutionResult → Prop
  | nothing (none : amount ≤ 0) : Charged self amount self
  | short (positive : 0 < amount) :
      Charged self amount
        { self with outcome := ⟨.outOfGas, .outOfGas⟩, gas := { self.gas with gasLeft := 0 } }
  | paid (positive : 0 < amount) (fits : (self.gas.withLedger (self.gas.ledger.charge amount)).Fits) :
      Charged self amount { self with gas := self.gas.withLedger (self.gas.ledger.charge amount) }

theorem ExecutionResult.trackStateGas_charged {self after : ExecutionResult} (fits : self.gas.Fits)
    (chargeFits : self.gas.ChargeFits amount) (ran : self.trackStateGas amount = some after) :
    self.Charged amount after := by
  by_cases none : amount ≤ 0
  · simp only [trackStateGas, if_pos none, Option.pure_def, Option.some.injEq] at ran
    rw [← ran]
    exact .nothing none
  have positive : 0 < amount := by omega
  simp only [trackStateGas, if_neg none, Option.bind_eq_bind, Option.bind_eq_some_iff,
    subI64_eq_some] at ran
  obtain ⟨fromRegular, ⟨-, rfl⟩, rest⟩ := ran
  split at rest
  case isTrue short =>
    simp only [Option.pure_def, Option.some.injEq] at rest
    rw [← rest]
    exact .short positive
  case isFalse enough =>
    simp only [Option.bind_eq_some_iff, subI64_eq_some, Option.pure_def, Option.some.injEq] at rest
    obtain ⟨gasReservoir, ⟨reservoirFits, rfl⟩, gasLeft, ⟨leftFits, rfl⟩, rfl⟩ := rest
    have spentExact := addSatI64_eq chargeFits.spent
    have spilledExact := addSatI64_eq chargeFits.spilled
    simp only [SpillLedger.covered, Counters.ledger] at spentExact spilledExact
    rw [spentExact, spilledExact]
    exact .paid positive
      ⟨leftFits, fits.gasRefund, reservoirFits, chargeFits.spent, chargeFits.spilled⟩

end EvmZig.Execution
