import EvmZig.Execution.Accounting

/-!
# Activations and the results they produce

A bytecode frame and a native activation carry the gas counters and charge
regular gas each in their own way.  Both end in a host result: the frame through
`result`, a create through `finishCreate`, the native one when it is done.
-/

set_option autoImplicit false

namespace EvmZig.Execution

open Zig
open Lib (SpillLedger)

/-- What a call or create message brings along for the ledger. -/
structure Message where
  gas : Int
  gasReservoir : Int
  deriving DecidableEq, Repr

inductive FrameState where
  | running
  | suspended
  | halted (reason : FrameHalt)
  deriving DecidableEq, Repr

/-- The part of a bytecode frame that settles gas; `output` is what
`outputData` reads from the frame's memory. -/
structure CallFrame where
  state : FrameState
  gas : Counters
  output : List UInt8
  deriving DecidableEq, Repr

namespace CallFrame

/-- `initFields`, as far as the ledger goes. -/
def init (msg : Message) (code : List UInt8) : CallFrame where
  state := if code.length = 0 then .halted .success else .running
  gas := ⟨msg.gas, 0, msg.gasReservoir, 0, 0⟩
  output := []

def isRunning (self : CallFrame) : Prop := self.state = .running

instance (self : CallFrame) : Decidable self.isRunning := inferInstanceAs (Decidable (_ = _))

def haltReason (self : CallFrame) : Option FrameHalt :=
  match self.state with
  | .halted reason => some reason
  | _ => none

def halt (reason : FrameHalt) : Action CallFrame Empty Unit := do
  Action.assert isRunning
  Action.modify fun self =>
    { self with
      state := .halted reason
      gas := if reason.consumesAllGas then { self.gas with gasLeft := 0 } else self.gas }

def trackGas (amount : Int) : Action CallFrame Empty Bool := do
  let self ← Action.get
  if amount > self.gas.gasLeft then
    halt .outOfGas
    return false
  let gasLeft ← subI64 self.gas.gasLeft amount
  Action.modify fun self => { self with gas := { self.gas with gasLeft } }
  return true

end CallFrame

/-- Gas accounting of one native activation. -/
structure NativeLedger where
  gas : Counters
  outOfGas : Bool
  deriving DecidableEq, Repr

namespace NativeLedger

def init (msg : Message) : NativeLedger where
  gas := ⟨msg.gas, 0, msg.gasReservoir, 0, 0⟩
  outOfGas := false

def trackGas (amount : Int) : Action NativeLedger Empty Bool := do
  Action.assert fun self => self.outOfGas = false
  let self ← Action.get
  if amount > self.gas.gasLeft then
    Action.modify fun self =>
      { self with outOfGas := true, gas := { self.gas with gasLeft := 0 } }
    return false
  let gasLeft ← subI64 self.gas.gasLeft amount
  Action.modify fun self => { self with gas := { self.gas with gasLeft } }
  return true

end NativeLedger

/-! ## Both are receivers -/

namespace CallFrame

variable {amount : Int} {self after : CallFrame} {paid : Bool}

theorem trackGas_paid (enough : amount ≤ self.gas.gasLeft)
    (fits : FitsI64 (self.gas.gasLeft - amount)) :
    trackGas amount self =
      .ok true { self with gas := { self.gas with gasLeft := self.gas.gasLeft - amount } } := by
  simp [trackGas, Action.bind_run, Action.map_run, Int.not_lt.mpr enough, subI64_eq fits]

theorem trackGas_short (running : self.isRunning) (short : self.gas.gasLeft < amount) :
    trackGas amount self =
      .ok false
        { self with state := .halted .outOfGas, gas := { self.gas with gasLeft := 0 } } := by
  simp [trackGas, halt, Action.bind_run, Action.map_run, Action.assert, short, running,
    FrameHalt.consumesAllGas]

theorem trackGas_ok (ran : trackGas amount self = .ok paid after) :
    after.gas = { self.gas with gasLeft := if paid then self.gas.gasLeft - amount else 0 } ∧
      FitsI64 after.gas.gasLeft := by
  by_cases short : self.gas.gasLeft < amount
  · by_cases running : self.isRunning
    · rw [trackGas_short running short, Outcome.ok.injEq] at ran
      obtain ⟨rfl, rfl⟩ := ran
      exact ⟨rfl, fitsI64_zero⟩
    · simp [trackGas, halt, Action.bind_run, Action.assert, short, running] at ran
  · have enough : amount ≤ self.gas.gasLeft := Int.not_lt.mp short
    by_cases fits : FitsI64 (self.gas.gasLeft - amount)
    · rw [trackGas_paid enough fits, Outcome.ok.injEq] at ran
      obtain ⟨rfl, rfl⟩ := ran
      exact ⟨rfl, fits⟩
    · simp [trackGas, Action.bind_run, short, subI64, fits] at ran

end CallFrame

instance : Receiver CallFrame where
  gas := CallFrame.gas
  setGas counters self := { self with gas := counters }
  live := CallFrame.isRunning
  trackGas := CallFrame.trackGas
  gas_setGas _ _ := rfl
  trackGas_paid _ := CallFrame.trackGas_paid
  trackGas_short running short := ⟨_, CallFrame.trackGas_short running short, rfl⟩
  trackGas_ok := CallFrame.trackGas_ok

namespace NativeLedger

variable {amount : Int} {self after : NativeLedger} {paid : Bool}

theorem trackGas_paid (live : self.outOfGas = false) (enough : amount ≤ self.gas.gasLeft)
    (fits : FitsI64 (self.gas.gasLeft - amount)) :
    trackGas amount self =
      .ok true { self with gas := { self.gas with gasLeft := self.gas.gasLeft - amount } } := by
  simp [trackGas, Action.bind_run, Action.map_run, Action.assert, live, Int.not_lt.mpr enough,
    subI64_eq fits]

theorem trackGas_short (live : self.outOfGas = false) (short : self.gas.gasLeft < amount) :
    trackGas amount self =
      .ok false { outOfGas := true, gas := { self.gas with gasLeft := 0 } } := by
  simp [trackGas, Action.bind_run, Action.map_run, Action.assert, live, short]

theorem trackGas_ok (ran : trackGas amount self = .ok paid after) :
    after.gas = { self.gas with gasLeft := if paid then self.gas.gasLeft - amount else 0 } ∧
      FitsI64 after.gas.gasLeft := by
  by_cases live : self.outOfGas = false
  swap
  · simp [trackGas, Action.bind_run, Action.assert, live] at ran
  by_cases short : self.gas.gasLeft < amount
  · rw [trackGas_short live short, Outcome.ok.injEq] at ran
    obtain ⟨rfl, rfl⟩ := ran
    exact ⟨rfl, fitsI64_zero⟩
  · by_cases fits : FitsI64 (self.gas.gasLeft - amount)
    · rw [trackGas_paid live (Int.not_lt.mp short) fits, Outcome.ok.injEq] at ran
      obtain ⟨rfl, rfl⟩ := ran
      exact ⟨rfl, fits⟩
    · simp [trackGas, Action.bind_run, Action.assert, live, short, subI64, fits] at ran

end NativeLedger

instance : Receiver NativeLedger where
  gas := NativeLedger.gas
  setGas counters self := { self with gas := counters }
  live self := self.outOfGas = false
  trackGas := NativeLedger.trackGas
  gas_setGas _ _ := rfl
  trackGas_paid := NativeLedger.trackGas_paid
  trackGas_short live short := ⟨_, NativeLedger.trackGas_short live short, rfl⟩
  trackGas_ok := NativeLedger.trackGas_ok

/-! ## Results -/

structure FrameResult where
  halt : FrameHalt
  gas : Counters
  outputData : List UInt8
  deriving DecidableEq, Repr

def FrameResult.executionResult (self : FrameResult) : ExecutionResult where
  outcome := ⟨self.halt.status, self.halt.terminalCause⟩
  frameHalt := some self.halt
  gas := self.gas
  outputData := self.outputData

/-- `CallFrame.result`; on a frame that has not halted it is unreachable. -/
def CallFrame.result (self : CallFrame) : Option FrameResult := do
  let haltReason ← self.haltReason
  let gas := { self.gas with gasRefund := if haltReason = .success then self.gas.gasRefund else 0 }
  return {
    halt := haltReason
    gas := finalizeStateGas haltReason.status gas
    outputData := self.output }

/-- What the specification says about deploying code. -/
structure CreateSpec where
  codeSizeLimit : Option Nat
  rejectsCode : List UInt8 → Bool
  /-- `none` is `error.Overflow`. -/
  depositRegularGas : Int → Option Int
  depositStateGas : Int → Option Int
  depositRegularGasOogCommits : Bool

def createFailureFromResult (result : ExecutionResult) (status : Status) (cause : TerminalCause) :
    HostResult :=
  let failed := { result.gas with gasLeft := 0, gasRefund := 0 }
  .fromExecution
    { result with
      outcome := ⟨status, cause⟩
      gas := finalizeStateGas status failed
      outputData := [] } true

/-- `finishCreate` up to its effects on the state: `none` is an overflow. -/
def finishCreate (create : CreateSpec) (frameResult : FrameResult) : Option HostResult :=
  let result := frameResult.executionResult
  let output := result.outputData
  if result.outcome.status ≠ .success then some (.fromExecution result true)
  else if create.codeSizeLimit.any (· < output.length) then
    some (createFailureFromResult result .outOfGas .maxCodeSizeExceeded)
  else if create.rejectsCode output then
    some (createFailureFromResult result .invalid .invalidCode)
  else if i64Max < output.length then
    some (createFailureFromResult result .outOfGas .codeStoreOutOfGas)
  else
    match create.depositRegularGas output.length with
    | none => some (createFailureFromResult result .outOfGas .codeStoreOutOfGas)
    | some depositRegularCost =>
        if result.gas.gasLeft < depositRegularCost then
          if create.depositRegularGasOogCommits then
            some (.fromExecution { result with outcome := ⟨.success, .codeStoreOutOfGas⟩ } false)
          else some (createFailureFromResult result .outOfGas .codeStoreOutOfGas)
        else do
          let gasLeft ← subI64 result.gas.gasLeft depositRegularCost
          let depositResult := { result with gas := { result.gas with gasLeft } }
          match create.depositStateGas output.length with
          | none => return createFailureFromResult depositResult .outOfGas .codeStoreOutOfGas
          | some depositStateGas => do
              let depositResult ← depositResult.trackStateGas depositStateGas
              if depositResult.outcome.status ≠ .success then
                return createFailureFromResult depositResult depositResult.outcome.status
                  .codeStoreOutOfGas
              return .fromExecution depositResult false

/-- A native activation is done: its result, after the checks of the executor. -/
def NativeLedger.finish (self : NativeLedger) (done : Status) (violatedStatic : Bool)
    (outputData : List UInt8) : Option HostResult := do
  let status := if violatedStatic then .invalid else if self.outOfGas then .outOfGas else done
  let keepsOutput : Bool := status = .success ∨ status = .revert
  let cause :=
    if violatedStatic then .writeProtection
    else match status with
      | .revert => .revert
      | .success => .none
      | .outOfGas => .outOfGas
      | .invalid => .invalid
  let gas := finalizeStateGas status { self.gas with
    gasLeft := if keepsOutput then self.gas.gasLeft else 0
    gasRefund := if status = .success then self.gas.gasRefund else 0 }
  assert (0 ≤ gas.gasLeft ∧ 0 ≤ gas.gasReservoir)
  return {
    outcome := ⟨status, cause⟩
    frameHalt := none
    checkpointReverted := status ≠ .success
    outputData := if keepsOutput then outputData else []
    gas }

/-- A message that is answered without an activation: a failed precheck, a
precompile, an account without code, a create that collides. -/
def answer (msg : Message) (outcome : ExecutionOutcome) (gasLeft : Int) (reverted : Bool)
    (outputData : List UInt8) : HostResult where
  outcome := outcome
  frameHalt := none
  checkpointReverted := reverted
  outputData := outputData
  gas := ⟨gasLeft, 0, msg.gasReservoir, 0, 0⟩

end EvmZig.Execution
