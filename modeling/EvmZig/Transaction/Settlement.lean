import EvmZig.Transaction.Validation
import EvmZig.Zig.Signed

/-!
# Settlement (`src/transaction/settlement.zig`)

The plan of what a transaction is charged up front, and what it costs once its
execution has ended.
-/

set_option autoImplicit false

namespace EvmZig.Transaction

open Zig

structure FeeInput where
  gasPrice : Nat
  baseFee : Nat
  maxFeePerGas : Option Nat
  maxPriorityFeePerGas : Option Nat
  deriving DecidableEq, Repr

structure DefaultPlan where
  payer : Option Address
  gasLimit : Nat
  intrinsicGas : Nat
  floorGas : Nat
  gasPrice : Nat
  priorityFee : Nat
  feeRecipient : Address
  upfrontDebit : Nat
  minimumBalance : Nat
  deriving DecidableEq

structure DefaultFees where
  gasPrice : Nat
  priorityFee : Nat
  feeRecipient : Address
  payer : Option Address
  value : Nat
  blobBaseFee : Nat
  blobCount : Nat
  deriving DecidableEq

structure ExecutionGasResult where
  gasLeft : Int
  gasRefund : Int
  gasReservoir : Int
  stateGasSpent : Int
  deriving DecidableEq, Repr

structure ResultGas where
  used : Nat
  refunded : Nat
  block : BlockGas
  deriving DecidableEq, Repr

structure DefaultCosts where
  gas : ResultGas
  payerRefund : Nat
  feePayment : Nat
  deriving DecidableEq, Repr

structure Precharge where
  payer : Option Address
  upfrontDebit : Nat
  minimumBalance : Nat
  deriving DecidableEq

def prechargeCost (blobSchedule : Option BlobSchedule) (gasLimit gasPrice blobBaseFee blobCount : Nat) :
    Nat :=
  let gasCost := mulSat 256 gasLimit gasPrice
  match blobGasForCount blobSchedule blobCount with
  | none => 2 ^ 256 - 1
  | some blobGas =>
      let blobCost := mulSat 256 blobGas blobBaseFee
      addSat 256 gasCost blobCost

/-- `error.Overflow` is `none`. -/
def checkedGasCost (gas price : Nat) : Option Nat := mulChecked 256 gas price

def positiveGas (gas : Int) : Nat := gas.toNat

/-- The gas a result leaves used, before refunds; `gas_left` and the reservoir
are `i64`, so their saturating sum is the sum. -/
def preRefundGasUsed (settlement : DefaultPlan) (result : ExecutionGasResult)
    (usesStateGasAccounting : Bool) : Nat :=
  let gasLeft := positiveGas result.gasLeft
  let gasReservoir := if usesStateGasAccounting then positiveGas result.gasReservoir else 0
  if usesStateGasAccounting then
    settlement.gasLimit - min settlement.gasLimit (addSat 64 gasLeft gasReservoir)
  else settlement.gasLimit - min settlement.gasLimit gasLeft

/-- The gas of `calculateDefaultCosts`, before it is priced. -/
def resultGas (settlement : DefaultPlan) (result : ExecutionGasResult)
    (usesStateGasAccounting : Bool) (refundCapDivisor : Nat)
    (appliesCalldataFloorToBlockRegularGas : Bool) : ResultGas :=
  let preRefundGasUsed := preRefundGasUsed settlement result usesStateGasAccounting
  let refundCap := preRefundGasUsed / refundCapDivisor
  let rawRefund := positiveGas result.gasRefund
  let refundGas := min rawRefund refundCap
  let gasUsedAfterRefund := preRefundGasUsed - min preRefundGasUsed refundGas
  let gasUsed := max gasUsedAfterRefund settlement.floorGas
  let blockStateGasUsed :=
    if usesStateGasAccounting then positiveGas result.stateGasSpent else 0
  let blockRegularBeforeFloor := preRefundGasUsed - min preRefundGasUsed blockStateGasUsed
  let blockRegularGasUsed :=
    if usesStateGasAccounting then
      if appliesCalldataFloorToBlockRegularGas then
        max blockRegularBeforeFloor settlement.floorGas
      else blockRegularBeforeFloor
    else gasUsed
  let blockGas :=
    if usesStateGasAccounting then .fromDimensions blockRegularGasUsed blockStateGasUsed
    else BlockGas.legacy gasUsed
  let senderRefundedGas := settlement.gasLimit - min settlement.gasLimit gasUsed
  { used := gasUsed, refunded := senderRefundedGas, block := blockGas }

def calculateDefaultCosts (settlement : DefaultPlan) (result : ExecutionGasResult)
    (usesStateGasAccounting : Bool) (refundCapDivisor : Nat)
    (appliesCalldataFloorToBlockRegularGas : Bool) : Option DefaultCosts := do
  let gas := resultGas settlement result usesStateGasAccounting refundCapDivisor
    appliesCalldataFloorToBlockRegularGas
  let payerRefund ← checkedGasCost gas.refunded settlement.gasPrice
  let feePayment ← checkedGasCost gas.used settlement.priorityFee
  return { gas, payerRefund, feePayment }

namespace Spec

variable (spec : Spec)

def effectivePriorityFee (input : FeeInput) : Nat :=
  if spec.settlement.baseFeeActive = false then input.gasPrice
  else match input.maxFeePerGas with
    | some maxFee =>
        let maxPriorityFee := input.maxPriorityFeePerGas.getD 0
        if maxFee ≤ input.baseFee then 0 else min maxPriorityFee (maxFee - input.baseFee)
    | none =>
        if input.gasPrice ≤ input.baseFee then 0 else input.gasPrice - input.baseFee

def defaultPlanFromGasPlan (gasLimit : Nat) (plan : GasPlan) (fees : DefaultFees) : DefaultPlan :=
  let upfrontDebit := prechargeCost spec.transaction.blobSchedule gasLimit fees.gasPrice
    fees.blobBaseFee fees.blobCount
  { payer := fees.payer
    gasLimit := gasLimit
    intrinsicGas := plan.intrinsicGas
    floorGas := plan.floorGas
    gasPrice := fees.gasPrice
    priorityFee := fees.priorityFee
    feeRecipient := fees.feeRecipient
    upfrontDebit := upfrontDebit
    minimumBalance := addSat 256 upfrontDebit fees.value }

def planResultGas (plan : DefaultPlan) (result : ExecutionGasResult) : ResultGas :=
  resultGas plan result spec.settlement.usesStateGasAccounting
    spec.settlement.gasRefundCapDivisor spec.settlement.appliesCalldataFloorToBlockRegularGas

def planCosts (plan : DefaultPlan) (result : ExecutionGasResult) : Option DefaultCosts :=
  calculateDefaultCosts plan result spec.settlement.usesStateGasAccounting
    spec.settlement.gasRefundCapDivisor spec.settlement.appliesCalldataFloorToBlockRegularGas

end Spec

def planPrecharge (plan : DefaultPlan) : Precharge where
  payer := plan.payer
  upfrontDebit := plan.upfrontDebit
  minimumBalance := plan.minimumBalance

end EvmZig.Transaction
