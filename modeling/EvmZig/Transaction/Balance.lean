import EvmZig.Transaction.Acceptance

/-!
# The books of one settlement

What an accepted transaction paid up front is shared between the payer, the fee
recipient and the burnt base fee, and its gas stays within its limit.
-/

set_option autoImplicit false

namespace EvmZig.Transaction

open Zig
open EvmZig.State (Account)

/-- The counters of a result fit into the gas the transaction ran with. -/
def ExecutionGasResult.Within (result : ExecutionGasResult) (budget : Nat) : Prop :=
  positiveGas result.gasLeft + positiveGas result.gasReservoir + positiveGas result.stateGasSpent ≤
    budget

instance (result : ExecutionGasResult) (budget : Nat) : Decidable (result.Within budget) :=
  inferInstanceAs (Decidable (_ ≤ _))

/-- The gas side of a settlement: what is used, and how blocks count it. -/
structure GasBalances (spec : Spec) (plan : DefaultPlan) (result : ExecutionGasResult)
    (gas : ResultGas) : Prop where
  floor : plan.floorGas ≤ gas.used
  limit : gas.used ≤ plan.gasLimit
  refunded : gas.used + gas.refunded = plan.gasLimit
  /-- The refund applied is within the cap. -/
  capped : ∃ refund,
    refund ≤ preRefundGasUsed plan result spec.settlement.usesStateGasAccounting /
      spec.settlement.gasRefundCapDivisor ∧
    gas.used = max (preRefundGasUsed plan result spec.settlement.usesStateGasAccounting - refund)
      plan.floorGas
  total : gas.block.total ≤ plan.gasLimit
  regular : gas.block.regular ≤ plan.gasLimit
  state : gas.block.state ≤ plan.gasLimit
  dimensions : spec.settlement.usesStateGasAccounting = true →
    preRefundGasUsed plan result true ≤ gas.block.regular + gas.block.state

section Gas

variable {spec : Spec} {plan : DefaultPlan} {result : ExecutionGasResult} {costs : DefaultCosts}

theorem preRefundGasUsed_le (usesStateGas : Bool) :
    preRefundGasUsed plan result usesStateGas ≤ plan.gasLimit := by
  unfold preRefundGasUsed
  split <;> exact Nat.sub_le _ _

/-- The refund applied before the floor. -/
theorem planResultGas_used :
    ∃ refund ≤ preRefundGasUsed plan result spec.settlement.usesStateGasAccounting /
        spec.settlement.gasRefundCapDivisor,
      (spec.planResultGas plan result).used =
        max (preRefundGasUsed plan result spec.settlement.usesStateGasAccounting - refund)
          plan.floorGas := by
  refine ⟨min (positiveGas result.gasRefund) (preRefundGasUsed plan result
    spec.settlement.usesStateGasAccounting / spec.settlement.gasRefundCapDivisor),
    min_le_right _ _, ?_⟩
  dsimp only [Spec.planResultGas, resultGas]
  omega

theorem block_legacy (off : spec.settlement.usesStateGasAccounting = false) :
    (spec.planResultGas plan result).block = .legacy (spec.planResultGas plan result).used := by
  simp only [Spec.planResultGas, resultGas, off, Bool.false_eq_true, if_false]

theorem block_dimensions (on : spec.settlement.usesStateGasAccounting = true) :
    ∃ regular, (spec.planResultGas plan result).block =
        .fromDimensions regular (positiveGas result.stateGasSpent) ∧
      preRefundGasUsed plan result true - positiveGas result.stateGasSpent ≤ regular ∧
      regular ≤ max (preRefundGasUsed plan result true) plan.floorGas := by
  simp only [Spec.planResultGas, resultGas, on, if_true]
  refine ⟨_, rfl, ?_, ?_⟩ <;> split <;> omega

/-- The gas of a settlement balances, whatever the result counted within its budget. -/
theorem planResultGas_balances {budget : Nat} (floor : plan.floorGas ≤ plan.gasLimit)
    (within : result.Within budget) (inside : budget ≤ plan.gasLimit) :
    GasBalances spec plan result (spec.planResultGas plan result) := by
  obtain ⟨refund, capped, usedEq⟩ := @planResultGas_used spec plan result
  have floored : plan.floorGas ≤ (spec.planResultGas plan result).used := by
    rw [usedEq]
    exact le_max_right _ _
  have limited : (spec.planResultGas plan result).used ≤ plan.gasLimit := by
    rw [usedEq]
    exact max_le ((Nat.sub_le _ _).trans (preRefundGasUsed_le _)) floor
  have refunded : (spec.planResultGas plan result).refunded =
      plan.gasLimit - (spec.planResultGas plan result).used := by
    show _ - min _ (spec.planResultGas plan result).used = _
    rw [min_eq_right limited]
  have balanced : (spec.planResultGas plan result).used +
      (spec.planResultGas plan result).refunded = plan.gasLimit := by omega
  cases accounting : spec.settlement.usesStateGasAccounting with
  | false =>
      have block := @block_legacy spec plan result accounting
      refine ⟨floored, limited, balanced, ⟨refund, capped, usedEq⟩, ?_, ?_, ?_, ?_⟩
      · rw [block]
        exact limited
      · rw [block]
        exact limited
      · rw [block]
        exact Nat.zero_le _
      · rw [accounting]
        rintro ⟨⟩
  | true =>
      obtain ⟨regular, block, enough, bounded⟩ := @block_dimensions spec plan result accounting
      have used := @preRefundGasUsed_le plan result true
      have stateWithin : positiveGas result.stateGasSpent ≤ plan.gasLimit := by
        rw [ExecutionGasResult.Within] at within
        omega
      have regularWithin : regular ≤ plan.gasLimit := bounded.trans (max_le used floor)
      refine ⟨floored, limited, balanced, ⟨refund, capped, usedEq⟩, ?_, ?_, ?_, ?_⟩
      · rw [block]
        exact max_le regularWithin stateWithin
      · rw [block]
        exact regularWithin
      · rw [block]
        exact stateWithin
      · rw [block]
        exact fun _ => Nat.sub_le_iff_le_add.mp enough

end Gas

/-! ## Money -/

section Money

variable {spec : Spec} {input : PrepareInput} {gasPlan : GasPlan} {account : Option Account}
  {result : ExecutionGasResult}

/-- What the settlement pays back, pays out and burns is what was paid for gas. -/
structure MoneyBalances (plan : DefaultPlan) (burntPerGas : Nat) (costs : DefaultCosts) : Prop where
  payer : costs.payerRefund + costs.gas.used * plan.gasPrice = plan.gasLimit * plan.gasPrice
  fees : costs.feePayment + costs.gas.used * burntPerGas ≤ costs.gas.used * plan.gasPrice
  paid : costs.feePayment + costs.gas.used * burntPerGas + costs.payerRefund ≤ plan.upfrontDebit

/-- The base fee burnt for each unit of gas. -/
def Spec.burntBaseFee (spec : Spec) (env : Env) : Nat :=
  if spec.settlement.baseFeeActive then env.baseFee.val else 0

/-- Prices that share the gas price price every split of an affordable gas limit. -/
theorem calculateDefaultCosts_priced {plan : DefaultPlan} {gas : ResultGas} {burntPerGas : Nat}
    (balanced : gas.used + gas.refunded = plan.gasLimit)
    (shares : plan.priorityFee + burntPerGas = plan.gasPrice)
    (charged : plan.gasLimit * plan.gasPrice ≤ plan.upfrontDebit)
    (fits : plan.upfrontDebit < 2 ^ 256) :
    ∃ payerRefund feePayment, checkedGasCost gas.refunded plan.gasPrice = some payerRefund ∧
      checkedGasCost gas.used plan.priorityFee = some feePayment ∧
      MoneyBalances plan burntPerGas { gas, payerRefund, feePayment } := by
  have split : gas.used * plan.gasPrice + gas.refunded * plan.gasPrice =
      plan.gasLimit * plan.gasPrice := by
    rw [← Nat.add_mul, balanced]
  have fees : gas.used * plan.priorityFee + gas.used * burntPerGas = gas.used * plan.gasPrice := by
    rw [← Nat.mul_add, shares]
  refine ⟨_, _, mulChecked_eq (by omega), mulChecked_eq (by omega), ?_, ?_, ?_⟩ <;> dsimp only <;>
    omega

end Money

/-- The settlement of an accepted transaction: its costs can be computed, its gas
stays within the limit, and the payer, the fee recipient and the burnt base fee
share what was charged. -/
theorem settlement_balances (spec : Spec) (input : PrepareInput) (gasPlan : GasPlan)
    (account : Option Account) (result : ExecutionGasResult)
    (ofKind : FieldsOfKind input.tx)
    (accepted : spec.Accepted input gasPlan account)
    (within : result.Within (input.tx.gasLimit.val - gasPlan.intrinsicGas)) :
    ∃ costs, spec.planCosts (spec.settlementPlan input gasPlan) result = some costs ∧
      GasBalances spec (spec.settlementPlan input gasPlan) result costs.gas ∧
      MoneyBalances (spec.settlementPlan input gasPlan) (spec.burntBaseFee input.env) costs := by
  have limits := Spec.validateBeforeAccount_none accepted.before
  have gas := @planResultGas_balances spec (spec.settlementPlan input gasPlan) result _ limits.floor
      within
    (Nat.sub_le _ _)
  obtain ⟨blobGas, affordable⟩ := accepted.affordable ofKind
  obtain ⟨exact, -⟩ := @Spec.Affordable.exact _ _ gasPlan _ _ affordable
  have minimum := exact.minimum
  have fits := exact.fits
  obtain ⟨payerRefund, feePayment, refundFound, feeFound, money⟩ :=
    calculateDefaultCosts_priced gas.refunded affordable.shares
      (exact.upfront ▸ Nat.le_add_right _ _) (by omega)
  refine ⟨{ gas := spec.planResultGas _ result, payerRefund, feePayment }, ?_, gas, money⟩
  simp only [Spec.planResultGas] at refundFound feeFound ⊢
  simp only [Spec.planCosts, calculateDefaultCosts, refundFound, feeFound, Option.bind_eq_bind,
    Option.bind_some, Option.pure_def]

/-- A call with gas to spare, for a price of ten over a base fee of seven. -/
def cheapCall : PrepareInput where
  tx := { sender := ⟨List.replicate 20 1, length_ones⟩, gasLimit := 21100,
          recipient := some ⟨List.replicate 20 0, rfl⟩, gasPrice := 10 }
  env := { coinbase := ⟨List.replicate 20 0, rfl⟩, baseFee := 7 }
  block := {}

def spareGas (intrinsicGas floorGas left : Nat) : GasPlan where
  intrinsicGas := intrinsicGas
  floorGas := floorGas
  minimumGas := intrinsicGas
  initialGas := ⟨intrinsicGas, floorGas⟩
  execution := some { regularLeft := left, reservoir := 0 }

def rich : Option Account := some { balance := 1000000 }

theorem cheapCall_accepted : london.Accepted cheapCall (spareGas 21000 0 100) rich :=
  ⟨by decide +kernel, by decide +kernel, by decide +kernel⟩

theorem settlement_balances_london : ∃ costs,
    london.planCosts (london.settlementPlan cheapCall (spareGas 21000 0 100))
      { gasLeft := 1, gasRefund := 0, gasReservoir := 0, stateGasSpent := 0 } = some costs ∧
    costs.gas.used + costs.gas.refunded = 21100 := by
  obtain ⟨costs, found, gas, -⟩ := settlement_balances london cheapCall (spareGas 21000 0 100) rich
    { gasLeft := 1, gasRefund := 0, gasReservoir := 0, stateGasSpent := 0 }
    ⟨fun _ => ⟨rfl, rfl⟩, fun _ => ⟨rfl, rfl⟩⟩ cheapCall_accepted (by decide)
  exact ⟨costs, found, gas.refunded⟩

/-- The same call with fee fields its kind does not have. -/
def misfitCall : PrepareInput :=
  { cheapCall with
    tx := { cheapCall.tx with maxFeePerGas := some 1000, maxPriorityFeePerGas := some 900 } }

/-- Fee fields of another kind pay out more than was paid in, and counters below
zero leave room for state gas above the limit. -/
theorem settlement_unbalanced :
    (∃ (result : ExecutionGasResult) (costs : DefaultCosts),
      london.Accepted misfitCall (spareGas 21000 0 100) rich ∧
      result.gasLeft + result.gasReservoir + max result.stateGasSpent 0 ≤ 21100 - 21000 ∧
      london.planCosts (london.settlementPlan misfitCall (spareGas 21000 0 100)) result = some costs ∧
      (london.settlementPlan misfitCall (spareGas 21000 0 100)).upfrontDebit < costs.feePayment) ∧
    ∃ (result : ExecutionGasResult) (costs : DefaultCosts),
      FieldsOfKind cheapCall.tx ∧
      amsterdam.Accepted cheapCall (spareGas 15000 15000 6100) rich ∧
      result.gasLeft + result.gasReservoir + max result.stateGasSpent 0 ≤ 21100 - 15000 ∧
      amsterdam.planCosts (amsterdam.settlementPlan cheapCall (spareGas 15000 15000 6100)) result =
        some costs ∧
      21100 < costs.gas.block.state := by
  constructor
  · exact ⟨{ gasLeft := 1, gasRefund := 0, gasReservoir := 0, stateGasSpent := 0 },
      { gas := { used := 21099, refunded := 1, block := .legacy 21099 }
        payerRefund := 10
        feePayment := 18989100 },
      ⟨by decide +kernel, by decide +kernel, by decide +kernel⟩, by decide, by decide +kernel,
      by decide +kernel⟩
  · exact ⟨{ gasLeft := -1000000, gasRefund := 0, gasReservoir := 0, stateGasSpent := 500000 },
      { gas := { used := 21100, refunded := 0, block := .fromDimensions 15000 500000 }
        payerRefund := 0
        feePayment := 63300 },
      ⟨fun _ => ⟨rfl, rfl⟩, fun _ => ⟨rfl, rfl⟩⟩,
      ⟨by decide +kernel, by decide +kernel, by decide +kernel⟩, by decide, by decide +kernel,
      by decide +kernel⟩

end EvmZig.Transaction
