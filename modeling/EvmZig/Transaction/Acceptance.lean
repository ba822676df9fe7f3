import EvmZig.Transaction.Prepare

/-!
# What acceptance establishes

Validation reserves the most a transaction can cost at the fees it bids.  The
plan charges the effective fees, which are never above the bid ones.
-/

set_option autoImplicit false

namespace EvmZig.Transaction

open Zig
open EvmZig.State (Account CodeHash)

/-- The optional fee fields and the blob hashes are those of the kind. -/
structure FieldsOfKind (tx : Transaction) : Prop where
  fixedPrice : tx.kind = .legacy ∨ tx.kind = .accessList →
    tx.maxFeePerGas = none ∧ tx.maxPriorityFeePerGas = none
  noBlobs : tx.kind ≠ .blob → tx.maxFeePerBlobGas = none ∧ tx.blobHashes = []

/-- Kinds that bid one price, and kinds that bid a maximum and a priority fee. -/
def TxKind.bidsMaxFee (kind : TxKind) : Prop := kind = .dynamicFee ∨ kind = .blob ∨ kind = .setCode

theorem TxKind.fixed_or_bids (kind : TxKind) :
    (kind = .legacy ∨ kind = .accessList) ∨ kind.bidsMaxFee := by
  cases kind <;> simp [TxKind.bidsMaxFee]

namespace Spec

variable {spec : Spec}

/-! ## The checks -/

theorem firstError_eq_none {checks : List (Bool × ValidationError)} :
    firstError checks = none ↔ ∀ check ∈ checks, check.1 = false := by
  simp [firstError]

structure WithinLimits (spec : Spec) (input : ValidationInput) (plan : GasPlan) : Prop where
  intrinsic : plan.intrinsicGas ≤ input.gasLimit.val
  floor : plan.floorGas ≤ input.gasLimit.val
  total : ∀ {limit}, spec.transaction.totalGasLimit = some limit → input.gasLimit.val ≤ limit
  regular : ∀ {limit}, spec.transaction.intrinsicRegularGasLimit = some limit →
    plan.intrinsicGas ≤ limit

theorem validateBeforeAccount_none {input : ValidationInput} {plan : GasPlan}
    (valid : spec.validateBeforeAccount input plan = none) : WithinLimits spec input plan := by
  unfold validateBeforeAccount at valid
  split at valid
  · cases valid
  · simp only [firstError_eq_none, List.forall_mem_cons, decide_eq_false_iff_not, not_lt,
      Option.any_eq_false] at valid
    obtain ⟨-, regular, intrinsic, floor, -, -, total, -⟩ := valid
    refine ⟨intrinsic, floor, ?_, ?_⟩
    · intro limit limited
      simpa using total limit limited
    · intro limit limited
      have bounded : max plan.intrinsicGas plan.floorGas ≤ limit := by
        simpa using regular limit limited
      omega

/-- What the prepayment adds up. -/
structure Prepayment (spec : Spec) (input : ValidationInput) (price fee : U256) (gas cost : Nat) :
    Prop where
  priced : input.bidGasPrice = some price
  blobPriced : input.bidBlobFee = some fee
  counted : blobGasForCount spec.transaction.blobSchedule
    (if input.kind = .blob then input.blobHashes.length else 0) = some gas
  total : input.gasLimit.val * price.val + gas * fee.val + input.value.val = cost
  fits : cost < 2 ^ 256

theorem maxPrepaymentCost_some {input : ValidationInput} {cost : Nat}
    (found : spec.maxPrepaymentCost input = some cost) :
    ∃ price blobFee blobGas, Prepayment spec input price blobFee blobGas cost := by
  unfold maxPrepaymentCost at found
  simp only [Option.bind_eq_bind, Option.bind_eq_some_iff, mulChecked_eq_some,
    addChecked_eq_some] at found
  obtain ⟨price, priceEq, blobFee, blobFeeEq, _, ⟨-, rfl⟩, blobGas, blobGasEq, _, ⟨-, rfl⟩, _,
    ⟨-, rfl⟩, fits, total⟩ := found
  exact ⟨price, blobFee, blobGas, priceEq, blobFeeEq, blobGasEq, total, total ▸ fits⟩

end Spec

/-! ## Effective fees -/

theorem effectiveGasPrice_fixed {env : Env} {view : TransactionView}
    (fixed : view.kind = .legacy ∨ view.kind = .accessList) :
    effectiveGasPrice env view = view.fee.gasPrice.val := by
  unfold effectiveGasPrice
  rcases fixed with kind | kind <;> rw [kind]

theorem effectiveGasPrice_bid {env : Env} {view : TransactionView} {maxFee : U256}
    (bids : view.kind.bidsMaxFee) (found : view.fee.maxFeePerGas = some maxFee) :
    effectiveGasPrice env view =
      min maxFee.val (env.baseFee.val + (view.fee.maxPriorityFeePerGas.getD 0).val) := by
  have maxFits := maxFee.isLt
  have sum : min maxFee.val (addSat 256 env.baseFee (view.fee.maxPriorityFeePerGas.getD 0)) =
      min maxFee.val (env.baseFee.val + (view.fee.maxPriorityFeePerGas.getD 0).val) := by
    rw [addSat]
    omega
  unfold effectiveGasPrice
  rcases bids with kind | kind | kind <;> rw [kind, found] <;> exact sum

namespace Spec

variable {spec : Spec} {input : PrepareInput} {gasPlan : GasPlan} {account : Option Account}

/-- The checks of preparation passed for this account of the sender. -/
structure Accepted (spec : Spec) (input : PrepareInput) (gasPlan : GasPlan)
    (account : Option Account) : Prop where
  planned : spec.inputGasPlan (validationInput input) = some gasPlan
  before : spec.validateBeforeAccount (validationInput input) gasPlan = none
  after : spec.validateAfterAccount ((validationInput input).withSender account) = none

/-- The sender's balance as validation sees it. -/
def senderBalance (account : Option Account) : U256 :=
  match account with
  | none => 0
  | some account => account.balance

theorem effectivePriorityFee_fixed {price baseFee : Nat} {priority : Option Nat}
    (covered : spec.settlement.baseFeeActive = true → baseFee ≤ price) :
    spec.effectivePriorityFee
        { gasPrice := price, baseFee, maxFeePerGas := none, maxPriorityFeePerGas := priority } +
      (if spec.settlement.baseFeeActive then baseFee else 0) = price := by
  unfold effectivePriorityFee
  cases active : spec.settlement.baseFeeActive with
  | false => simp
  | true =>
      have covered := covered active
      simp only [Bool.true_eq_false, if_false, if_true]
      split <;> omega

theorem effectivePriorityFee_bid {maxFee baseFee : Nat} {priority : Option Nat}
    (covered : baseFee ≤ maxFee) :
    spec.effectivePriorityFee
        { gasPrice := min maxFee (baseFee + priority.getD 0), baseFee, maxFeePerGas := some maxFee
          maxPriorityFeePerGas := priority } +
      (if spec.settlement.baseFeeActive then baseFee else 0) =
        min maxFee (baseFee + priority.getD 0) := by
  unfold effectivePriorityFee
  cases active : spec.settlement.baseFeeActive with
  | false => simp
  | true =>
      simp only [Bool.true_eq_false, if_false, if_true]
      split <;> omega

/-- What the plan's amounts come to, against the balance validation saw. -/
structure Affordable (spec : Spec) (input : PrepareInput) (price gas balance : Nat) : Prop where
  counted : blobGasForCount spec.transaction.blobSchedule input.tx.blobHashes.length = some gas
  funds : input.tx.gasLimit.val * price + gas * input.env.blobBaseFee.val + input.tx.value.val ≤ balance
  /-- The price splits into the burnt base fee and the priority fee. -/
  shares : spec.effectivePriorityFee
      { gasPrice := price
        baseFee := input.env.baseFee
        maxFeePerGas := input.tx.maxFeePerGas.map Fin.val
        maxPriorityFeePerGas := input.tx.maxPriorityFeePerGas.map Fin.val } +
      (if spec.settlement.baseFeeActive then input.env.baseFee.val else 0) = price

/-- What the checks after the account establish. -/
structure Funds (spec : Spec) (input : PrepareInput) (balance : U256) : Prop where
  maxFee : input.tx.kind.bidsMaxFee → input.env.baseFee ≤ input.tx.maxFeePerGas.getD 0
  gasPrice : input.tx.kind = .legacy ∨ input.tx.kind = .accessList →
    spec.settlement.baseFeeActive = true → input.env.baseFee ≤ input.tx.gasPrice
  blobFee : input.tx.kind = .blob → input.env.blobBaseFee ≤ input.tx.maxFeePerBlobGas.getD 0
  prepaid : ∃ price fee gas cost, Prepayment spec (validationInput input) price fee gas cost ∧
    cost ≤ balance.val

theorem Accepted.funds (accepted : Accepted spec input gasPlan account) :
    Funds spec input (senderBalance account) := by
  have valid := accepted.after
  unfold validateAfterAccount at valid
  simp only [firstError_eq_none, List.forall_mem_cons, decide_eq_false_iff_not,
    decide_eq_true_eq, not_and, not_lt] at valid
  obtain ⟨-, maxFee, gasPrice, blobFee, -, -, -, -, -, -, -, -, prepaid, -⟩ := valid
  have unchanged : spec.maxPrepaymentCost ((validationInput input).withSender account) =
      spec.maxPrepaymentCost (validationInput input) := by
    cases account <;> rfl
  have balance : ((validationInput input).withSender account).senderBalance = senderBalance account := by
    cases account <;> rfl
  rw [unchanged, balance] at prepaid
  cases found : spec.maxPrepaymentCost (validationInput input) with
  | none =>
      rw [found] at prepaid
      cases prepaid
  | some cost =>
      rw [found] at prepaid
      obtain ⟨price, fee, gas, prepayment⟩ := maxPrepaymentCost_some found
      have affordable : cost ≤ (senderBalance account).val := by simpa using prepaid
      cases account with
      | none => exact ⟨maxFee, gasPrice, blobFee, price, fee, gas, cost, prepayment, affordable⟩
      | some account => exact ⟨maxFee, gasPrice, blobFee, price, fee, gas, cost, prepayment, affordable⟩

variable {balance price fee : U256} {gas cost : Nat}

theorem bidGasPrice_fixed {initial : ValidationInput}
    (fixed : initial.kind = .legacy ∨ initial.kind = .accessList) :
    initial.bidGasPrice = some initial.gasPrice := by
  unfold ValidationInput.bidGasPrice
  rcases fixed with kind | kind <;> rw [kind]

theorem bidGasPrice_bid {initial : ValidationInput} (bids : initial.kind.bidsMaxFee) :
    initial.bidGasPrice = initial.maxFeePerGas := by
  unfold ValidationInput.bidGasPrice
  rcases bids with kind | kind | kind <;> rw [kind]

theorem Prepayment.bid_of_kind (prepayment : Prepayment spec (validationInput input) price fee gas cost)
    (bids : input.tx.kind.bidsMaxFee) : input.tx.maxFeePerGas = some price := by
  have priced := prepayment.priced
  rw [bidGasPrice_bid bids] at priced
  exact priced

theorem Prepayment.gasPrice_of_kind
    (prepayment : Prepayment spec (validationInput input) price fee gas cost)
    (fixed : input.tx.kind = .legacy ∨ input.tx.kind = .accessList) : input.tx.gasPrice = price := by
  have priced := prepayment.priced
  rw [bidGasPrice_fixed fixed] at priced
  exact Option.some.inj priced

/-- The effective price is within the bid. -/
theorem Prepayment.price_le (prepayment : Prepayment spec (validationInput input) price fee gas cost) :
    effectiveGasPrice input.env (transactionView input.tx) ≤ price.val := by
  rcases input.tx.kind.fixed_or_bids with fixed | bids
  · rw [effectiveGasPrice_fixed fixed, ← prepayment.gasPrice_of_kind fixed]
    exact le_rfl
  · rw [effectiveGasPrice_bid bids (prepayment.bid_of_kind bids)]
    exact min_le_left _ _

/-- The blob gas is that of the transaction's hashes, and its price within the bid. -/
theorem Prepayment.blob (prepayment : Prepayment spec (validationInput input) price fee gas cost)
    (ofKind : FieldsOfKind input.tx) (funds : Funds spec input balance) :
    blobGasForCount spec.transaction.blobSchedule input.tx.blobHashes.length = some gas ∧
      gas * input.env.blobBaseFee.val ≤ gas * fee.val := by
  have counted := prepayment.counted
  have priced := prepayment.blobPriced
  rw [ValidationInput.bidBlobFee] at priced
  by_cases blob : (validationInput input).kind = .blob
  · rw [if_pos blob] at counted priced
    have priced : input.tx.maxFeePerBlobGas = some fee := priced
    have covered := funds.blobFee blob
    rw [priced, Option.getD_some] at covered
    exact ⟨counted, Nat.mul_le_mul_left gas covered⟩
  · rw [if_neg blob] at counted
    rw [(ofKind.noBlobs blob).2, List.length_nil]
    have zero : gas = 0 := Option.some.inj (counted.symm.trans (if_pos rfl))
    rw [zero, Nat.zero_mul, Nat.zero_mul]
    exact ⟨if_pos rfl, le_rfl⟩

theorem Funds.shares (funds : Funds spec input balance) (ofKind : FieldsOfKind input.tx)
    (prepayment : Prepayment spec (validationInput input) price fee gas cost) :
    spec.effectivePriorityFee
        { gasPrice := effectiveGasPrice input.env (transactionView input.tx)
          baseFee := input.env.baseFee
          maxFeePerGas := input.tx.maxFeePerGas.map Fin.val
          maxPriorityFeePerGas := input.tx.maxPriorityFeePerGas.map Fin.val } +
      (if spec.settlement.baseFeeActive then input.env.baseFee.val else 0) =
        effectiveGasPrice input.env (transactionView input.tx) := by
  rcases input.tx.kind.fixed_or_bids with fixed | bids
  · rw [effectiveGasPrice_fixed fixed, (ofKind.fixedPrice fixed).1, (ofKind.fixedPrice fixed).2]
    exact effectivePriorityFee_fixed (funds.gasPrice fixed)
  · have bid := prepayment.bid_of_kind bids
    have covered := funds.maxFee bids
    rw [bid, Option.getD_some] at covered
    rw [effectiveGasPrice_bid bids bid, bid, Option.map_some]
    have priority : ((transactionView input.tx).fee.maxPriorityFeePerGas.getD 0).val =
        (input.tx.maxPriorityFeePerGas.map Fin.val).getD 0 := by
      show (input.tx.maxPriorityFeePerGas.getD 0).val = _
      cases input.tx.maxPriorityFeePerGas <;> rfl
    rw [priority]
    exact effectivePriorityFee_bid covered

/-- An accepted transaction can pay what its plan charges. -/
theorem Accepted.affordable (accepted : Accepted spec input gasPlan account)
    (ofKind : FieldsOfKind input.tx) :
    ∃ gas, Affordable spec input (effectiveGasPrice input.env (transactionView input.tx)) gas
      (senderBalance account) := by
  have funds := accepted.funds
  obtain ⟨price, fee, gas, cost, prepayment, affordable⟩ := funds.prepaid
  obtain ⟨counted, blobWithin⟩ := prepayment.blob ofKind funds
  have priceWithin := Nat.mul_le_mul_left input.tx.gasLimit.val prepayment.price_le
  have total : input.tx.gasLimit.val * price.val + gas * fee.val + input.tx.value.val = cost :=
    prepayment.total
  refine ⟨gas, counted, ?_, funds.shares ofKind prepayment⟩
  omega

/-! ## The plan of an accepted transaction -/

/-- A gas limit within the limits of the fork leaves gas to execute with. -/
theorem Accepted.executes (accepted : Accepted spec input gasPlan account)
    (covers : spec.CapCovers) : ∃ gas, gasPlan.execution = some gas := by
  have planned := gasPlan_planned accepted.planned
  have limits := validateBeforeAccount_none accepted.before
  refine planned.executes_of_capCovers covers ?_ limits.total limits.regular
  rw [planned.minimum]
  exact max_le limits.intrinsic limits.floor

/-- The amounts of the plan are the sums themselves. -/
structure Exact (spec : Spec) (input : PrepareInput) (plan : DefaultPlan) (gas : Nat) : Prop where
  upfront : plan.upfrontDebit =
    input.tx.gasLimit.val * plan.gasPrice + gas * input.env.blobBaseFee.val
  minimum : plan.minimumBalance = plan.upfrontDebit + input.tx.value.val
  fits : plan.minimumBalance < 2 ^ 256

theorem Affordable.exact {balance : U256} {gas : Nat}
    (affordable : Affordable spec input (effectiveGasPrice input.env (transactionView input.tx)) gas
      balance.val) :
    Exact spec input (spec.settlementPlan input gasPlan) gas ∧
      (spec.settlementPlan input gasPlan).minimumBalance ≤ balance.val := by
  obtain ⟨counted, funds, -⟩ := affordable
  have below := balance.isLt
  have upfront : (spec.settlementPlan input gasPlan).upfrontDebit =
      input.tx.gasLimit.val * effectiveGasPrice input.env (transactionView input.tx) +
        gas * input.env.blobBaseFee.val := by
    show prechargeCost _ input.tx.gasLimit.val _ input.env.blobBaseFee.val
      input.tx.blobHashes.length = _
    rw [prechargeCost, counted]
    dsimp only
    rw [mulSat_eq (by omega), mulSat_eq (by omega), addSat_eq (by omega)]
  have minimum : (spec.settlementPlan input gasPlan).minimumBalance =
      (spec.settlementPlan input gasPlan).upfrontDebit + input.tx.value.val := by
    show addSat 256 (spec.settlementPlan input gasPlan).upfrontDebit input.tx.value.val = _
    rw [addSat_eq (by omega)]
  refine ⟨⟨upfront, minimum, ?_⟩, ?_⟩ <;> omega

end Spec

end EvmZig.Transaction
