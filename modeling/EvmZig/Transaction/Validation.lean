import EvmZig.Transaction.Gas

/-!
# Transaction validation (`src/transaction/validation.zig`)

The checks preparation makes in order: before the sender's account is read,
after it, and of the sender's code.
-/

set_option autoImplicit false

namespace EvmZig.Transaction

open Zig

inductive ValidationError where
  | intrinsicGasTooLow
  | intrinsicGasBelowFloorGasCost
  | insufficientAccountFunds
  | insufficientMaxFeePerGas
  | priorityGreaterThanMaxFeePerGas
  | insufficientMaxFeePerBlobGas
  | gasLimitExceedsMaximum
  | gasAllowanceExceeded
  | nonceIsMax
  | nonceTooLow
  | nonceTooHigh
  | type1TxPreFork
  | type2TxPreFork
  | type3TxPreFork
  | type4TxPreFork
  | type3TxContractCreation
  | type3TxZeroBlobs
  | type3TxBlobCountExceeded
  | type3TxMaxBlobGasAllowanceExceeded
  | type3TxInvalidBlobVersionedHash
  | initcodeSizeExceeded
  | senderNotEoa
  | type4EmptyAuthorizationList
  | type4TxContractCreation
  | invalidChainId
  deriving DecidableEq, Repr

inductive ClassifiedTransactionNonce where
  | absent
  | valid (nonce : U64)
  | atOrAboveLimit
  deriving DecidableEq

def classifyTransactionNonce (encoded : Option U256) : ClassifiedTransactionNonce :=
  match encoded with
  | none => .absent
  | some nonce =>
      if below : nonce.val < 2 ^ 64 - 1 then .valid ⟨nonce.val, below.trans (by decide)⟩
      else .atOrAboveLimit

structure ValidationInput where
  kind : TxKind
  chainId : Option U256
  expectedChainId : U256
  isCreate : Bool
  isSelfTransfer : Bool
  gasLimit : U64
  input : List UInt8
  value : U256
  gasPrice : U256
  baseFee : U256
  blockGasLimit : U64
  blockProgress : BlockProgress
  blobBaseFee : U256
  blobParams : Option BlobParams
  maxFeePerGas : Option U256
  maxPriorityFeePerGas : Option U256
  maxFeePerBlobGas : Option U256
  senderBalance : U256 := 0
  senderNonce : U64 := 0
  txNonce : ClassifiedTransactionNonce
  senderCodeKind : SenderCodeKind := .empty
  authorizationCount : Nat
  accessListCounts : AccessListCounts
  blobHashes : List U256
  deriving DecidableEq

/-- The price per gas the transaction may come to pay. -/
def ValidationInput.bidGasPrice (input : ValidationInput) : Option U256 :=
  match input.kind with
  | .legacy | .accessList => some input.gasPrice
  | .dynamicFee | .blob | .setCode => input.maxFeePerGas

def ValidationInput.bidBlobFee (input : ValidationInput) : Option U256 :=
  if input.kind = .blob then input.maxFeePerBlobGas else some 0

def effectiveBlobSchedule (specSchedule : Option BlobSchedule) (params : Option BlobParams) :
    Option BlobSchedule := do
  let schedule ← specSchedule
  return match params with
    | some params => schedule.withParams params
    | none => schedule

namespace Spec

variable (spec : Spec)

def inactiveTransactionKindError (kind : TxKind) : Option ValidationError :=
  if kind ∈ spec.transaction.activeKinds then none
  else match kind with
    | .legacy => none
    | .accessList => some .type1TxPreFork
    | .dynamicFee => some .type2TxPreFork
    | .blob => some .type3TxPreFork
    | .setCode => some .type4TxPreFork

def exceedsBlockGasAllowance (input : ValidationInput) : Bool :=
  if input.blockGasLimit.val = 0 then false
  else if spec.settlement.usesStateGasAccounting then
    let regularAvailable := input.blockGasLimit.val - input.blockProgress.blockGas.regular
    let stateAvailable := input.blockGasLimit.val - input.blockProgress.blockGas.state
    regularAvailable < spec.regularGasLimit input.gasLimit ∨ stateAvailable < input.gasLimit.val
  else
    let available := input.blockGasLimit.val - input.blockProgress.receiptGasUsed
    available < input.gasLimit.val

def inputGasPlan (input : ValidationInput) : Option GasPlan :=
  spec.gasPlan input.input input.gasLimit
    { authorizationCount := input.authorizationCount
      accessListCounts := input.accessListCounts
      isCreate := input.isCreate
      value := input.value
      isSelfTransfer := input.isSelfTransfer }

/-- `return` the first error of a sequence of checks. -/
def firstError (checks : List (Bool × ValidationError)) : Option ValidationError :=
  (checks.find? (·.1)).map (·.2)

def validateBeforeAccount (input : ValidationInput) (gasPlan : GasPlan) : Option ValidationError :=
  match spec.inactiveTransactionKindError input.kind with
  | some err => some err
  | none =>
    firstError [
      (input.chainId.any (· ≠ input.expectedChainId), .invalidChainId),
      (spec.transaction.intrinsicRegularGasLimit.any
        (· < max gasPlan.intrinsicGas gasPlan.floorGas), .intrinsicGasTooLow),
      (input.gasLimit.val < gasPlan.intrinsicGas, .intrinsicGasTooLow),
      (input.gasLimit.val < gasPlan.floorGas, .intrinsicGasBelowFloorGasCost),
      (input.txNonce = .atOrAboveLimit, .nonceIsMax),
      (input.isCreate ∧ spec.transaction.maxInitcodeSize < input.input.length,
        .initcodeSizeExceeded),
      (spec.transaction.totalGasLimit.any (· < input.gasLimit.val), .gasLimitExceedsMaximum),
      (spec.exceedsBlockGasAllowance input, .gasAllowanceExceeded),
      (input.kind = .blob ∧
        (effectiveBlobSchedule spec.transaction.blobSchedule input.blobParams).all
          (·.max < input.blobHashes.length), .type3TxMaxBlobGasAllowanceExceeded),
      (input.kind = .blob ∧
        (effectiveBlobSchedule spec.transaction.blobSchedule input.blobParams).any
          (·.maxPerTransaction < input.blobHashes.length), .type3TxBlobCountExceeded)]

def maxPrepaymentCost (input : ValidationInput) : Option Nat := do
  let gasPrice ← input.bidGasPrice
  let blobFee ← input.bidBlobFee
  let gasCost ← mulChecked 256 input.gasLimit gasPrice
  let blobGas ← blobGasForCount spec.transaction.blobSchedule
    (if input.kind = .blob then input.blobHashes.length else 0)
  let blobCost ← mulChecked 256 blobGas blobFee
  let transactionCost ← addChecked 256 gasCost blobCost
  addChecked 256 transactionCost input.value

def validateAfterAccount (input : ValidationInput) : Option ValidationError :=
  let maxFee : U256 := input.maxFeePerGas.getD 0
  let priorityFee : U256 := input.maxPriorityFeePerGas.getD 0
  let namesMaxFee : Bool := input.kind = .dynamicFee ∨ input.kind = .blob ∨ input.kind = .setCode
  firstError [
    (namesMaxFee ∧ maxFee < priorityFee, .priorityGreaterThanMaxFeePerGas),
    (namesMaxFee ∧ maxFee < input.baseFee, .insufficientMaxFeePerGas),
    ((input.kind = .legacy ∨ input.kind = .accessList) ∧ spec.settlement.baseFeeActive ∧
      input.gasPrice < input.baseFee, .insufficientMaxFeePerGas),
    (input.kind = .blob ∧ (input.maxFeePerBlobGas.getD 0 : U256) < input.blobBaseFee,
      .insufficientMaxFeePerBlobGas),
    (input.kind = .blob ∧ !spec.transaction.allowsContractCreation input.kind ∧ input.isCreate,
      .type3TxContractCreation),
    (input.kind = .blob ∧ input.blobHashes.length = 0, .type3TxZeroBlobs),
    (input.kind = .blob ∧
      (effectiveBlobSchedule spec.transaction.blobSchedule input.blobParams).any fun schedule =>
        input.blobHashes.any (blobVersion · ≠ schedule.hashVersion),
      .type3TxInvalidBlobVersionedHash),
    (input.kind = .setCode ∧ !spec.transaction.allowsContractCreation input.kind ∧ input.isCreate,
      .type4TxContractCreation),
    (input.kind = .setCode ∧ spec.transaction.requiresAuthorizationList input.kind ∧
      input.authorizationCount = 0, .type4EmptyAuthorizationList),
    (match input.txNonce with | .valid nonce => nonce < input.senderNonce | _ => false,
      .nonceTooLow),
    (match input.txNonce with | .valid nonce => input.senderNonce < nonce | _ => false,
      .nonceTooHigh),
    (input.txNonce = .atOrAboveLimit, .nonceIsMax),
    ((spec.maxPrepaymentCost input).all (input.senderBalance.val < ·),
      .insufficientAccountFunds)]

def validateSenderCode (input : ValidationInput) (rejectsNonDelegating : Bool) :
    Option ValidationError :=
  firstError [(rejectsNonDelegating ∧ input.senderCodeKind = .nonDelegating, .senderNotEoa)]

end Spec

end EvmZig.Transaction
