import EvmZig.Transaction.Settlement
import EvmZig.Zig.Checked

/-!
# Preparation and charging (`src/transaction/prepare.zig`, `src/transaction/transition.zig`)

Preparation reads the state through two calls it is given.  The transaction
transition charges what preparation planned and settles it at the end.
-/

set_option autoImplicit false

namespace EvmZig.Transaction

open Zig
open EvmZig.State (Account CodeHash keccak256Empty)

/-- The read-only state capability of preparation, over a receiver `σ`. -/
structure PreparationStateAccess (σ ε : Type) where
  accountSummary : Address → Action σ ε (Option Account)
  code : Address → CodeHash → Action σ ε (List UInt8)

structure PrepareInput where
  tx : Transaction
  env : Env
  block : BlockProgress

structure Prepared where
  scope : TransactionScope
  message : Message
  executionGas : Option ExecutionGas
  settlement : DefaultPlan
  deriving DecidableEq

inductive PrepareResult where
  | rejected (reason : ValidationError)
  | executable (prepared : Prepared)
  deriving DecidableEq

def isSelfTransfer (view : TransactionView) : Bool :=
  match view.recipient with
  | none => false
  | some recipient => view.sender = recipient

/-- The facts validation starts from, before the sender's account is read. -/
def validationInput (input : PrepareInput) : ValidationInput :=
  let view := transactionView input.tx
  { kind := view.kind
    chainId := view.chainId
    expectedChainId := input.env.chainId
    isCreate := view.recipient.isNone
    isSelfTransfer := isSelfTransfer view
    gasLimit := view.gasLimit
    input := view.input
    value := view.value
    gasPrice := view.fee.gasPrice
    baseFee := input.env.baseFee
    blockGasLimit := input.env.gasLimit
    blockProgress := input.block
    blobBaseFee := input.env.blobBaseFee
    blobParams := input.env.blobParams
    maxFeePerGas := view.fee.maxFeePerGas
    maxPriorityFeePerGas := view.fee.maxPriorityFeePerGas
    maxFeePerBlobGas := view.fee.maxFeePerBlobGas
    txNonce := classifyTransactionNonce view.nonce
    authorizationCount := view.authorizationCount
    accessListCounts := accessListCounts view.accessList
    blobHashes := view.blobHashes }

def ValidationInput.withSender (input : ValidationInput) (account : Option Account) :
    ValidationInput :=
  match account with
  | none => input
  | some account => { input with senderBalance := account.balance, senderNonce := account.nonce }

def ValidationInput.withCodeKind (input : ValidationInput) (senderCodeKind : SenderCodeKind) :
    ValidationInput :=
  { input with senderCodeKind }

namespace Spec

variable (spec : Spec) {σ ε : Type}

def codeKind (code : List UInt8) : SenderCodeKind :=
  if code.length = 0 then .empty
  else if spec.transaction.isDelegationCode code then .delegation
  else .nonDelegating

def settlementPlan (input : PrepareInput) (gasPlan : GasPlan) : DefaultPlan :=
  let view := transactionView input.tx
  let gasPrice := effectiveGasPrice input.env view
  spec.defaultPlanFromGasPlan view.gasLimit gasPlan
    { gasPrice := gasPrice
      priorityFee := spec.effectivePriorityFee
        { gasPrice := gasPrice
          baseFee := input.env.baseFee
          maxFeePerGas := view.fee.maxFeePerGas.map Fin.val
          maxPriorityFeePerGas := view.fee.maxPriorityFeePerGas.map Fin.val }
      feeRecipient := input.env.coinbase
      payer := some view.sender
      value := view.value
      blobBaseFee := input.env.blobBaseFee
      blobCount := view.blobHashes.length }

/-- `create` is `address.create`. -/
def executable (create : Address → U64 → Address) (input : PrepareInput) (gasPlan : GasPlan)
    (senderNonce : U64) : Prepared :=
  let view := transactionView input.tx
  { scope :=
      { context := input.env.executionContext
          { origin := view.sender
            gasPrice := effectiveGasPrice input.env view
            blobHashes := view.blobHashes }
        accessList := view.accessList
        authorizationList := view.authorizationList
        authorizationCount := view.authorizationCount }
    message :=
      match view.recipient with
      | some recipient => .call view.sender recipient view.input view.value
      | none => .create view.sender (create view.sender senderNonce) view.input view.value
    executionGas := gasPlan.execution
    settlement := spec.settlementPlan input gasPlan }

/-- The code kind of a sender whose kind of transaction must not have code. -/
def senderCodeKind (state : PreparationStateAccess σ ε) (sender : Address)
    (account : Option Account) (rejectsNonDelegating : Bool) : Action σ ε SenderCodeKind :=
  match account with
  | none => return .empty
  | some account => do
      if rejectsNonDelegating = false then return .empty
      if account.codeHash = keccak256Empty then return .empty
      let code ← state.code sender account.codeHash
      return spec.codeKind code

def prepare (create : Address → U64 → Address) (state : PreparationStateAccess σ ε)
    (input : PrepareInput) : Action σ ε PrepareResult := do
  let initial := validationInput input
  match spec.inputGasPlan initial with
  | none => return .rejected .intrinsicGasTooLow
  | some gasPlan => do
      if let some err := spec.validateBeforeAccount initial gasPlan then return .rejected err
      let senderAccount ← state.accountSummary input.tx.sender
      let funded := initial.withSender senderAccount
      if let some err := spec.validateAfterAccount funded then return .rejected err
      let rejectsNonDelegating := spec.transaction.rejectsNonDelegatingSenderCode input.tx.kind
      let senderCodeKind ←
        spec.senderCodeKind state input.tx.sender senderAccount rejectsNonDelegating
      if let some err :=
          validateSenderCode (funded.withCodeKind senderCodeKind) rejectsNonDelegating then
        return .rejected err
      return .executable (spec.executable create input gasPlan funded.senderNonce)

end Spec

end EvmZig.Transaction
