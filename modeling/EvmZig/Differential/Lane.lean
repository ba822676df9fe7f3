import EvmZig.Bal.ShardFold
import EvmZig.Execution.Result
import EvmZig.State.LogBuffer
import EvmZig.Transaction.Settlement

/-!
# One candidate lane (`eth/bal/differential/lane.zig`, `report.zig`)

A lane executes one included transaction over positioned reads of the claim,
compares its result and logs with the canonical ones and hands back the
observed transition.  The engine, the reader below the claim and the
allocators are parameters, as they are in the source.
-/

set_option autoImplicit false

namespace EvmZig.Differential

open Zig Bal EvmZig.Transaction
open EvmZig.State (Bytes HostLog)

/-- The members of `anyerror` that the lane or its coordinator name. -/
inductive LaneError
  | outOfMemory
  | stateReaderStrategyFailure
  | outcomeMismatch
  | candidateArtifactMismatch
  | candidateRejectionMismatch
  | unsupportedBeforeTransactionHooks
  | unsupportedAfterTransactionHooks
  | blockAccessIndexOverflow
  | outOfOrderTransaction
  | blobGasOverflow
  | blockGasExceeded
  | blockProgressOverflow
  | concurrencyUnavailable
  | fold (error : FoldError)
  | other (code : Nat)
  deriving DecidableEq

/-- `ClaimReader.StrategyFailure`. -/
inductive StrategyFailure
  | accountNotCovered
  | storageNotCovered
  deriving DecidableEq

/-! ## Block progress (`vm/block_execution.zig`) -/

/-- `FoldResult`. -/
structure BlockResult where
  gasUsed : Nat := 0
  blockGas : BlockGas := {}
  txCount : Nat := 0
  deriving DecidableEq

namespace BlockResult

def preparation (self : BlockResult) : BlockProgress where
  receiptGasUsed := self.gasUsed
  blockGas := self.blockGas

end BlockResult

/-- `BlockGas.add`. -/
def addBlockGas (left right : BlockGas) : Option BlockGas := do
  let regular ← addChecked 64 left.regular right.regular
  let state ← addChecked 64 left.state right.state
  return BlockGas.fromDimensions regular state

/-- `BlockGas.withinLimit`; a zero limit is no limit. -/
def withinLimit (self : BlockGas) (limit : Nat) : Bool :=
  limit == 0 || decide (self.total ≤ limit)

/-- `advance`, with the errors `advanceProgress` renames. -/
def advanceProgress (env : Env) (progress : BlockResult) (gas : ResultGas) :
    Except LaneError BlockResult :=
  match addChecked 64 progress.gasUsed gas.used with
  | none => .error .blockGasExceeded
  | some gasUsed =>
      match addBlockGas progress.blockGas gas.block with
      | none => .error .blockGasExceeded
      | some blockGas =>
          if withinLimit blockGas env.gasLimit.val = false then .error .blockGasExceeded
          else
            match addChecked 64 progress.txCount 1 with
            | none => .error .blockProgressOverflow
            | some txCount => .ok { gasUsed, blockGas, txCount }

def executionExceedsBlockGas (env : Env) (progress : BlockResult) (gas : ResultGas) :
    Except LaneError Bool :=
  match advanceProgress env progress gas with
  | .error .blockGasExceeded => .ok true
  | .error error => .error error
  | .ok _ => .ok false

/-! ## The engine -/

/-- `vm.TxExecutionResult`. -/
structure TxExecutionResult where
  status : Execution.Status
  gas : ResultGas
  output : Bytes
  createdAddress : Option Address
  deriving DecidableEq

/-- `vm.TxReceiptView`. -/
structure TxReceiptView where
  status : Execution.Status
  gasUsed : Nat
  cumulativeGasUsed : Nat
  createdAddress : Option Address
  logs : List HostLog

/-- `ClaimReader`, without the failure it records on the way. -/
structure ClaimReader (Reader ClaimView : Type) where
  base : Reader
  claim : ClaimView
  blockAccessIndex : BlockAccessIndex

/-- What an engine call answers, beside the failure its claim reader kept. -/
structure Attempt (α : Type) where
  result : Except LaneError α
  strategyFailure : Option StrategyFailure

inductive Transacted (α : Type)
  | rejected
  | executed (value : α)

/-- An execution before its transaction is discarded. -/
structure ExecutedView (Observations : Type) where
  output : TxExecutionResult
  logs : List HostLog
  observations : Observations

/-- `BeforeTransactionContext`. -/
structure BeforeTransactionContext where
  number : U64
  timestamp : U64
  transactionIndex : Nat

/-- `AfterTransactionContext`. -/
structure AfterTransactionContext where
  number : U64
  timestamp : U64
  transactionIndex : Nat
  status : Execution.Status
  gasUsed : Nat
  cumulativeGasUsed : Nat
  cumulativeBlockGas : Nat
  cumulativeStateGas : Nat

/-- `ExecutionDependencies`. -/
structure ExecutionDependencies (Backend HashSource : Type) where
  preparedCodeBackend : Option Backend := none
  blockHashSource : Option HashSource := none

/-- The compiled engine together with the vtables that a lane passes to it.
An `Allocator` is what the memory behind it will grant. -/
structure Engine where
  Transaction : Type
  Reader : Type
  ClaimView : Type
  Backend : Type
  HashSource : Type
  Allocator : Type
  Observations : Type
  Header : Type
  Call : Type
  /-- `Advanced.observe(executor).transact`. -/
  observe : Allocator → ClaimReader Reader ClaimView →
    ExecutionDependencies Backend HashSource → Env → Transaction → BlockProgress →
      Attempt (Transacted (ExecutedView Observations))
  /-- `projector.materialize`. -/
  materialize : Allocator → Observations → Except LaneError LaneTransition
  /-- `Advanced.transact`. -/
  transact : Allocator → ClaimReader Reader ClaimView →
    ExecutionDependencies Backend HashSource → Env → Transaction → BlockProgress →
      Attempt (Transacted TxExecutionResult)
  /-- The block-start system calls and the shard built from what they touch. -/
  beforeBlockShard : Allocator → Reader → ExecutionDependencies Backend HashSource → Header →
    Except LaneError (List AccountChanges)
  beforeTransaction : BeforeTransactionContext → List Call
  afterTransaction : AfterTransactionContext → List Call

variable {engine : Engine}

/-! ## A lane -/

/-- `Lane.Context`. -/
structure LaneContext (engine : Engine) where
  env : Env
  claim : engine.ClaimView
  preparedCodeBackend : Option engine.Backend := none
  blockHashSource : Option engine.HashSource := none

structure Included (engine : Engine) where
  transaction : engine.Transaction
  txIndex : Nat
  progressBefore : BlockResult
  progressAfter : BlockResult
  result : TxExecutionResult
  logs : List HostLog
  blobGasUsedAfter : Nat

inductive RejectedKind
  | transaction
  | blockGas
  | blobGas
  deriving DecidableEq

structure Rejected (engine : Engine) where
  kind : RejectedKind
  transaction : engine.Transaction
  txIndex : Nat
  progressBefore : BlockResult
  blobGasUsedBefore : Nat

/-- `OwnedIncluded.init`: the copies hold what the borrowed slices held. -/
def OwnedIncluded.init (granted : Bool) (included : Included engine) :
    Except LaneError (Included engine) :=
  if granted then .ok included else .error .outOfMemory

/-- `Lane.Outcome`. -/
inductive LaneOutcome
  | evidence (transition : LaneTransition)
  | outcomeMismatch
  | rejected
  | failed (error : LaneError) (strategyFailure : Option StrategyFailure)
  deriving DecidableEq

def LaneOutcome.isOutOfMemory : LaneOutcome → Bool
  | .failed error _ => error == .outOfMemory
  | _ => false

/-- `executionResultEqual` and `logsEqual`. -/
def agreesWith (view : ExecutedView engine.Observations) (included : Included engine) : Bool :=
  decide (view.output = included.result) && decide (view.logs = included.logs)

/-- The block access index of a transaction, a `u32`. -/
def blockAccessIndex (txIndex : Nat) : Option BlockAccessIndex :=
  if bound : txIndex < 2 ^ 32 then some ⟨txIndex, bound⟩ else none

namespace Lane

def runFallible (context : LaneContext engine) (allocator : engine.Allocator)
    (claimReader : ClaimReader engine.Reader engine.ClaimView) (included : Included engine) :
    Attempt LaneOutcome :=
  let attempt := engine.observe allocator claimReader
    { preparedCodeBackend := context.preparedCodeBackend
      blockHashSource := context.blockHashSource }
    context.env included.transaction included.progressBefore.preparation
  { result :=
      match attempt.result with
      | .error error => .error error
      | .ok .rejected => .ok .rejected
      | .ok (.executed view) =>
          if agreesWith view included then
            match engine.materialize allocator view.observations with
            | .error error => .error error
            | .ok transition => .ok (.evidence transition)
          else .ok .outcomeMismatch
    strategyFailure := attempt.strategyFailure }

/-- `Lane.run`: transaction zero reads index zero, transaction N through N. -/
def run (context : LaneContext engine) (allocator : engine.Allocator) (baseReader : engine.Reader)
    (included : Included engine) : LaneOutcome :=
  match blockAccessIndex included.txIndex with
  | none => .failed .blockAccessIndexOverflow none
  | some index =>
      let attempt := runFallible context allocator ⟨baseReader, context.claim, index⟩ included
      match attempt.result with
      | .error error => .failed error attempt.strategyFailure
      | .ok outcome => outcome

end Lane

/-! ## Status and report -/

inductive Status
  | notRun
  | outcomesMatched
  | candidateMatched
  | rejectionMatched
  | matched
  | fallbackParallelRuntime
  | diagnosticFailure
  | claimAccountNotCovered
  | claimStorageNotCovered
  | claimImportFailed
  | outcomeMismatch
  | candidateArtifactMismatch
  | candidateRejectionMismatch
  | unsupportedBeforeTransactionHooks
  | unsupportedAfterTransactionHooks
  deriving DecidableEq

inductive ParallelFallback
  | concurrentStateReaderUnavailable
  | concurrentBlockHashSourceUnavailable
  | laneStorageUnavailable
  | concurrencyUnavailable
  | laneOutOfMemory
  deriving DecidableEq

structure Report where
  status : Status := .notRun
  txIndex : Option Nat := none
  diagnosticError : Option LaneError := none
  foldedTransactions : Nat := 0
  parallelFallback : Option ParallelFallback := none
  parallelBatches : Nat := 0
  parallelSubmittedLanes : Nat := 0
  parallelMaxBatchSize : Nat := 0
  deriving DecidableEq

def statusForError : LaneError → Option StrategyFailure → Status
  | .stateReaderStrategyFailure, some .accountNotCovered => .claimAccountNotCovered
  | .stateReaderStrategyFailure, some .storageNotCovered => .claimStorageNotCovered
  | _, _ => .diagnosticFailure

def statusForCandidateError : LaneError → Status
  | .outcomeMismatch => .outcomeMismatch
  | .candidateArtifactMismatch => .candidateArtifactMismatch
  | .candidateRejectionMismatch => .candidateRejectionMismatch
  | .unsupportedBeforeTransactionHooks => .unsupportedBeforeTransactionHooks
  | .unsupportedAfterTransactionHooks => .unsupportedAfterTransactionHooks
  | _ => .diagnosticFailure

def candidateErrorIsSemantic : LaneError → Bool
  | .outcomeMismatch => true
  | .candidateArtifactMismatch => true
  | .candidateRejectionMismatch => true
  | .unsupportedBeforeTransactionHooks => true
  | .unsupportedAfterTransactionHooks => true
  | _ => false

end EvmZig.Differential
