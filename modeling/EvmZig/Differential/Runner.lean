import EvmZig.Differential.Lane
import EvmZig.Lib.SlotTasks
import EvmZig.Zig.Checked

/-!
# The candidate coordinator (`runner.zig`, `schedule.zig`, `accumulator.zig`)

Included transactions are verified one by one, or staged into slots and
executed in bounded batches whose lanes end in any order and are accepted in
transaction order.  What the runtime may decide is a `Runtime`: which
submissions it takes, in which order the lanes end, what memory each lane gets
and whether the join is canceled.
-/

set_option autoImplicit false

namespace EvmZig.Differential

open Zig Bal EvmZig.Transaction
open EvmZig.State (Bytes HostLog)

/-- The block operations the accumulator is compiled with. -/
structure Operations (engine : Engine) where
  appendCandidateDepositRequestData : Bytes → List HostLog → Bytes × Except LaneError Unit
  candidateLogsBloom : List HostLog → Bytes
  mergeCandidateLogsBloom : Bytes → Bytes → Bytes
  encodeCandidateReceipt : engine.Transaction → TxReceiptView → Bytes → Except LaneError Bytes
  candidateTransactionBlobGasUsed : engine.Transaction → Except LaneError Nat
  candidateBlockBlobGasLimit : Option BlobParams → Except LaneError Nat

variable {engine : Engine} (operations : Operations engine)

/-! ## The accumulator -/

structure Accumulator where
  env : Env
  progress : BlockResult := {}
  blobGasUsed : Nat := 0
  balShardFold : ShardFold := ShardFold.init
  transactionCount : Nat := 0
  encodedReceipts : List Bytes := []
  depositRequestData : Bytes := []
  blockLogsBloom : Bytes := List.replicate 256 0

structure BlobGasAdmission where
  next : Nat
  exceedsLimit : Bool

namespace Accumulator

def appendShard (self : Accumulator) (accounts : List AccountChanges) :
    Accumulator × Except LaneError Unit :=
  let appended := self.balShardFold.append accounts
  ({ self with balShardFold := appended.1 },
    match appended.2 with
    | .error error => .error (.fold error)
    | .ok value => .ok value)

def blobGasAdmission (self : Accumulator) (transaction : engine.Transaction) :
    Except LaneError BlobGasAdmission :=
  match operations.candidateTransactionBlobGasUsed transaction with
  | .error error => .error error
  | .ok transactionBlobGas =>
      match addChecked 64 self.blobGasUsed transactionBlobGas with
      | none => .error .blobGasOverflow
      | some next =>
          match operations.candidateBlockBlobGasLimit self.env.blobParams with
          | .error error => .error error
          | .ok limit => .ok { next, exceedsLimit := decide (next > limit) }

/-- The checks of `accept`, before its first write. -/
def checkIncluded (self : Accumulator) (included : Included engine) :
    Except LaneError (BlockResult × BlobGasAdmission) :=
  match advanceProgress self.env self.progress included.result.gas with
  | .error _ => .error .candidateArtifactMismatch
  | .ok nextProgress =>
      match self.blobGasAdmission operations included.transaction with
      | .error .blobGasOverflow => .error .candidateArtifactMismatch
      | .error error => .error error
      | .ok blobAdmission =>
          if nextProgress ≠ included.progressAfter ∨ blobAdmission.exceedsLimit = true ∨
              blobAdmission.next ≠ included.blobGasUsedAfter then
            .error .candidateArtifactMismatch
          else if (engine.afterTransaction {
              number := self.env.number
              timestamp := self.env.timestamp
              transactionIndex := nextProgress.txCount - 1
              status := included.result.status
              gasUsed := included.result.gas.used
              cumulativeGasUsed := nextProgress.gasUsed
              cumulativeBlockGas := nextProgress.blockGas.total
              cumulativeStateGas := nextProgress.blockGas.state }).length ≠ 0 then
            .error .unsupportedAfterTransactionHooks
          else if included.txIndex ≠ self.transactionCount then .error .outOfOrderTransaction
          else .ok (nextProgress, blobAdmission)

def appendObservations (fold : ShardFold) (index : BlockAccessIndex) :
    List AccountObservation → ShardFold × Except LaneError Unit
  | [] => (fold, .ok ())
  | account :: accounts =>
      match fold.appendObservation account index with
      | (after, .error error) => (after, .error (.fold error))
      | (after, .ok ()) => appendObservations after index accounts

/-- An error return keeps what was written before it. -/
def accept (self : Accumulator) (included : Included engine) (transition : LaneTransition) :
    Accumulator × Except LaneError Unit :=
  match self.checkIncluded operations included with
  | .error error => (self, .error error)
  | .ok (nextProgress, blobAdmission) =>
      let counted := { self with transactionCount := self.transactionCount + 1 }
      match (addChecked 64 included.txIndex 1).bind blockAccessIndex with
      | none => (counted, .error .blockAccessIndexOverflow)
      | some writeIndex =>
          let appended := appendObservations counted.balShardFold writeIndex transition.accounts
          let folded := { counted with balShardFold := appended.1 }
          match appended.2 with
          | .error error => (folded, .error error)
          | .ok _ =>
              let deposits := operations.appendCandidateDepositRequestData
                folded.depositRequestData included.logs
              let requested := { folded with depositRequestData := deposits.1 }
              let logsBloom := operations.candidateLogsBloom included.logs
              match deposits.2, operations.encodeCandidateReceipt included.transaction
                  { status := included.result.status
                    gasUsed := included.result.gas.used
                    cumulativeGasUsed := nextProgress.gasUsed
                    createdAddress := included.result.createdAddress
                    logs := included.logs } logsBloom with
              | .error error, _ => (requested, .error error)
              | .ok _, .error error => (requested, .error error)
              | .ok _, .ok encodedReceipt =>
                  ({ requested with
                    encodedReceipts := requested.encodedReceipts ++ [encodedReceipt]
                    blockLogsBloom :=
                      operations.mergeCandidateLogsBloom requested.blockLogsBloom logsBloom
                    progress := nextProgress
                    blobGasUsed := blobAdmission.next }, .ok ())

end Accumulator

/-! ## Batches (`io/batch_scheduler.zig`) -/

inductive Submission
  | async
  | concurrent
  deriving DecidableEq

/-- What the runtime decides about one batch. -/
structure Runtime (engine : Engine) where
  grants : Nat → Bool
  completion : (count : Nat) → Lib.Completion count
  allocator : Nat → engine.Allocator
  canceled : Bool
  /-- Whether the slot's input arena could copy the staged transaction. -/
  staged : Bool

/-- The first submission that is refused: only `concurrent` ones are. -/
def Submission.firstRefused (submission : Submission) (grants : Nat → Bool) (count : Nat) :
    Option Nat :=
  match submission with
  | .async => none
  | .concurrent => (List.range count).find? fun index => !grants index

inductive BatchResult
  | completed
  | concurrencyUnavailable (submitted : Nat)
  | canceled
  deriving DecidableEq

/-- `run`: a refused submission cancels the lanes submitted before it. -/
def batchRun {α : Type} (submission : Submission) (runtime : Runtime engine) (items : List α)
    (task : Nat → α → α) : List α × BatchResult :=
  match submission.firstRefused runtime.grants items.length with
  | some submitted =>
      (Lib.runTasks task (runtime.completion submitted).val items, .concurrencyUnavailable submitted)
  | none =>
      (Lib.runTasks task (runtime.completion items.length).val items,
        if runtime.canceled then .canceled else .completed)

/-! ## The schedule -/

structure Slot (engine : Engine) where
  expected : Option (Included engine) := none
  outcome : Option LaneOutcome := none

def Slot.reset (_ : Slot engine) : Slot engine := {}

structure ParallelExecution (engine : Engine) where
  submission : Submission
  maxInFlight : Nat
  stateReader : engine.Reader
  blockHashSource : Option engine.HashSource

structure Schedule (engine : Engine) where
  submission : Submission
  laneContext : LaneContext engine
  baseReader : engine.Reader
  slots : List (Slot engine)
  pendingCount : Nat := 0
  expectedProgress : BlockResult := {}
  enabled : Bool := true

namespace Schedule

/-- `Schedule.init`: parallel lanes prepare code privately. -/
def init (execution : ParallelExecution engine) (laneContext : LaneContext engine) :
    Schedule engine where
  submission := execution.submission
  laneContext := {
    env := laneContext.env
    claim := laneContext.claim
    blockHashSource := execution.blockHashSource }
  baseReader := execution.stateReader
  slots := List.replicate execution.maxInFlight {}

def hasPending (self : Schedule engine) : Bool := self.pendingCount != 0

def isFull (self : Schedule engine) : Bool := self.pendingCount == self.slots.length

def stage (included : Included engine) (progressAfter : BlockResult) (granted : Bool) :
    Action (Schedule engine) LaneError Unit := do
  Action.assert fun self => self.enabled = true
  Action.assert fun self => self.pendingCount < self.slots.length
  let self ← Action.get
  let slot ← Action.ofOption self.slots[self.pendingCount]?
  Action.assert fun _ => slot.expected.isNone = true ∧ slot.outcome.isNone = true
  match OwnedIncluded.init granted included with
  | .error error => Action.fail error
  | .ok owned =>
      Action.modify fun self => { self with
        slots := self.slots.set self.pendingCount { slot with expected := some owned }
        pendingCount := self.pendingCount + 1
        expectedProgress := progressAfter }

def discard (self : Schedule engine) (progress : BlockResult) : Schedule engine :=
  { self with
    slots := (self.slots.take self.pendingCount).map Slot.reset ++ self.slots.drop self.pendingCount
    pendingCount := 0
    expectedProgress := progress }

def disable (self : Schedule engine) : Schedule engine := { self with enabled := false }

/-- `runTask`. -/
def runTask (self : Schedule engine) (runtime : Runtime engine) (index : Nat) (slot : Slot engine) :
    Slot engine :=
  { slot with
    outcome := slot.expected.map
      (Lane.run self.laneContext (runtime.allocator index) self.baseReader) }

end Schedule

def Report.recordBatch (self : Report) (submitted : Nat) : Report :=
  { self with
    parallelSubmittedLanes := self.parallelSubmittedLanes + submitted
    parallelMaxBatchSize := max self.parallelMaxBatchSize submitted }

/-! ## The runner -/

inductive Canceled
  | canceled
  deriving DecidableEq

structure Runner (engine : Engine) where
  allocator : engine.Allocator
  env : Env
  baseReader : engine.Reader
  preparedCodeBackend : Option engine.Backend
  blockHashSource : Option engine.HashSource
  claim : engine.ClaimView
  report : Report := {}
  accumulator : Accumulator
  parallelBatch : Option (Schedule engine) := none
  active : Bool := true

namespace Runner

def laneContext (self : Runner engine) : LaneContext engine where
  env := self.env
  claim := self.claim
  preparedCodeBackend := self.preparedCodeBackend
  blockHashSource := self.blockHashSource

def dependencies (self : Runner engine) : ExecutionDependencies engine.Backend engine.HashSource where
  preparedCodeBackend := self.preparedCodeBackend
  blockHashSource := self.blockHashSource

/-- `init` without a parallel execution, into a report that was reset. -/
def init (allocator : engine.Allocator) (context : LaneContext engine)
    (baseReader : engine.Reader) : Runner engine where
  allocator := allocator
  env := context.env
  baseReader := baseReader
  preparedCodeBackend := context.preparedCodeBackend
  blockHashSource := context.blockHashSource
  claim := context.claim
  accumulator := { env := context.env }

/-- The tail of `init`; `granted` says whether the slots could be allocated. -/
def withParallel (self : Runner engine) (granted : Bool) :
    Option (ParallelExecution engine) → Runner engine
  | none => self
  | some execution =>
      if granted then
        { self with parallelBatch := some (Schedule.init execution self.laneContext) }
      else
        { self with report := { self.report with parallelFallback := some .laneStorageUnavailable } }

def stop (self : Runner engine) (status : Status) (txIndex : Nat) (error : Option LaneError) :
    Runner engine :=
  { self with
    report := { self.report with
      status := status, txIndex := some txIndex, diagnosticError := error }
    active := false }

def stopForError (self : Runner engine) (error : LaneError) (txIndex : Nat)
    (strategyFailure : Option StrategyFailure) : Runner engine :=
  self.stop (statusForError error strategyFailure) txIndex (some error)

def stopForCandidateError (self : Runner engine) (error : LaneError) (txIndex : Nat) :
    Runner engine :=
  self.stop (statusForCandidateError error) txIndex
    (if candidateErrorIsSemantic error then none else some error)

def stopForRejectedError (self : Runner engine) (error : LaneError) (txIndex : Nat)
    (strategyFailure : Option StrategyFailure) : Runner engine :=
  if candidateErrorIsSemantic error then self.stopForCandidateError error txIndex
  else self.stopForError error txIndex strategyFailure

def stopParallel (reason : ParallelFallback) (txIndex : Nat) (error : Option LaneError) :
    Action (Runner engine) Canceled Unit := do
  let self ← Action.get
  let batch ← Action.ofOption self.parallelBatch
  Action.modify fun self =>
    { self with
      parallelBatch := some batch.disable
      report := { self.report with
        parallelFallback := self.report.parallelFallback <|> some reason } }.stop
      .fallbackParallelRuntime txIndex error

def discardPending (self : Runner engine) : Runner engine :=
  match self.parallelBatch with
  | none => self
  | some batch => { self with parallelBatch := some (batch.discard self.accumulator.progress) }

def acceptOutcome (self : Runner engine) (included : Included engine) (outcome : LaneOutcome) :
    Runner engine :=
  if self.active = false then self
  else
    match outcome with
    | .evidence transition =>
        match self.accumulator.accept operations included transition with
        | (accumulator, .error error) =>
            { self with accumulator }.stopForCandidateError error included.txIndex
        | (accumulator, .ok _) =>
            { self with
              accumulator
              report := { self.report with
                foldedTransactions := accumulator.transactionCount } }
    | .outcomeMismatch => self.stop .outcomeMismatch included.txIndex none
    | .rejected => self.stop .outcomeMismatch included.txIndex none
    | .failed error strategyFailure => self.stopForError error included.txIndex strategyFailure

def acceptLaneOutcome (included : Included engine) (outcome : LaneOutcome) :
    Action (Runner engine) Canceled Unit := do
  let self ← Action.get
  if self.active = true ∧ outcome.isOutOfMemory = true then
    stopParallel .laneOutOfMemory included.txIndex (some .outOfMemory)
  else
    Action.modify fun self => self.acceptOutcome operations included outcome

/-- Hand the slots of a joined batch to the owner, resetting each. -/
def acceptSlots : List (Slot engine) → Action (Runner engine) Canceled (List (Slot engine))
  | [] => pure []
  | slot :: slots => do
      let expected ← Action.ofOption slot.expected
      let outcome ← Action.ofOption slot.outcome
      acceptLaneOutcome operations expected outcome
      let rest ← acceptSlots slots
      return slot.reset :: rest

/-- The joined slots, and the lanes that were submitted for them. -/
def recordBatch (self : Runner engine) (joined : Schedule engine) (submitted : Nat) :
    Runner engine :=
  { self with parallelBatch := some joined, report := self.report.recordBatch submitted }

def countBatch (self : Runner engine) : Runner engine :=
  { self with report := { self.report with parallelBatches := self.report.parallelBatches + 1 } }

/-- The end of a completed batch: staging goes on from where the lanes got to. -/
def clearBatch (self : Runner engine) (cleared : List (Slot engine)) : Runner engine :=
  { self with
    parallelBatch := self.parallelBatch.map fun batch => { batch with
      slots := cleared ++ batch.slots.drop batch.pendingCount
      pendingCount := 0
      expectedProgress := self.accumulator.progress } }

/-- `Schedule.flush`, which calls back into the runner. -/
def flush (runtime : Runtime engine) (batch : Schedule engine) :
    Action (Runner engine) Canceled (Option Nat) := do
  Action.assert fun _ => batch.enabled = true
  if batch.pendingCount = 0 then return none
  let ran := batchRun batch.submission runtime (batch.slots.take batch.pendingCount)
    (batch.runTask runtime)
  let joined := { batch with slots := ran.1 ++ batch.slots.drop batch.pendingCount }
  match ran.2 with
  | .canceled => do
      Action.modify fun self => { self with
        parallelBatch := some (joined.discard self.accumulator.progress) }
      Action.fail .canceled
  | .concurrencyUnavailable submitted => do
      Action.modify fun self => self.recordBatch joined submitted
      let slot ← Action.ofOption joined.slots[submitted]?
      let expected ← Action.ofOption slot.expected
      return some expected.txIndex
  | .completed => do
      Action.modify fun self => (self.recordBatch joined batch.pendingCount).countBatch
      let cleared ← acceptSlots operations ran.1
      Action.modify fun self => self.clearBatch cleared
      return none

def flushPending (runtime : Runtime engine) : Action (Runner engine) Canceled Unit := do
  let self ← Action.get
  match self.parallelBatch with
  | none => pure ()
  | some batch =>
      if batch.enabled = false ∨ batch.hasPending = false then pure ()
      else do
        let unavailable ← flush operations runtime batch
        match unavailable with
        | none => pure ()
        | some txIndex => do
            Action.modify discardPending
            stopParallel .concurrencyUnavailable txIndex (some .concurrencyUnavailable)

def beforeTransactionCalls (self : Runner engine) (progress : BlockResult) : List engine.Call :=
  engine.beforeTransaction {
    number := self.env.number
    timestamp := self.env.timestamp
    transactionIndex := progress.txCount }

def validateIncludedBoundary (self : Runner engine) (included : Included engine)
    (expectedProgress : BlockResult) : Runner engine × Bool :=
  if self.active = false then (self, false)
  else if expectedProgress ≠ included.progressBefore then
    (self.stop .candidateArtifactMismatch included.txIndex none, false)
  else if (self.beforeTransactionCalls expectedProgress).length ≠ 0 then
    (self.stop .unsupportedBeforeTransactionHooks included.txIndex none, false)
  else (self, true)

def verifyIncludedSerial (self : Runner engine) (included : Included engine) : Runner engine :=
  match self.validateIncludedBoundary included self.accumulator.progress with
  | (after, false) => after
  | (after, true) =>
      after.acceptOutcome operations included
        (Lane.run after.laneContext after.allocator after.baseReader included)

def verifyIncluded (runtime : Runtime engine) (included : Included engine) :
    Action (Runner engine) Canceled Unit := do
  let self ← Action.get
  if self.active = false then pure ()
  else
    match self.parallelBatch with
    | none => Action.modify fun self => self.verifyIncludedSerial operations included
    | some batch =>
        if batch.enabled = false then
          Action.modify fun self => self.verifyIncludedSerial operations included
        else
          match self.validateIncludedBoundary included batch.expectedProgress with
          | (after, false) => Action.modify fun _ => after.discardPending
          | (_, true) =>
              match batch.stage included included.progressAfter runtime.staged with
              | .illegal => Action.illegal
              | .fail _ batch => do
                  Action.modify fun self => { self with parallelBatch := some batch }.discardPending
                  stopParallel .laneOutOfMemory included.txIndex (some .outOfMemory)
              | .ok _ batch => do
                  Action.modify fun self => { self with parallelBatch := some batch }
                  Action.when (batch.isFull = true) (flushPending operations runtime)

/-- The block-start shard over the authenticated base. -/
def verifyBeforeBlock (self : Runner engine) (header : engine.Header) : Runner engine :=
  if self.active = false then self
  else
    match engine.beforeBlockShard self.allocator self.baseReader self.dependencies header with
    | .error error => self.stopForCandidateError error 0
    | .ok shard =>
        match self.accumulator.appendShard shard with
        | (accumulator, .error error) => { self with accumulator }.stopForCandidateError error 0
        | (accumulator, .ok _) => { self with accumulator }

/-! ## The end of a block -/

def finishRejected (self : Runner engine) (isMatch : Bool) (txIndex : Nat) : Runner engine :=
  { self with
    report := { self.report with
      status := if isMatch then .rejectionMatched else .candidateRejectionMismatch
      txIndex := some txIndex }
    active := false }

def verifyRejectedAgainstClaim (self : Runner engine) (rejected : Rejected engine)
    (transacted : Transacted TxExecutionResult) : Except LaneError (Runner engine) :=
  match transacted with
  | .rejected =>
      .ok (self.finishRejected (decide (rejected.kind = .transaction)) rejected.txIndex)
  | .executed output =>
      if rejected.kind ≠ .blockGas then .error .candidateRejectionMismatch
      else
        match executionExceedsBlockGas self.env self.accumulator.progress output.gas with
        | .error error => .error error
        | .ok exceeds => .ok (self.finishRejected exceeds rejected.txIndex)

def verifyRejectedFallible (self : Runner engine) (rejected : Rejected engine) :
    Except LaneError (Runner engine) :=
  let progress := self.accumulator.progress
  if progress.txCount ≠ rejected.txIndex then .error .candidateRejectionMismatch
  else if progress ≠ rejected.progressBefore ∨
      self.accumulator.blobGasUsed ≠ rejected.blobGasUsedBefore then
    .error .candidateRejectionMismatch
  else if rejected.kind = .blobGas then
    match self.accumulator.blobGasAdmission operations rejected.transaction with
    | .error .blobGasOverflow => .error .candidateRejectionMismatch
    | .error error => .error error
    | .ok admission => .ok (self.finishRejected admission.exceedsLimit rejected.txIndex)
  else if (self.beforeTransactionCalls progress).length ≠ 0 then
    .error .unsupportedBeforeTransactionHooks
  else
    match blockAccessIndex progress.txCount with
    | none => .error .blockAccessIndexOverflow
    | some index =>
        let attempt := engine.transact self.allocator ⟨self.baseReader, self.claim, index⟩
          self.dependencies self.env rejected.transaction progress.preparation
        match attempt.result.bind (self.verifyRejectedAgainstClaim rejected) with
        | .ok after => .ok after
        | .error error =>
            .ok (self.stopForRejectedError error rejected.txIndex attempt.strategyFailure)

/-- `verifyRejected` once nothing is staged. -/
def concludeRejected (self : Runner engine) (rejected : Rejected engine) : Runner engine :=
  if self.active = false then self
  else
    match self.verifyRejectedFallible operations rejected with
    | .ok after => after
    | .error error => self.stopForCandidateError error rejected.txIndex

def verifyRejected (runtime : Runtime engine) (rejected : Rejected engine) :
    Action (Runner engine) Canceled Unit := do
  flushPending operations runtime
  Action.modify fun self => self.concludeRejected operations rejected

/-- `finish` once nothing is staged. -/
def concludeFinished (self : Runner engine) : Runner engine :=
  { self with
    report := if self.active then { self.report with status := .outcomesMatched } else self.report
    active := false }

def finish (runtime : Runtime engine) : Action (Runner engine) Canceled Unit := do
  flushPending operations runtime
  Action.modify concludeFinished

/-! ## A block -/

/-- How the authoritative fold ends: every transaction included, or one refused. -/
inductive Ending (engine : Engine)
  | finished
  | rejected (rejected : Rejected engine)

def verifyEnding (runtime : Runtime engine) :
    Ending engine → Action (Runner engine) Canceled Unit
  | .finished => finish operations runtime
  | .rejected rejected => verifyRejected operations runtime rejected

/-- The calls a block makes, each with what the runtime decides in it. -/
structure Block (engine : Engine) where
  header : engine.Header
  included : List (Runtime engine × Included engine)
  ending : Ending engine
  last : Runtime engine

def verifyBlock (block : Block engine) : Action (Runner engine) Canceled Unit := do
  Action.modify fun self => self.verifyBeforeBlock block.header
  Action.forEach (fun step => verifyIncluded operations step.1 step.2) block.included
  verifyEnding operations block.last block.ending

end Runner

end EvmZig.Differential
