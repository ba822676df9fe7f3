import EvmZig.Differential.Runner

/-!
# Parallel lanes agree with the serial lane

The parallel coordinator accepts a transaction only after the batch it was
staged in has been joined, so between two batches it lags behind the serial
one by the staged transactions, and never by more.  It then ends as the serial
one does, or it fell back at a prefix of the block and says so.
-/

set_option autoImplicit false

namespace EvmZig.Differential

open Zig Bal EvmZig.Transaction

/-- A report without its parallel counters. -/
def Report.candidate (self : Report) : Report where
  status := self.status
  txIndex := self.txIndex
  diagnosticError := self.diagnosticError
  foldedTransactions := self.foldedTransactions

variable {engine : Engine} {operations : Operations engine} {included : Included engine}
  {self start : Runner engine} {history rest : List (Included engine)} {progress : BlockResult}

namespace Accumulator

theorem checkIncluded_progress {self : Accumulator} {nextProgress : BlockResult}
    {blobAdmission : BlobGasAdmission}
    (checked : self.checkIncluded operations included = .ok (nextProgress, blobAdmission)) :
    nextProgress = included.progressAfter := by
  unfold checkIncluded at checked
  cases advanced : advanceProgress self.env self.progress included.result.gas with
  | error error => simp [advanced] at checked
  | ok progress =>
      simp only [advanced] at checked
      cases admitted : self.blobGasAdmission operations included.transaction with
      | error error =>
          rw [admitted] at checked
          cases error <;> cases checked
      | ok admission =>
          simp only [admitted] at checked
          split at checked
          · cases checked
          · rename_i agreed
            split at checked
            · cases checked
            · split at checked
              · cases checked
              · cases checked
                simp only [not_or, not_not] at agreed
                exact agreed.1

/-- An accepted transaction leaves the progress that the canonical fold left. -/
theorem accept_progress {self after : Accumulator} {transition : LaneTransition} {value : Unit}
    (accepted : self.accept operations included transition = (after, .ok value)) :
    after.progress = included.progressAfter := by
  unfold accept at accepted
  split at accepted
  · cases accepted
  · rename_i nextProgress blobAdmission checked
    dsimp only at accepted
    split at accepted
    · cases accepted
    · split at accepted
      · cases accepted
      · split at accepted
        · cases accepted
        · cases accepted
        · cases accepted
          exact checkIncluded_progress checked

end Accumulator

namespace Runner

/-! ## What a runner shows beside its batches -/

def view (self : Runner engine) : Runner engine :=
  { self with report := self.report.candidate, parallelBatch := none }

@[simp] theorem view_fields (self : Runner engine) :
    self.view.active = self.active ∧ self.view.accumulator = self.accumulator ∧
      self.view.laneContext = self.laneContext ∧ self.view.allocator = self.allocator ∧
      self.view.baseReader = self.baseReader ∧ self.view.env = self.env ∧
      self.view.claim = self.claim ∧ self.view.dependencies = self.dependencies ∧
      self.view.beforeTransactionCalls = self.beforeTransactionCalls :=
  ⟨rfl, rfl, rfl, rfl, rfl, rfl, rfl, rfl, rfl⟩

/-- What a lane takes from the runner. -/
def setting (self : Runner engine) : LaneContext engine × engine.Allocator × engine.Reader :=
  (self.laneContext, self.allocator, self.baseReader)

/-- The change is the same on what two runners show, and leaves their batches,
their fallback and what their lanes read alone. -/
structure Uniform (change : Runner engine → Runner engine) : Prop where
  view : ∀ self, (change self).view = change self.view
  batch : ∀ self, (change self).parallelBatch = self.parallelBatch
  fallback : ∀ self, (change self).report.parallelFallback = self.report.parallelFallback
  setting : ∀ self, (change self).setting = self.setting

theorem Uniform.congr {change : Runner engine → Runner engine} (uniform : Uniform change)
    {left right : Runner engine} (same : left.view = right.view) :
    (change left).view = (change right).view := by
  rw [uniform.view, uniform.view, same]

theorem Uniform.comp {first second : Runner engine → Runner engine} (left : Uniform first)
    (right : Uniform second) : Uniform fun self => second (first self) where
  view self := by rw [right.view, left.view]
  batch self := by rw [right.batch, left.batch]
  fallback self := by rw [right.fallback, left.fallback]
  setting self := by rw [right.setting, left.setting]

theorem uniform_foldl {ι : Type} {change : Runner engine → ι → Runner engine}
    (uniform : ∀ item, Uniform fun self => change self item) (items : List ι) :
    Uniform fun self => items.foldl change self := by
  induction items with
  | nil => exact ⟨fun _ => rfl, fun _ => rfl, fun _ => rfl, fun _ => rfl⟩
  | cons item items ih => exact (uniform item).comp ih

/-- A change that reads only what is shown: on each runner it is one of the
uniform changes that its view selects. -/
theorem Uniform.choose {change : Runner engine → Runner engine}
    (chosen : ∀ self : Runner engine, ∃ uniform, Uniform uniform ∧ change self = uniform self ∧
      change self.view = uniform self.view) : Uniform change where
  view self := by
    obtain ⟨selected, uniform, onSelf, onView⟩ := chosen self
    rw [onSelf, onView, uniform.view]
  batch self := by
    obtain ⟨selected, uniform, onSelf, -⟩ := chosen self
    rw [onSelf, uniform.batch]
  fallback self := by
    obtain ⟨selected, uniform, onSelf, -⟩ := chosen self
    rw [onSelf, uniform.fallback]
  setting self := by
    obtain ⟨selected, uniform, onSelf, -⟩ := chosen self
    rw [onSelf, uniform.setting]

theorem uniform_id : Uniform (fun self : Runner engine => self) :=
  ⟨fun _ => rfl, fun _ => rfl, fun _ => rfl, fun _ => rfl⟩

theorem uniform_stop (status : Status) (txIndex : Nat) (error : Option LaneError) :
    Uniform fun self : Runner engine => self.stop status txIndex error :=
  ⟨fun _ => rfl, fun _ => rfl, fun _ => rfl, fun _ => rfl⟩

theorem uniform_accumulate (accumulator : Accumulator) :
    Uniform fun self : Runner engine => { self with accumulator } :=
  ⟨fun _ => rfl, fun _ => rfl, fun _ => rfl, fun _ => rfl⟩

theorem uniform_fold (accumulator : Accumulator) (count : Nat) :
    Uniform fun self : Runner engine =>
      { self with accumulator, report := { self.report with foldedTransactions := count } } :=
  ⟨fun _ => rfl, fun _ => rfl, fun _ => rfl, fun _ => rfl⟩

theorem uniform_finishRejected (isMatch : Bool) (txIndex : Nat) :
    Uniform fun self : Runner engine => self.finishRejected isMatch txIndex :=
  ⟨fun _ => rfl, fun _ => rfl, fun _ => rfl, fun _ => rfl⟩

theorem uniform_stopForCandidateError (error : LaneError) (txIndex : Nat) :
    Uniform fun self : Runner engine => self.stopForCandidateError error txIndex :=
  uniform_stop _ _ _

theorem uniform_acceptOutcome (operations : Operations engine) (included : Included engine)
    (outcome : LaneOutcome) :
    Uniform fun self => self.acceptOutcome operations included outcome := by
  apply Uniform.choose
  intro self
  by_cases active : self.active = false
  · exact ⟨_, uniform_id, by simp [acceptOutcome, active]⟩
  · cases outcome with
    | evidence transition =>
        cases accepted : self.accumulator.accept operations included transition with
        | mk after result =>
            cases result with
            | error error =>
                exact ⟨_, (uniform_accumulate after).comp
                  (uniform_stopForCandidateError error included.txIndex),
                  by simp [acceptOutcome, active, accepted]⟩
            | ok value =>
                exact ⟨_, uniform_fold after after.transactionCount,
                  by simp [acceptOutcome, active, accepted]⟩
    | outcomeMismatch =>
        exact ⟨_, uniform_stop .outcomeMismatch included.txIndex none,
          by simp [acceptOutcome, active]⟩
    | rejected =>
        exact ⟨_, uniform_stop .outcomeMismatch included.txIndex none,
          by simp [acceptOutcome, active]⟩
    | failed error strategyFailure =>
        exact ⟨_, uniform_stop (statusForError error strategyFailure) included.txIndex (some error),
          by simp [acceptOutcome, active, stopForError]⟩

theorem uniform_verifyIncludedSerial (operations : Operations engine) (included : Included engine) :
    Uniform fun self => self.verifyIncludedSerial operations included := by
  apply Uniform.choose
  intro self
  by_cases active : self.active = false
  · exact ⟨_, uniform_id, by simp [verifyIncludedSerial, validateIncludedBoundary, active]⟩
  · by_cases boundary : self.accumulator.progress = included.progressBefore
    · by_cases hooks : self.beforeTransactionCalls included.progressBefore = []
      · exact ⟨_, uniform_acceptOutcome operations included
            (Lane.run self.laneContext self.allocator self.baseReader included),
          by simp [verifyIncludedSerial, validateIncludedBoundary, active, boundary, hooks]⟩
      · exact ⟨_, uniform_stop .unsupportedBeforeTransactionHooks included.txIndex none,
          by simp [verifyIncludedSerial, validateIncludedBoundary, active, boundary, hooks]⟩
    · exact ⟨_, uniform_stop .candidateArtifactMismatch included.txIndex none,
        by simp [verifyIncludedSerial, validateIncludedBoundary, active, boundary]⟩

theorem uniform_verifyBeforeBlock (header : engine.Header) :
    Uniform fun self : Runner engine => self.verifyBeforeBlock header := by
  apply Uniform.choose
  intro self
  by_cases active : self.active = false
  · exact ⟨_, uniform_id, by simp [verifyBeforeBlock, active]⟩
  · cases built : engine.beforeBlockShard self.allocator self.baseReader self.dependencies header with
    | error error =>
        exact ⟨_, uniform_stopForCandidateError error 0, by simp [verifyBeforeBlock, active, built]⟩
    | ok shard =>
        cases appended : self.accumulator.appendShard shard with
        | mk after result =>
            cases result with
            | error error =>
                exact ⟨_, (uniform_accumulate after).comp (uniform_stopForCandidateError error 0),
                  by simp [verifyBeforeBlock, active, built, appended]⟩
            | ok value =>
                exact ⟨_, uniform_accumulate after,
                  by simp [verifyBeforeBlock, active, built, appended]⟩

theorem acceptOutcome_inactive (inactive : self.active = false) (included : Included engine)
    (outcome : LaneOutcome) : self.acceptOutcome operations included outcome = self := by
  simp [acceptOutcome, inactive]

/-- After an outcome was accepted, an active runner stands where the canonical fold stood. -/
theorem acceptOutcome_progress {outcome : LaneOutcome}
    (active : (self.acceptOutcome operations included outcome).active = true) :
    (self.acceptOutcome operations included outcome).accumulator.progress =
      included.progressAfter := by
  by_cases before : self.active = false
  · rw [acceptOutcome_inactive before] at active
    rw [active] at before
    cases before
  · cases outcome with
    | evidence transition =>
        cases accepted : self.accumulator.accept operations included transition with
        | mk after result =>
            cases result with
            | error error =>
                simp [acceptOutcome, before, accepted, stopForCandidateError, stop] at active
            | ok value =>
                simp only [acceptOutcome, before, accepted]
                exact Accumulator.accept_progress accepted
    | outcomeMismatch => simp [acceptOutcome, before, stop] at active
    | rejected => simp [acceptOutcome, before, stop] at active
    | failed error strategyFailure =>
        simp [acceptOutcome, before, stopForError, stop] at active

/-! ## The serial run -/

def serialIncluded (operations : Operations engine) (self : Runner engine)
    (included : Included engine) : Runner engine :=
  if self.active = false then self else self.verifyIncludedSerial operations included

def serialRun (operations : Operations engine) (start : Runner engine)
    (history : List (Included engine)) : Runner engine :=
  history.foldl (serialIncluded operations) start

theorem serialRun_snoc (start : Runner engine) (history : List (Included engine))
    (included : Included engine) :
    serialRun operations start (history ++ [included]) =
      serialIncluded operations (serialRun operations start history) included :=
  List.foldl_concat _ _ _ _

theorem uniform_serialIncluded (operations : Operations engine) (included : Included engine) :
    Uniform fun self => serialIncluded operations self included := by
  apply Uniform.choose
  intro self
  by_cases active : self.active = false
  · exact ⟨_, uniform_id, by simp [serialIncluded, active]⟩
  · exact ⟨_, uniform_verifyIncludedSerial operations included, by simp [serialIncluded, active]⟩

theorem uniform_serialRun (operations : Operations engine) (history : List (Included engine)) :
    Uniform fun self => serialRun operations self history :=
  uniform_foldl (uniform_serialIncluded operations) history

theorem serialRun_inactive (inactive : (serialRun operations start history).active = false)
    (included : Included engine) :
    serialRun operations start (history ++ [included]) = serialRun operations start history := by
  rw [serialRun_snoc, serialIncluded, if_pos inactive]

/-- The boundaries the canonical fold reports: each transaction begins where the
one before it ended, and none has system calls of its own in front of it. -/
def Chained (self : Runner engine) : BlockResult → List (Included engine) → Prop
  | _, [] => True
  | progress, included :: rest =>
      included.progressBefore = progress ∧ self.beforeTransactionCalls progress = [] ∧
        Chained self included.progressAfter rest

/-- Where the canonical fold stands after a history. -/
def boundary (progress : BlockResult) (history : List (Included engine)) : BlockResult :=
  history.foldl (fun _ included => included.progressAfter) progress

theorem boundary_snoc (progress : BlockResult) (history : List (Included engine))
    (included : Included engine) :
    boundary progress (history ++ [included]) = included.progressAfter :=
  List.foldl_concat _ _ _ _

theorem Chained.append : Chained self progress (history ++ rest) ↔
      Chained self progress history ∧ Chained self (boundary progress history) rest := by
  induction history generalizing progress with
  | nil => simp [Chained, boundary]
  | cons included history ih =>
      simp only [List.cons_append, Chained, ih, boundary, List.foldl_cons, and_assoc]

/-- The runner's environment decides the boundaries, and nothing changes it. -/
theorem Chained.of_setting {other : Runner engine} (same : self.setting = other.setting)
    (chained : Chained self progress history) : Chained other progress history := by
  have sameEnv : self.env = other.env := congrArg (fun setting => setting.1.env) same
  induction history generalizing progress with
  | nil => trivial
  | cons included history ih =>
      obtain ⟨before, hooks, rest⟩ := chained
      refine ⟨before, ?_, ih rest⟩
      rw [← hooks, beforeTransactionCalls, beforeTransactionCalls, sameEnv]

section Serial

variable {start : Runner engine} {history : List (Included engine)}

/-- A transaction that continues the chain passes the boundary check. -/
theorem Chained.passes (active : self.active = true)
    (chained : Chained self progress (included :: rest)) :
    self.validateIncludedBoundary included progress = (self, true) := by
  obtain ⟨begins, hooks, -⟩ := chained
  simp [validateIncludedBoundary, active, begins, hooks]

/-- While the serial runner is active it stands at the canonical boundary. -/
theorem serialRun_progress (active : (serialRun operations start history).active = true)
    (chained : Chained start start.accumulator.progress history) :
    (serialRun operations start history).accumulator.progress =
      boundary start.accumulator.progress history := by
  induction history using List.reverseRecOn with
  | nil => rfl
  | append_singleton history included ih =>
      obtain ⟨earlier, later⟩ := Chained.append.mp chained
      have settings := (uniform_serialRun operations history).setting start
      rw [serialRun_snoc, serialIncluded] at active ⊢
      by_cases before : (serialRun operations start history).active = false
      · rw [if_pos before, before] at active
        cases active
      · have running := Bool.eq_true_of_not_eq_false before
        rw [if_neg before, verifyIncludedSerial, ih running earlier,
          (Chained.of_setting settings.symm later).passes running] at active ⊢
        rw [acceptOutcome_progress active, boundary_snoc]

/-- One more transaction of an active serial runner is the acceptance of its lane. -/
theorem serialRun_accept (active : (serialRun operations start history).active = true)
    (chained : Chained start start.accumulator.progress (history ++ [included])) :
    serialRun operations start (history ++ [included]) =
      (serialRun operations start history).acceptOutcome operations included
        (Lane.run start.laneContext start.allocator start.baseReader included) := by
  obtain ⟨earlier, later⟩ := Chained.append.mp chained
  have settings := (uniform_serialRun operations history).setting start
  have passes := (Chained.of_setting settings.symm later).passes active
  simp only [setting, Prod.mk.injEq] at settings
  rw [serialRun_snoc, serialIncluded, if_neg (by simp [active]), verifyIncludedSerial,
    serialRun_progress active earlier, passes]
  simp only [settings.1, settings.2.1, settings.2.2]

end Serial

/-! ## Lanes -/

/-- What a parallel execution promises of its resources: whatever memory a lane
is given, the engine runs out of it or answers as the serial lane's engine
does, over the concurrent reader and without the canonical code backend. -/
structure Interchangeable (context : LaneContext engine) (ample : engine.Allocator)
    (baseReader : engine.Reader) (execution : ParallelExecution engine) : Prop where
  observe : ∀ allocator index transaction progress,
    (engine.observe allocator ⟨execution.stateReader, context.claim, index⟩
        { blockHashSource := execution.blockHashSource } context.env transaction progress).result =
          .error .outOfMemory ∨
      engine.observe allocator ⟨execution.stateReader, context.claim, index⟩
          { blockHashSource := execution.blockHashSource } context.env transaction progress =
        engine.observe ample ⟨baseReader, context.claim, index⟩
          { preparedCodeBackend := context.preparedCodeBackend
            blockHashSource := context.blockHashSource } context.env transaction progress
  materialize : ∀ allocator observations,
    engine.materialize allocator observations = .error .outOfMemory ∨
      engine.materialize allocator observations = engine.materialize ample observations

/-- The promise for the lanes of a runner. -/
abbrev Promises (execution : ParallelExecution engine) (self : Runner engine) : Prop :=
  Interchangeable self.laneContext self.allocator self.baseReader execution

/-- The outcome of a parallel lane: none for want of memory, or the serial one. -/
def Faithful (self : Runner engine) (included : Included engine) (outcome : LaneOutcome) : Prop :=
  outcome.isOutOfMemory = true ∨
    outcome = Lane.run self.laneContext self.allocator self.baseReader included

theorem Interchangeable.faithful {execution : ParallelExecution engine}
    (promise : Promises execution self) (allocator : engine.Allocator) (included : Included engine) :
    Faithful self included
      (Lane.run (Schedule.init execution self.laneContext).laneContext allocator
        execution.stateReader included) := by
  unfold Faithful Lane.run
  cases blockAccessIndex included.txIndex with
  | none => exact .inr rfl
  | some index =>
      obtain exhausted | same :=
        promise.observe allocator index included.transaction included.progressBefore.preparation
      · left
        simp only [laneContext] at exhausted
        simp only [Lane.runFallible, Schedule.init, laneContext, exhausted]
        rfl
      · simp only [Lane.runFallible, Schedule.init, laneContext]
        simp only [laneContext] at same
        rw [same]
        cases answered : engine.observe self.allocator ⟨self.baseReader, self.claim, index⟩
            { preparedCodeBackend := self.preparedCodeBackend
              blockHashSource := self.blockHashSource }
            self.env included.transaction included.progressBefore.preparation with
        | mk result strategyFailure =>
        cases result with
        | error error => exact .inr rfl
        | ok transacted =>
            cases transacted with
            | rejected => exact .inr rfl
            | executed executedView =>
                by_cases agrees : agreesWith executedView included = true
                · simp only [agrees, if_true]
                  obtain exhausted | same := promise.materialize allocator executedView.observations
                  · rw [exhausted]
                    exact .inl rfl
                  · rw [same]
                    exact .inr rfl
                · simp [agrees]

/-! ## In step, or fallen back -/

/-- The runner shows what the serial one shows after the history. -/
structure InStep (operations : Operations engine) (start : Runner engine)
    (history : List (Included engine)) (runner : Runner engine) : Prop where
  view : runner.view = (serialRun operations start history).view
  noFallback : runner.report.parallelFallback = none

/-- The runner gave up its lanes after accepting a prefix of the history. -/
structure FellBack (operations : Operations engine) (start : Runner engine)
    (history : List (Included engine)) (runner : Runner engine) : Prop where
  inactive : runner.active = false
  status : runner.report.status = .fallbackParallelRuntime
  fallback : runner.report.parallelFallback.isSome = true
  accepted : ∃ done, done <+: history ∧
    runner.accumulator = (serialRun operations start done).accumulator ∧
    runner.report.foldedTransactions = (serialRun operations start done).report.foldedTransactions

theorem FellBack.mono {runner : Runner engine} (fell : FellBack operations start history runner) :
    FellBack operations start (history ++ rest) runner := by
  obtain ⟨done, within, accepted⟩ := fell.accepted
  exact ⟨fell.inactive, fell.status, fell.fallback, done,
    within.trans (List.prefix_append _ _), accepted⟩

/-- The runner after `stopParallel`. -/
def fallen (self : Runner engine) (batch : Schedule engine) (reason : ParallelFallback)
    (txIndex : Nat) (error : Option LaneError) : Runner engine :=
  { self with
    parallelBatch := some batch.disable
    report := { self.report with
      parallelFallback := self.report.parallelFallback <|> some reason } }.stop
    .fallbackParallelRuntime txIndex error

theorem stopParallel_run {batch : Schedule engine} (batched : self.parallelBatch = some batch)
    (reason : ParallelFallback) (txIndex : Nat) (error : Option LaneError) :
    stopParallel reason txIndex error self = .ok () (self.fallen batch reason txIndex error) := by
  simp only [stopParallel, Action.bind_run, Action.get_run, batched]
  rfl

section Coordinated

variable {start self : Runner engine} {batch : Schedule engine}
  {done pending history : List (Included engine)} {included : Included engine}

theorem InStep.accumulator (step : InStep operations start done self) :
    self.accumulator = (serialRun operations start done).accumulator := by
  have shown := congrArg Runner.accumulator step.view
  exact shown

theorem InStep.active (step : InStep operations start done self) :
    self.active = (serialRun operations start done).active := by
  have shown := congrArg Runner.active step.view
  exact shown

theorem InStep.fallen (step : InStep operations start done self) (within : done <+: history)
    (reason : ParallelFallback) (txIndex : Nat) (error : Option LaneError) :
    FellBack operations start history (self.fallen batch reason txIndex error) where
  inactive := rfl
  status := rfl
  fallback := by
    change (self.report.parallelFallback <|> some reason).isSome = true
    rw [step.noFallback]
    rfl
  accepted := by
    have folded := congrArg (fun runner : Runner engine => runner.report.foldedTransactions) step.view
    exact ⟨done, within, step.accumulator, folded⟩

/-- Where accepting the lanes of a batch has got to. -/
def Accepted (operations : Operations engine) (start : Runner engine) (batch : Schedule engine)
    (history : List (Included engine)) (self : Runner engine) : Prop :=
  (InStep operations start history self ∧ self.parallelBatch = some batch) ∨
    (FellBack operations start history self ∧ self.parallelBatch = some batch.disable)

theorem acceptLaneOutcome_run (accepted : Accepted operations start batch done self)
    (chained : Chained start start.accumulator.progress (done ++ [included]))
    {outcome : LaneOutcome} (faithful : Faithful start included outcome) :
    ∃ after, acceptLaneOutcome operations included outcome self = .ok () after ∧
      Accepted operations start batch (done ++ [included]) after := by
  unfold acceptLaneOutcome
  simp only [Action.bind_run, Action.get_run]
  cases accepted with
  | inr fellBack =>
      obtain ⟨fell, batched⟩ := fellBack
      rw [if_neg (by simp [fell.inactive]), Action.modify_run,
        acceptOutcome_inactive fell.inactive]
      exact ⟨self, rfl, .inr ⟨fell.mono, batched⟩⟩
  | inl inStep =>
      obtain ⟨step, batched⟩ := inStep
      by_cases active : self.active = true
      · by_cases exhausted : outcome.isOutOfMemory = true
        · rw [if_pos ⟨active, exhausted⟩, stopParallel_run batched]
          exact ⟨_, rfl, .inr ⟨step.fallen (List.prefix_append _ _) _ _ _, rfl⟩⟩
        · have same := faithful.resolve_left exhausted
          have uniform := uniform_acceptOutcome operations included outcome
          rw [if_neg (by simp [exhausted]), Action.modify_run]
          refine ⟨_, rfl, .inl ⟨⟨?_, ?_⟩, (uniform.batch self).trans batched⟩⟩
          · rw [uniform.congr step.view, same,
              serialRun_accept (step.active.symm.trans active) chained]
          · rw [uniform.fallback, step.noFallback]
      · have inactive := Bool.eq_false_of_not_eq_true active
        rw [if_neg (by simp [inactive]), Action.modify_run, acceptOutcome_inactive inactive]
        refine ⟨self, rfl, .inl ⟨⟨?_, step.noFallback⟩, batched⟩⟩
        rw [serialRun_inactive (step.active.symm.trans inactive), step.view]

/-- A slot whose lane has ended. -/
def Ran (start : Runner engine) (included : Included engine) (slot : Slot engine) : Prop :=
  slot.expected = some included ∧ ∃ outcome, slot.outcome = some outcome ∧
    Faithful start included outcome

/-- The lanes of a batch are accepted in the order they were staged. -/
theorem acceptSlots_run {slots : List (Slot engine)} (ran : List.Forall₂ (Ran start) pending slots)
    (accepted : Accepted operations start batch done self)
    (chained : Chained start start.accumulator.progress (done ++ pending)) :
    ∃ after, acceptSlots operations slots self = .ok (List.replicate pending.length {}) after ∧
      Accepted operations start batch (done ++ pending) after := by
  induction ran generalizing self done with
  | nil => exact ⟨self, rfl, by rwa [List.append_nil]⟩
  | @cons included slot pending slots ended ran ih =>
      obtain ⟨expected, outcome, produced, faithful⟩ := ended
      rw [List.append_cons] at chained
      obtain ⟨middle, first, accepted⟩ :=
        acceptLaneOutcome_run accepted (Chained.append.mp chained).1 faithful
      obtain ⟨after, rest, accepted⟩ := ih accepted chained
      refine ⟨after, ?_, by rwa [List.append_cons]⟩
      simp only [acceptSlots, Action.bind_run, expected, produced, Action.ofOption, first, rest]
      rfl

end Coordinated

end Runner

/-! ## Batches -/

/-- How a batch can end. -/
theorem batchRun_cases {α : Type} (submission : Submission) (runtime : Runtime engine)
    (items : List α) (task : Nat → α → α) :
    (∃ ran, batchRun submission runtime items task = (ran, .canceled) ∧ runtime.canceled = true) ∨
      batchRun submission runtime items task = (items.mapIdx task, .completed) ∨
      ∃ ran submitted, batchRun submission runtime items task =
          (ran, .concurrencyUnavailable submitted) ∧ submitted < items.length ∧
        ran.length = items.length ∧ ran[submitted]? = items[submitted]? := by
  unfold batchRun
  cases refused : submission.firstRefused runtime.grants items.length with
  | none =>
      simp only [Lib.runTasks_completion]
      cases canceled : runtime.canceled with
      | false => exact .inr (.inl rfl)
      | true => exact .inl ⟨_, rfl, rfl⟩
  | some submitted =>
      have bound : submitted < items.length := by
        cases submission with
        | async => cases refused
        | concurrent => exact List.mem_range.mp (List.mem_of_find?_eq_some refused)
      have complete := (runtime.completion submitted).property
      refine .inr (.inr ⟨_, submitted, rfl, bound, Lib.runTasks_length _ _ _, ?_⟩)
      rw [Lib.runTasks_getElem task (complete.nodup_iff.mpr List.nodup_range), if_neg]
      intro member
      exact Nat.lt_irrefl submitted (List.mem_range.mp (complete.mem_iff.mp member))

namespace Runner

/-- A slot whose lane has not run. -/
def holding (included : Included engine) : Slot engine := { expected := some included }

/-- A schedule with its staged transactions in the first slots. -/
structure Ready (execution : ParallelExecution engine) (start : Runner engine)
    (pending : List (Included engine)) (progress : BlockResult) (batch : Schedule engine) : Prop where
  enabled : batch.enabled = true
  room : pending.length ≤ execution.maxInFlight
  slots : batch.slots = pending.map holding ++
    List.replicate (execution.maxInFlight - pending.length) ({} : Slot engine)
  pendingCount : batch.pendingCount = pending.length
  expectedProgress : batch.expectedProgress = progress
  laneContext : batch.laneContext = (Schedule.init execution start.laneContext).laneContext
  baseReader : batch.baseReader = execution.stateReader

/-- Nothing is staged: the runner is in step, or fell back for good. -/
def Drained (operations : Operations engine) (execution : ParallelExecution engine)
    (start : Runner engine) (history : List (Included engine)) (self : Runner engine) : Prop :=
  (InStep operations start history self ∧ ∃ batch, self.parallelBatch = some batch ∧
      Ready execution start [] self.accumulator.progress batch) ∨
    (FellBack operations start history self ∧ ∃ batch, self.parallelBatch = some batch ∧
      batch.enabled = false)

/-- The runner lags behind by what is staged. -/
structure Lagging (operations : Operations engine) (execution : ParallelExecution engine)
    (start : Runner engine) (done pending : List (Included engine)) (batch : Schedule engine)
    (runner : Runner engine) : Prop where
  active : runner.active = true
  step : InStep operations start done runner
  batched : runner.parallelBatch = some batch
  ready : Ready execution start pending (boundary start.accumulator.progress (done ++ pending)) batch

section Flushing

variable {execution : ParallelExecution engine} {start self : Runner engine}
  {batch : Schedule engine} {done pending history : List (Included engine)}
  {progress : BlockResult} {runtime : Runtime engine}

/-- What `slots[0..pending_count]` is. -/
theorem Ready.take (ready : Ready execution start pending progress batch) :
    batch.slots.take batch.pendingCount = pending.map holding := by
  rw [ready.slots, ready.pendingCount]
  exact List.take_left' (List.length_map _)

theorem Ready.drop (ready : Ready execution start pending progress batch) :
    batch.slots.drop batch.pendingCount =
      List.replicate (execution.maxInFlight - pending.length) {} := by
  rw [ready.slots, ready.pendingCount]
  exact List.drop_left' (List.length_map _)

/-- Each lane of a completed batch ran on its own transaction. -/
theorem Ready.ran (ready : Ready execution start pending progress batch)
    (promise : Promises execution start) :
    List.Forall₂ (Ran start) pending ((pending.map holding).mapIdx (batch.runTask runtime)) := by
  rw [List.forall₂_iff_get]
  refine ⟨by simp, ?_⟩
  intro index inPending inSlots
  simp only [List.get_eq_getElem, List.getElem_mapIdx, List.getElem_map]
  refine ⟨rfl, _, rfl, ?_⟩
  rw [ready.laneContext, ready.baseReader]
  exact promise.faithful _ _

/-- After the last lane of a batch nothing is staged. -/
theorem Accepted.cleared {ran : List (Slot engine)} (sameLength : ran.length = pending.length)
    (ready : Ready execution start pending progress batch)
    (accepted : Accepted operations start
      { batch with slots := ran ++ batch.slots.drop batch.pendingCount } history self) :
    Drained operations execution start history
      (self.clearBatch (List.replicate pending.length {})) := by
  have empty : List.replicate pending.length ({} : Slot engine) ++
      (ran ++ batch.slots.drop batch.pendingCount).drop batch.pendingCount =
        List.replicate execution.maxInFlight {} := by
    rw [ready.drop, ready.pendingCount, List.drop_left' sameLength, ← List.replicate_add,
      Nat.add_sub_cancel' ready.room]
  cases accepted with
  | inl inStep =>
      obtain ⟨step, batched⟩ := inStep
      refine .inl ⟨⟨step.view, step.noFallback⟩, _, by rw [clearBatch, batched]; rfl, ?_⟩
      exact ⟨ready.enabled, Nat.zero_le _, empty, rfl, rfl, ready.laneContext, ready.baseReader⟩
  | inr fellBack =>
      obtain ⟨fell, batched⟩ := fellBack
      exact .inr ⟨⟨fell.inactive, fell.status, fell.fallback, fell.accepted⟩, _,
        by rw [clearBatch, batched]; rfl, rfl⟩

/-- Giving up leaves nothing in the slots. -/
theorem InStep.abandoned (step : InStep operations start done self) (within : done <+: history)
    (batched : self.parallelBatch = some batch) (reason : ParallelFallback) (txIndex : Nat)
    (error : Option LaneError) :
    ∃ after, stopParallel reason txIndex error (discardPending self) = .ok () after ∧
      FellBack operations start history after ∧ ∃ batch, after.parallelBatch = some batch ∧
        batch.enabled = false := by
  have discarded : (discardPending self).parallelBatch =
      some (batch.discard self.accumulator.progress) := by
    rw [discardPending, batched]
  have still : InStep operations start done (discardPending self) := by
    rw [discardPending, batched]
    exact ⟨step.view, step.noFallback⟩
  exact ⟨_, stopParallel_run discarded _ _ _, still.fallen within _ _ _, _, rfl, rfl⟩

theorem flush_run (promise : Promises execution start)
    (lagging : Lagging operations execution start done pending batch self) (staged : pending ≠ [])
    (chained : Chained start start.accumulator.progress (done ++ pending)) :
    (∃ after, flushPending operations runtime self = .fail .canceled after ∧
        runtime.canceled = true) ∨
      ∃ after, flushPending operations runtime self = .ok () after ∧
        Drained operations execution start (done ++ pending) after := by
  have ready := lagging.ready
  have count : ¬ batch.pendingCount = 0 := by
    rw [ready.pendingCount]
    exact fun empty => staged (List.length_eq_zero_iff.mp empty)
  have waiting : ¬ (batch.enabled = false ∨ batch.hasPending = false) := by
    simp [ready.enabled, Schedule.hasPending, count]
  have asserted : (Action.assert (fun _ : Runner engine => batch.enabled = true) :
      Action (Runner engine) Canceled Unit) self = .ok () self := if_pos ready.enabled
  have ends := batchRun_cases batch.submission runtime (pending.map holding)
    (batch.runTask runtime)
  simp only [flushPending, flush, Action.bind_run, Action.get_run, lagging.batched, if_neg waiting,
    asserted, if_neg count, ready.take]
  obtain ⟨ran, ended, canceled⟩ | ended | ⟨ran, submitted, ended, bound, sameLength, untouched⟩ :=
    ends
  · simp only [ended]
    exact .inl ⟨_, rfl, canceled⟩
  · right
    simp only [ended, Action.bind_run, Action.modify_run, Action.pure_run]
    have joined : InStep operations start done
        (recordBatch self { batch with
          slots := (pending.map holding).mapIdx (batch.runTask runtime) ++
            batch.slots.drop batch.pendingCount } batch.pendingCount).countBatch :=
      ⟨lagging.step.view, lagging.step.noFallback⟩
    obtain ⟨after, accepts, accepted⟩ := acceptSlots_run (ready.ran promise) (.inl ⟨joined, rfl⟩)
      chained
    rw [accepts]
    exact ⟨_, rfl, accepted.cleared (by simp) ready⟩
  · right
    simp only [ended, Action.bind_run, Action.modify_run, Action.pure_run]
    have inPending : submitted < pending.length := by simpa using bound
    have held : (ran ++ batch.slots.drop batch.pendingCount)[submitted]? =
        some (holding pending[submitted]) := by
      rw [List.getElem?_append_left (sameLength ▸ bound), untouched, List.getElem?_map,
        List.getElem?_eq_getElem inPending]
      rfl
    have recorded : InStep operations start done (recordBatch self { batch with
        slots := ran ++ batch.slots.drop batch.pendingCount } submitted) :=
      ⟨lagging.step.view, lagging.step.noFallback⟩
    obtain ⟨after, stopped, fell⟩ := recorded.abandoned (List.prefix_append done pending) rfl
      .concurrencyUnavailable pending[submitted].txIndex (some .concurrencyUnavailable)
    simp only [held, Action.ofOption, holding]
    exact ⟨after, stopped, .inr fell⟩

/-- With nothing staged a flush does nothing. -/
theorem Drained.flush (drained : Drained operations execution start history self) :
    flushPending operations runtime self = .ok () self := by
  unfold flushPending
  simp only [Action.bind_run, Action.get_run]
  obtain ⟨-, batch, batched, ready⟩ | ⟨-, batch, batched, disabled⟩ := drained
  · simp only [batched]
    rw [if_pos (.inr (by simp [Schedule.hasPending, ready.pendingCount])), Action.pure_run]
  · simp only [batched]
    rw [if_pos (.inl disabled), Action.pure_run]

/-- A stopped runner stays as it is while the block goes on. -/
theorem Drained.more (drained : Drained operations execution start history self)
    (inactive : self.active = false) (included : Included engine) :
    Drained operations execution start (history ++ [included]) self := by
  obtain ⟨step, batched⟩ | ⟨fell, batched⟩ := drained
  · refine .inl ⟨⟨?_, step.noFallback⟩, batched⟩
    rw [serialRun_inactive (step.active.symm.trans inactive), step.view]
  · exact .inr ⟨fell.mono, batched⟩

/-- An active runner with nothing staged lags behind by nothing. -/
theorem Drained.lagging (drained : Drained operations execution start history self)
    (active : self.active = true) (chained : Chained start start.accumulator.progress history) :
    ∃ batch, Lagging operations execution start history [] batch self := by
  obtain ⟨step, batch, batched, ready⟩ | ⟨fell, -⟩ := drained
  · refine ⟨batch, active, step, batched, ?_⟩
    rw [List.append_nil, ← serialRun_progress (step.active.symm.trans active) chained,
      ← step.accumulator]
    exact ready
  · rw [fell.inactive] at active
    cases active

/-! ## One more transaction -/

theorem Ready.length (ready : Ready execution start pending progress batch) :
    batch.slots.length = execution.maxInFlight := by
  rw [ready.slots, List.length_append, List.length_map, List.length_replicate]
  exact Nat.add_sub_cancel' ready.room

theorem Ready.stage (ready : Ready execution start pending progress batch)
    (room : pending.length < execution.maxInFlight) (included : Included engine) (granted : Bool) :
    (granted = false ∧
        batch.stage included included.progressAfter granted = .fail .outOfMemory batch) ∨
      ∃ staged, batch.stage included included.progressAfter granted = .ok () staged ∧
        Ready execution start (pending ++ [included]) included.progressAfter staged := by
  have free : batch.slots[batch.pendingCount]? = some {} := by
    rw [ready.slots, ready.pendingCount, List.getElem?_append_right (by simp)]
    simp only [List.length_map, Nat.sub_self, List.getElem?_replicate]
    rw [if_pos (Nat.sub_pos_of_lt room)]
  have bound : batch.pendingCount < batch.slots.length := by
    rw [ready.length, ready.pendingCount]
    exact room
  unfold Schedule.stage
  simp only [Action.bind_run, Action.assert, ready.enabled, bound, if_true, Action.get_run, free,
    Action.ofOption, Option.isNone_none, and_self]
  cases granted with
  | false => exact .inl ⟨rfl, rfl⟩
  | true =>
      refine .inr ⟨_, rfl, ready.enabled, ?_, ?_, ?_, rfl, ready.laneContext, ready.baseReader⟩
      · rw [List.length_append]
        exact room
      · obtain ⟨free, spare⟩ : ∃ free, execution.maxInFlight - pending.length = free + 1 :=
          ⟨_, (Nat.succ_pred_eq_of_pos (Nat.sub_pos_of_lt room)).symm⟩
        have fewer : execution.maxInFlight - (pending ++ [included]).length = free := by
          rw [List.length_append, List.length_singleton]
          omega
        change batch.slots.set batch.pendingCount (holding included) = _
        rw [ready.slots, ready.pendingCount, List.set_append_right _ _ (by simp), List.length_map,
          Nat.sub_self, spare, fewer, List.replicate_succ, List.set_cons_zero, List.map_append,
          List.append_assoc]
        rfl
      · change batch.pendingCount + 1 = _
        rw [ready.pendingCount, List.length_append, List.length_singleton]

/-- What the parallel runner is after any history that was not canceled. -/
def Coordinated (operations : Operations engine) (execution : ParallelExecution engine)
    (start : Runner engine) (history : List (Included engine)) (self : Runner engine) : Prop :=
  Drained operations execution start history self ∨
    ∃ done pending batch, history = done ++ pending ∧ pending.length < execution.maxInFlight ∧
      Lagging operations execution start done pending batch self

theorem verifyIncluded_lagging (promise : Promises execution start)
    (lagging : Lagging operations execution start done pending batch self)
    (room : pending.length < execution.maxInFlight) (runtime : Runtime engine)
    (included : Included engine)
    (chained : Chained start start.accumulator.progress (done ++ pending ++ [included])) :
    (∃ after, verifyIncluded operations runtime included self = .fail .canceled after ∧
        runtime.canceled = true) ∨
      ∃ after, verifyIncluded operations runtime included self = .ok () after ∧
        Coordinated operations execution start (done ++ pending ++ [included]) after := by
  have ready := lagging.ready
  have next := (Chained.append.mp chained).2
  have settings : start.setting = self.setting :=
    ((uniform_serialRun operations done).setting start).symm.trans
      (congrArg setting lagging.step.view).symm
  have passes := (Chained.of_setting settings next).passes lagging.active
  have within : done <+: done ++ pending ++ [included] := by
    rw [List.append_assoc]
    exact List.prefix_append _ _
  simp only [verifyIncluded, Action.bind_run, Action.get_run, lagging.active, lagging.batched,
    ready.enabled, ready.expectedProgress, passes, Bool.true_eq_false, if_false]
  obtain ⟨-, failed⟩ | ⟨staged, ran, holds⟩ := ready.stage room included runtime.staged
  · right
    have kept : InStep operations start done { self with parallelBatch := some batch } :=
      ⟨lagging.step.view, lagging.step.noFallback⟩
    obtain ⟨after, stopped, fell⟩ := kept.abandoned within rfl .laneOutOfMemory included.txIndex
      (some .outOfMemory)
    simp only [failed, Action.bind_run, Action.modify_run]
    exact ⟨after, stopped, .inl (.inr fell)⟩
  · have carried : Lagging operations execution start done (pending ++ [included]) staged
        { self with parallelBatch := some staged } := by
      refine ⟨lagging.active, ⟨lagging.step.view, lagging.step.noFallback⟩, rfl, ?_⟩
      rw [← List.append_assoc, boundary_snoc]
      exact holds
    simp only [ran, Action.bind_run, Action.modify_run, Action.when]
    rw [List.append_assoc] at chained ⊢
    by_cases full : staged.isFull = true
    · rw [if_pos full]
      obtain canceled | ⟨after, flushed, drained⟩ :=
        flush_run promise carried (by simp) chained
      · exact .inl canceled
      · exact .inr ⟨after, flushed, .inl drained⟩
    · rw [if_neg full]
      refine .inr ⟨_, rfl, .inr ⟨done, pending ++ [included], staged, rfl, ?_, carried⟩⟩
      apply Nat.lt_of_le_of_ne holds.room
      intro filled
      exact full (by simp [Schedule.isFull, holds.pendingCount, holds.length, filled])

theorem verifyIncluded_run (promise : Promises execution start)
    (positive : 0 < execution.maxInFlight) (runtime : Runtime engine)
    (coordinated : Coordinated operations execution start history self)
    (chained : Chained start start.accumulator.progress (history ++ [included])) :
    (∃ after, verifyIncluded operations runtime included self = .fail .canceled after ∧
        runtime.canceled = true) ∨
      ∃ after, verifyIncluded operations runtime included self = .ok () after ∧
        Coordinated operations execution start (history ++ [included]) after := by
  cases coordinated with
  | inr behind =>
      obtain ⟨done, pending, batch, rfl, room, lagging⟩ := behind
      exact verifyIncluded_lagging promise lagging room runtime included chained
  | inl drained =>
      by_cases active : self.active = true
      · obtain ⟨batch, lagging⟩ := drained.lagging active (Chained.append.mp chained).1
        have run := verifyIncluded_lagging promise lagging positive runtime included
        rw [List.append_nil] at run
        exact run chained
      · have inactive := Bool.eq_false_of_not_eq_true active
        refine .inr ⟨self, ?_, .inl (drained.more inactive included)⟩
        simp [verifyIncluded, Action.bind_run, inactive]

/-- The runner after all included transactions, and nothing of them staged. -/
theorem verifyIncluded_forEach (promise : Promises execution start)
    (positive : 0 < execution.maxInFlight) (steps : List (Runtime engine × Included engine))
    (coordinated : Coordinated operations execution start history self)
    (chained : Chained start start.accumulator.progress (history ++ steps.map Prod.snd)) :
    (∃ after, Action.forEach (fun step => verifyIncluded operations step.1 step.2) steps self =
        .fail .canceled after ∧ ∃ step ∈ steps, step.1.canceled = true) ∨
      ∃ after, Action.forEach (fun step => verifyIncluded operations step.1 step.2) steps self =
          .ok () after ∧
        Coordinated operations execution start (history ++ steps.map Prod.snd) after := by
  induction steps generalizing history self with
  | nil => exact .inr ⟨self, rfl, by simpa using coordinated⟩
  | cons step steps ih =>
      rw [List.map_cons, List.append_cons] at chained ⊢
      obtain ⟨after, failed, canceled⟩ | ⟨middle, ran, coordinated⟩ :=
        verifyIncluded_run promise positive step.1 coordinated
          (Chained.append.mp chained).1
      · left
        simp only [Action.forEach, Action.bind_run, failed]
        exact ⟨after, rfl, step, List.mem_cons_self, canceled⟩
      · simp only [Action.forEach, Action.bind_run, ran]
        obtain ⟨after, failed, later, member, canceled⟩ | reached := ih coordinated chained
        · exact .inl ⟨after, failed, later, List.mem_cons_of_mem _ member, canceled⟩
        · exact .inr reached

theorem flushPending_run (promise : Promises execution start)
    (runtime : Runtime engine)
    (coordinated : Coordinated operations execution start history self)
    (chained : Chained start start.accumulator.progress history) :
    (∃ after, flushPending operations runtime self = .fail .canceled after ∧
        runtime.canceled = true) ∨
      ∃ after, flushPending operations runtime self = .ok () after ∧
        Drained operations execution start history after := by
  cases coordinated with
  | inl drained => exact .inr ⟨self, drained.flush, drained⟩
  | inr behind =>
      obtain ⟨done, pending, batch, rfl, -, lagging⟩ := behind
      by_cases staged : pending = []
      · subst staged
        have drained : Drained operations execution start (done ++ []) self := by
          rw [List.append_nil] at chained ⊢
          refine .inl ⟨lagging.step, batch, lagging.batched, ?_⟩
          rw [lagging.step.accumulator,
            serialRun_progress (lagging.step.active.symm.trans lagging.active) chained]
          have ready := lagging.ready
          rw [List.append_nil] at ready
          exact ready
        exact .inr ⟨self, drained.flush, drained⟩
      · exact flush_run promise lagging staged chained

end Flushing

/-! ## The end of a block -/

theorem uniform_concludeFinished : Uniform (@concludeFinished engine) := by
  apply Uniform.choose
  intro self
  cases active : self.active with
  | true => exact ⟨fun self => { self with
      report := { self.report with status := .outcomesMatched }, active := false },
        ⟨fun _ => rfl, fun _ => rfl, fun _ => rfl, fun _ => rfl⟩,
        by simp [concludeFinished, active]⟩
  | false => exact ⟨fun self => { self with active := false },
        ⟨fun _ => rfl, fun _ => rfl, fun _ => rfl, fun _ => rfl⟩,
        by simp [concludeFinished, active]⟩

/-- What a fallible step decides from the view alone: an error, or a uniform change. -/
def Selects (answer : Runner engine → Except LaneError (Runner engine)) (self : Runner engine) :
    Prop :=
  (∃ error, answer self = .error error ∧ answer self.view = .error error) ∨
    ∃ change, Uniform change ∧ answer self = .ok (change self) ∧
      answer self.view = .ok (change self.view)

theorem selects_againstClaim (rejected : Rejected engine) (transacted : Transacted TxExecutionResult)
    (self : Runner engine) :
    Selects (fun self => self.verifyRejectedAgainstClaim rejected transacted) self := by
  cases transacted with
  | rejected => exact .inr ⟨_, uniform_finishRejected _ _, rfl, rfl⟩
  | executed output =>
      simp only [Selects, verifyRejectedAgainstClaim, view_fields]
      by_cases kind : rejected.kind ≠ .blockGas
      · simp only [if_pos kind]
        exact .inl ⟨_, rfl, rfl⟩
      · simp only [if_neg kind]
        cases executionExceedsBlockGas self.env self.accumulator.progress output.gas with
        | error error => exact .inl ⟨error, rfl, rfl⟩
        | ok exceeds => exact .inr ⟨_, uniform_finishRejected exceeds rejected.txIndex, rfl, rfl⟩

theorem uniform_stopForRejectedError (error : LaneError) (txIndex : Nat)
    (strategyFailure : Option StrategyFailure) :
    Uniform fun self : Runner engine =>
      self.stopForRejectedError error txIndex strategyFailure := by
  unfold stopForRejectedError
  split
  · exact uniform_stopForCandidateError error txIndex
  · exact uniform_stop _ _ _

theorem selects_rejected (operations : Operations engine) (rejected : Rejected engine)
    (self : Runner engine) :
    Selects (fun self => self.verifyRejectedFallible operations rejected) self := by
  simp only [Selects, verifyRejectedFallible, view_fields, ne_eq]
  by_cases position : self.accumulator.progress.txCount = rejected.txIndex
  swap
  · simp only [position, not_false_eq_true, if_true]
    exact .inl ⟨_, rfl, rfl⟩
  by_cases moved : ¬ self.accumulator.progress = rejected.progressBefore ∨
      ¬ self.accumulator.blobGasUsed = rejected.blobGasUsedBefore
  · simp only [position, moved, not_true_eq_false, if_false, if_true]
    exact .inl ⟨_, rfl, rfl⟩
  simp only [position, moved, not_true_eq_false, if_false]
  by_cases blob : rejected.kind = .blobGas
  · simp only [if_pos blob]
    cases self.accumulator.blobGasAdmission operations rejected.transaction with
    | error error => cases error <;> exact .inl ⟨_, rfl, rfl⟩
    | ok admission => exact .inr ⟨_, uniform_finishRejected _ _, rfl, rfl⟩
  simp only [if_neg blob]
  by_cases hooks : (self.beforeTransactionCalls self.accumulator.progress).length = 0
  swap
  · simp only [hooks, not_false_eq_true, if_true]
    exact .inl ⟨_, rfl, rfl⟩
  simp only [hooks, not_true_eq_false, if_false]
  cases blockAccessIndex rejected.txIndex with
  | none => exact .inl ⟨_, rfl, rfl⟩
  | some index =>
      right
      dsimp only
      cases engine.transact self.allocator ⟨self.baseReader, self.claim, index⟩ self.dependencies
          self.env rejected.transaction self.accumulator.progress.preparation with
      | mk result strategyFailure =>
          cases result with
          | error error =>
              exact ⟨_, uniform_stopForRejectedError error rejected.txIndex strategyFailure,
                rfl, rfl⟩
          | ok transacted =>
              simp only [Except.bind]
              obtain ⟨error, onSelf, onView⟩ | ⟨change, uniform, onSelf, onView⟩ :=
                selects_againstClaim rejected transacted self
              · simp only [onSelf, onView]
                exact ⟨_, uniform_stopForRejectedError error rejected.txIndex strategyFailure,
                  rfl, rfl⟩
              · simp only [onSelf, onView]
                exact ⟨change, uniform, rfl, rfl⟩

theorem uniform_concludeRejected (operations : Operations engine) (rejected : Rejected engine) :
    Uniform fun self => self.concludeRejected operations rejected := by
  apply Uniform.choose
  intro self
  simp only [concludeRejected, view_fields]
  by_cases active : self.active = false
  · simp only [active, if_true]
    exact ⟨_, uniform_id, rfl, rfl⟩
  simp only [active]
  obtain ⟨error, onSelf, onView⟩ | ⟨change, uniform, onSelf, onView⟩ :=
    selects_rejected operations rejected self
  · simp only [onSelf, onView]
    exact ⟨_, uniform_stopForCandidateError error rejected.txIndex, rfl, rfl⟩
  · simp only [onSelf, onView]
    exact ⟨change, uniform, rfl, rfl⟩

/-- The end of a block once nothing is staged. -/
def conclude (operations : Operations engine) : Ending engine → Runner engine → Runner engine
  | .finished, self => self.concludeFinished
  | .rejected rejected, self => self.concludeRejected operations rejected

theorem uniform_conclude (operations : Operations engine) (ending : Ending engine) :
    Uniform (conclude operations ending) := by
  cases ending with
  | finished => exact uniform_concludeFinished
  | rejected rejected => exact uniform_concludeRejected operations rejected

theorem verifyEnding_run {runtime : Runtime engine} (ending : Ending engine) :
    verifyEnding operations runtime ending self =
      match flushPending operations runtime self with
      | .ok _ after => .ok () (conclude operations ending after)
      | .fail error after => .fail error after
      | .illegal => .illegal := by
  cases ending with
  | finished =>
      simp only [verifyEnding, finish, Action.bind_run, conclude]
      cases flushPending operations runtime self <;> rfl
  | rejected rejected =>
      simp only [verifyEnding, verifyRejected, Action.bind_run, conclude]
      cases flushPending operations runtime self <;> rfl

theorem FellBack.conclude (fell : FellBack operations start history self) (ending : Ending engine) :
    FellBack operations start history (conclude operations ending self) := by
  cases ending with
  | finished =>
      refine ⟨rfl, ?_, ?_, ?_⟩
      · simp only [Runner.conclude, concludeFinished, fell.inactive]
        exact fell.status
      · simp only [Runner.conclude, concludeFinished, fell.inactive]
        exact fell.fallback
      · simp only [Runner.conclude, concludeFinished, fell.inactive]
        exact fell.accepted
  | rejected rejected =>
      rw [Runner.conclude, concludeRejected, if_pos fell.inactive]
      exact fell

/-! ## Whole blocks -/

section Serial

variable {self : Runner engine}

theorem verifyIncluded_serial (unbatched : self.parallelBatch = none) (runtime : Runtime engine)
    (included : Included engine) :
    verifyIncluded operations runtime included self =
      .ok () (serialIncluded operations self included) := by
  simp only [verifyIncluded, Action.bind_run, Action.get_run, unbatched, serialIncluded]
  by_cases active : self.active = false
  · simp only [if_pos active, Action.pure_run]
  · simp only [if_neg active, Action.modify_run]

theorem forEach_serial (unbatched : self.parallelBatch = none)
    (steps : List (Runtime engine × Included engine)) :
    Action.forEach (fun step => verifyIncluded operations step.1 step.2) steps self =
      .ok () (serialRun operations self (steps.map Prod.snd)) := by
  induction steps generalizing self with
  | nil => rfl
  | cons step steps ih =>
      simp only [Action.forEach, Action.bind_run, verifyIncluded_serial unbatched]
      exact ih (((uniform_serialIncluded operations step.2).batch self).trans unbatched)

/-- Without a parallel batch a block runs to its end, and nothing is canceled. -/
theorem verifyBlock_serial (unbatched : self.parallelBatch = none) (block : Block engine) :
    verifyBlock operations block self = .ok () (conclude operations block.ending
      (serialRun operations (self.verifyBeforeBlock block.header)
        (block.included.map Prod.snd))) := by
  have begun := ((uniform_verifyBeforeBlock block.header).batch self).trans unbatched
  have ended := ((uniform_serialRun operations (block.included.map Prod.snd)).batch
    (self.verifyBeforeBlock block.header)).trans begun
  simp only [verifyBlock, Action.bind_run, Action.modify_run, forEach_serial begun,
    verifyEnding_run, flushPending, Action.get_run, ended, Action.pure_run]

end Serial

theorem verifyBlock_run (self : Runner engine) (block : Block engine) :
    verifyBlock operations block self =
      match Action.forEach (fun step => verifyIncluded operations step.1 step.2) block.included
        (self.verifyBeforeBlock block.header) with
      | .ok _ after => verifyEnding operations block.last block.ending after
      | .fail error after => .fail error after
      | .illegal => .illegal := by
  simp only [verifyBlock, Action.bind_run, Action.modify_run]
  generalize Action.forEach _ block.included (self.verifyBeforeBlock block.header) = ran
  cases ran <;> rfl

/-- Some batch of the block was joined by a canceled runtime. -/
def Cancels (block : Block engine) : Prop :=
  (∃ step ∈ block.included, step.1.canceled = true) ∨ block.last.canceled = true

/-- Two runners reached the same verdict, with the same artifacts behind it. -/
structure SameVerdict (left right : Runner engine) : Prop where
  candidate : left.report.candidate = right.report.candidate
  accumulator : left.accumulator = right.accumulator
  active : left.active = right.active

theorem SameVerdict.of_view {left right : Runner engine} (same : left.view = right.view) :
    SameVerdict left right := by
  have candidate := congrArg Runner.report same
  have accumulator := congrArg Runner.accumulator same
  have active := congrArg Runner.active same
  exact ⟨candidate, accumulator, active⟩

theorem verifyBeforeBlock_progress (self : Runner engine) (header : engine.Header) :
    (self.verifyBeforeBlock header).accumulator.progress = self.accumulator.progress := by
  unfold verifyBeforeBlock
  split
  · rfl
  · split
    · rfl
    · rename_i shard _
      unfold Accumulator.appendShard
      split
      · rename_i after error appended
        exact (congrArg (fun answer => answer.1.progress) appended).symm
      · rename_i after value appended
        exact (congrArg (fun answer => answer.1.progress) appended).symm

/-- What a block over parallel lanes comes to: the verdict of the serial runner,
or a declared fallback at a prefix of the block, unless a join was canceled. -/
def Concludes (operations : Operations engine) (allocator : engine.Allocator)
    (context : LaneContext engine) (baseReader : engine.Reader)
    (execution : ParallelExecution engine) (granted : Bool) (block : Block engine) : Prop :=
  let runner := Runner.init allocator context baseReader
  let ended := verifyBlock operations block (runner.withParallel granted (some execution))
  ∃ serial, verifyBlock operations block runner = .ok () serial ∧
    ((∃ after, ended = .fail .canceled after ∧ Cancels block) ∨
      ∃ after, ended = .ok () after ∧
        ((SameVerdict after serial ∧ after.report.parallelFallback =
            if granted then none else some .laneStorageUnavailable) ∨
          FellBack operations (runner.verifyBeforeBlock block.header)
            (block.included.map Prod.snd) after))

/-- For every batch size and submission mode, and whatever the runtime refuses,
reorders or withholds, the parallel runner never runs into an assertion and
reaches the serial verdict or says that it fell back. -/
theorem verifyBlock_agrees (operations : Operations engine) (allocator : engine.Allocator)
    (context : LaneContext engine) (baseReader : engine.Reader)
    (execution : ParallelExecution engine) (granted : Bool) (block : Block engine)
    (positive : 0 < execution.maxInFlight)
    (promise : Interchangeable context allocator baseReader execution)
    (chained : Chained (Runner.init allocator context baseReader) {}
      (block.included.map Prod.snd)) :
    Concludes operations allocator context baseReader execution granted block := by
  let runner := Runner.init allocator context baseReader
  let start := runner.verifyBeforeBlock block.header
  have begin : Uniform fun self : Runner engine => self.verifyBeforeBlock block.header :=
    uniform_verifyBeforeBlock block.header
  have whole : Uniform fun self : Runner engine => conclude operations block.ending
      (serialRun operations (self.verifyBeforeBlock block.header) (block.included.map Prod.snd)) :=
    (begin.comp (uniform_serialRun operations _)).comp (uniform_conclude operations block.ending)
  refine ⟨_, verifyBlock_serial rfl block, ?_⟩
  cases granted with
  | false =>
      right
      refine ⟨_, verifyBlock_serial rfl block, .inl ⟨.of_view (whole.congr rfl), ?_⟩⟩
      exact whole.fallback _
  | true =>
      let batch := Schedule.init execution runner.laneContext
      have settings : start.setting = runner.setting := begin.setting runner
      have sameSetting := settings
      simp only [setting, Prod.mk.injEq] at sameSetting
      have kept : start.accumulator.progress = {} := verifyBeforeBlock_progress runner block.header
      have drained : Drained operations execution start []
          (({ runner with parallelBatch := some batch }).verifyBeforeBlock block.header) := by
        have sameView := begin.congr (show Runner.view { runner with parallelBatch := some batch } =
          runner.view from rfl)
        refine .inl ⟨⟨sameView, begin.fallback _⟩, batch, begin.batch _, rfl, Nat.zero_le _,
          rfl, rfl, ?_, ?_, rfl⟩
        · exact (verifyBeforeBlock_progress { runner with parallelBatch := some batch }
            block.header).symm
        · rw [sameSetting.1]
      have fromStart : Chained start start.accumulator.progress (block.included.map Prod.snd) := by
        rw [kept]
        exact Chained.of_setting settings.symm chained
      have promised : Promises execution start := by
        rw [Promises, sameSetting.1, sameSetting.2.1, sameSetting.2.2]
        exact promise
      have same : runner.withParallel true (some execution) =
          { runner with parallelBatch := some batch } := rfl
      rw [same, verifyBlock_run]
      obtain ⟨after, failed, canceled⟩ | ⟨middle, ran, coordinated⟩ :=
        verifyIncluded_forEach promised positive block.included (.inl drained) fromStart
      · rw [failed]
        exact .inl ⟨after, rfl, .inl canceled⟩
      · simp only [ran, verifyEnding_run]
        obtain ⟨after, failed, canceled⟩ | ⟨after, flushed, drained⟩ :=
          flushPending_run promised block.last coordinated fromStart
        · rw [failed]
          exact .inl ⟨after, rfl, .inr canceled⟩
        · rw [flushed]
          refine .inr ⟨_, rfl, ?_⟩
          obtain ⟨step, -⟩ | ⟨fell, -⟩ := drained
          · left
            have ends := uniform_conclude operations block.ending
            refine ⟨.of_view (ends.congr step.view), ?_⟩
            exact (ends.fallback after).trans step.noFallback
          · exact .inr (fell.conclude block.ending)

/-! ## A block of two transfers -/

/-- Transactions that only burn gas; the allocator either grants all or nothing. -/
def transferEngine : Engine where
  Transaction := Nat
  Reader := Unit
  ClaimView := Unit
  Backend := Unit
  HashSource := Unit
  Allocator := Bool
  Observations := Unit
  Header := Unit
  Call := Unit
  observe granted _ _ _ gas _ := {
    result := if granted then .ok (.executed ⟨⟨.success, ⟨gas, 0, .legacy gas⟩, [], none⟩, [], ()⟩)
      else .error .outOfMemory
    strategyFailure := none }
  materialize granted _ := if granted then .ok {} else .error .outOfMemory
  transact granted _ _ _ gas _ := {
    result := if granted then .ok (.executed ⟨.success, ⟨gas, 0, .legacy gas⟩, [], none⟩)
      else .error .outOfMemory
    strategyFailure := none }
  beforeBlockShard _ _ _ _ := .ok []
  beforeTransaction _ := []
  afterTransaction _ := []

def transferOperations : Operations transferEngine where
  appendCandidateDepositRequestData data _ := (data, .ok ())
  candidateLogsBloom _ := List.replicate 256 0
  mergeCandidateLogsBloom target _ := target
  encodeCandidateReceipt _ _ _ := .ok [0xc0]
  candidateTransactionBlobGasUsed _ := .ok 0
  candidateBlockBlobGasLimit _ := .ok 0

def transferContext : LaneContext transferEngine where
  env := { coinbase := ⟨List.replicate 20 1, length_ones⟩ }
  claim := ()

def transferExecution : ParallelExecution transferEngine where
  submission := .concurrent
  maxInFlight := 2
  stateReader := ()
  blockHashSource := none

/-- The lanes end in reverse, and the last of them gets no memory. -/
def transferRuntime : Runtime transferEngine where
  grants _ := true
  completion count := ⟨(List.range count).reverse, List.reverse_perm _⟩
  allocator index := index == 0
  canceled := false
  staged := true

def transferAt (txIndex : Nat) : Included transferEngine where
  transaction := (21000 : Nat)
  txIndex := txIndex
  progressBefore := ⟨21000 * txIndex, .legacy (21000 * txIndex), txIndex⟩
  progressAfter := ⟨21000 * (txIndex + 1), .legacy (21000 * (txIndex + 1)), txIndex + 1⟩
  result := ⟨.success, ⟨21000, 0, .legacy 21000⟩, [], none⟩
  logs := []
  blobGasUsedAfter := 0

def transferBlock : Block transferEngine where
  header := ()
  included := [(transferRuntime, transferAt 0), (transferRuntime, transferAt 1)]
  ending := .finished
  last := transferRuntime

theorem transfer_interchangeable : Interchangeable transferContext true () transferExecution where
  observe allocator _ _ _ := by
    cases allocator with
    | false => exact .inl rfl
    | true => exact .inr rfl
  materialize allocator _ := by
    cases allocator with
    | false => exact .inl rfl
    | true => exact .inr rfl

theorem verifyBlock_agrees_transfers :
    Concludes transferOperations true transferContext () transferExecution true transferBlock :=
  verifyBlock_agrees transferOperations true transferContext () transferExecution true transferBlock
    (by decide) transfer_interchangeable ⟨rfl, rfl, rfl, rfl, trivial⟩

end Runner

end EvmZig.Differential
