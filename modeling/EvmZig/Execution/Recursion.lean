import EvmZig.Execution.Runtime

/-!
# Recursive execution

`resolve` answers a message by recursion, with the stack of the language in
place of the rows.  A runtime computes what it computes, and so does the direct
lane, where the root frame waits on the stack while each of its children runs
in a runtime of its own.  Every allocation succeeds here.
-/

set_option autoImplicit false

namespace EvmZig.Execution

open Zig State
open CallRuntime (Stop Lane onExecutor finishControl finishActivation)

variable (machine : ExecutorType) (programs : Programs)

/-! ## The lanes -/

/-- A call of the executor in a lane. -/
def lifted {α : Type} (body : Engine α) : Lane α := Action.widen .error body

/-- `Interpreter.execute`: each suspension is resolved by `Host.call`. -/
def Frame.executeWith (host : HostMessage → Lane HostResult) : Frame → Lane FrameResult
  | .halted result => pure result
  | .host request next => do
      let answer ← lifted (request.run machine .all)
      (next answer).executeWith host
  | .allocate next => next.executeWith host
  | .call msg next => do
      let result ← host msg
      (next result).executeWith host
  | .create msg next => do
      let result ← host msg
      (next result).executeWith host

def Native.enterWith (host : HostMessage → Lane HostResult) : Native → Lane NativeDone
  | .done finished => pure finished
  | .fail error => Action.fail (.error error)
  | .host request next => do
      let answer ← lifted (caught (request.run machine .all))
      (next answer).enterWith host
  | .call msg next => do
      let result ← host msg
      (next result).enterWith host

/-- How a lane runs the children it has started. -/
structure Children where
  call : HostMessage → Bytes → ScopeCheckpoint → Lane HostResult
  create : HostMessage → ScopeCheckpoint → Lane HostResult
  native : HostMessage → ScopeCheckpoint → Lane HostResult

/-- What `resolveHostCall` does with a message, up to how children run. -/
def Children.dispatch (children : Children) (msg : HostMessage) : Lane HostResult :=
  match msg.precheckResult with
  | some result => pure result
  | none =>
      if msg.isCreate then
        if maxCallDepth < msg.depth then
          pure (Executor.createFailureWithCause msg.gas msg.gasReservoir .invalid .callDepthExceeded)
        else do
          match ← lifted (Executor.beginCreate machine msg) with
          | .immediate result => pure result
          | .child scope => children.create msg scope
      else do
        match ← lifted (Executor.beginCall machine .all msg) with
        | .immediate result => pure result
        | .child scope code => children.call msg code scope
        | .native scope => children.native msg scope

/-- `resolveHostCall` with its assertions on static messages. -/
def Children.resolve (children : Children) (msg : HostMessage) : Lane HostResult := do
  Action.assert fun _ => msg.staticChecked = true
  children.dispatch machine msg

theorem Children.resolve_checked {children : Children} {msg : HostMessage}
    (checked : msg.staticChecked = true) :
    children.resolve machine msg = children.dispatch machine msg := by
  funext executor
  rw [Children.resolve, Action.bind_run, Action.assert, if_pos checked]

/-- Children in a runtime of their own. -/
def Children.nested (fuel : Nat) : Children where
  call msg code scope := CallRuntime.drive machine programs (fun _ => .all) fuel
    (guarded (onExecutor (Executor.revertScope scope))
      (CallRuntime.pushChildCall programs .all msg code scope))
  create msg scope := CallRuntime.drive machine programs (fun _ => .all) fuel
    (guarded (onExecutor (Executor.revertScope scope))
      (CallRuntime.pushChildCreate programs .all msg scope))
  native msg scope := CallRuntime.drive machine programs (fun _ => .all) fuel
    (guarded (onExecutor (Executor.revertScope scope))
      (CallRuntime.pushNative programs .all msg (some scope)))

def resolveHostCall (fuel : Nat) (msg : HostMessage) : Lane HostResult :=
  (Children.nested machine programs fuel).resolve machine msg

/-- A root call without the frame store. -/
def executePreparedCallMessageDirect (fuel : Nat) (msg : HostMessage) (code : Bytes) :
    Lane HostResult := do
  let result ← (programs.interpret msg code).executeWith machine (resolveHostCall machine programs fuel)
  return .fromExecution result.executionResult false

/-- Children on the stack of the language. -/
def Children.recursive (host : HostMessage → Lane HostResult) : Children where
  call msg code scope := do
    let result ← (programs.interpret msg code).executeWith machine host
    lifted (finishControl machine (.call scope) result)
  create msg scope := do
    let result ← (programs.interpret (CallRuntime.createMessage msg) msg.inputData).executeWith
        machine host
    lifted (finishControl machine (.create scope msg.recipient) result)
  native msg scope := do
    let done ← (programs.native msg).enterWith machine host
    lifted (finishActivation machine (some scope) msg done)

/-- Answer a message whose frame may start children for so many more levels. -/
def resolve : Nat → HostMessage → Lane HostResult
  | 0 => (Children.recursive machine programs fun _ => Action.illegal).resolve machine
  | levels + 1 => (Children.recursive machine programs (resolve levels)).resolve machine

/-- What a caller gets from a lane. -/
inductive Verdict (α : Type) where
  | returned (value : α) (executor : Executor)
  /-- An infrastructure error, or a failed assertion. -/
  | stopped
  | exhausted

namespace Verdict

variable {α β : Type}

def of : Outcome Executor Stop α → Verdict α
  | .ok value executor => .returned value executor
  | .fail .exhausted _ => .exhausted
  | .fail (.error _) _ => .stopped
  | .illegal => .stopped

protected def bind (first : Verdict α) (next : α → Executor → Verdict β) : Verdict β :=
  match first with
  | .returned value executor => next value executor
  | .stopped => .stopped
  | .exhausted => .exhausted

theorem of_bind (first : Lane α) (next : α → Lane β) (executor : Executor) :
    of ((first >>= next) executor) =
      (of (first executor)).bind fun value after => of (next value after) := by
  rw [Action.bind_run]
  cases first executor with
  | ok value after => rfl
  | fail error after => cases error <;> rfl
  | illegal => rfl

end Verdict

/-! ## Where a runtime leads -/

namespace CallRuntime

/-- What the runtime ends in from here. -/
def verdict (fuel : Nat) (self : CallRuntime) : Verdict HostResult :=
  .of (ended (run machine programs (fun _ => .all) fuel self))

/-- After some rounds the runtime goes on as `later` does. -/
def Leads (self later : CallRuntime) : Prop :=
  ∃ rounds, ∀ fuel, verdict machine programs (fuel + rounds) self = verdict machine programs fuel later

def Halts (self : CallRuntime) (verdict : Verdict HostResult) : Prop :=
  ∃ rounds, ∀ fuel, CallRuntime.verdict machine programs (fuel + rounds) self = verdict

/-- The runtime does what the lane does, and is in `after` where the lane returns. -/
def Answers {α : Type} (self : CallRuntime) (after : α → Executor → CallRuntime) :
    Outcome Executor Stop α → Prop
  | .ok value executor => Leads machine programs self (after value executor)
  | .fail (.error _) _ => Halts machine programs self .stopped
  | .fail .exhausted _ => False
  | .illegal => Halts machine programs self .stopped

variable {machine programs} {self middle later after : CallRuntime} {α β : Type}

theorem Leads.refl (self : CallRuntime) : Leads machine programs self self := ⟨0, fun _ => rfl⟩

theorem Leads.trans (first : Leads machine programs self middle)
    (second : Leads machine programs middle later) : Leads machine programs self later := by
  obtain ⟨rounds, same⟩ := first
  obtain ⟨more, next⟩ := second
  refine ⟨more + rounds, fun fuel => ?_⟩
  rw [← Nat.add_assoc, same, next]

theorem Leads.halts {verdict : Verdict HostResult} (first : Leads machine programs self middle)
    (halts : Halts machine programs middle verdict) : Halts machine programs self verdict := by
  obtain ⟨rounds, same⟩ := first
  obtain ⟨more, next⟩ := halts
  refine ⟨more + rounds, fun fuel => ?_⟩
  rw [← Nat.add_assoc, same, next]

theorem Leads.answers {after : α → Executor → CallRuntime} {outcome : Outcome Executor Stop α}
    (first : Leads machine programs self middle)
    (answers : Answers machine programs middle after outcome) :
    Answers machine programs self after outcome := by
  cases outcome with
  | ok value executor => exact first.trans answers
  | fail error executor =>
      cases error with
      | error error => exact first.halts answers
      | exhausted => exact answers
  | illegal => exact first.halts answers

theorem Answers.bind {between : α → Executor → CallRuntime} {after : β → Executor → CallRuntime}
    {first : Lane α} {next : α → Lane β} {executor : Executor}
    (begins : Answers machine programs self between (first executor))
    (goes : ∀ value executor, Answers machine programs (between value executor) after
      (next value executor)) :
    Answers machine programs self after ((first >>= next) executor) := by
  rw [Action.bind_run]
  cases outcome : first executor with
  | ok value middle =>
      rw [outcome] at begins
      exact Leads.answers begins (goes value middle)
  | fail error last =>
      rw [outcome] at begins
      cases error with
      | error error => exact begins
      | exhausted => exact begins
  | illegal =>
      rw [outcome] at begins
      exact begins

/-! ### Rounds -/

theorem verdict_zero (self : CallRuntime) : verdict machine programs 0 self = .exhausted := rfl

theorem verdict_none (stepped : step machine programs .all self = .ok none after) (fuel : Nat) :
    verdict machine programs (fuel + 1) self = verdict machine programs fuel after := by
  simp only [verdict, run, Action.bind_run, Action.widen, stepped]

theorem verdict_some {result : HostResult}
    (stepped : step machine programs .all self = .ok (some result) after) (fuel : Nat) :
    verdict machine programs (fuel + 1) self = .of (ended (.ok result after)) := by
  simp only [verdict, run, Action.bind_run, Action.widen, stepped]
  rfl

theorem of_ended_fail (error : StateError) (self : CallRuntime) :
    Verdict.of (ended (.fail (.error error) self : Outcome CallRuntime Stop α)) = .stopped := by
  dsimp only [ended, closed]
  split <;> rfl

/-- A run that neither returns nor runs out of fuel. -/
def Stops {σ ε α : Type} : Outcome σ ε α → Prop
  | .ok _ _ => False
  | .fail _ _ => True
  | .illegal => True

theorem stops_bind {σ ε γ δ : Type} {first : Action σ ε γ} {next : γ → Action σ ε δ} {receiver : σ}
    (stops : Stops (first receiver)) : Stops ((first >>= next) receiver) := by
  rw [Action.bind_run]
  cases ran : first receiver with
  | ok value after =>
      rw [ran] at stops
      exact stops.elim
  | fail error after => trivial
  | illegal => trivial

theorem onExecutor_stops {body : Engine α} (stops : Stops (body self.executor)) :
    Stops (onExecutor body self) := by
  simp only [onExecutor]
  cases ran : body self.executor with
  | ok value executor =>
      rw [ran] at stops
      exact stops.elim
  | fail error executor => trivial
  | illegal => trivial

theorem verdict_stops (stops : Stops (step machine programs .all self)) (fuel : Nat) :
    verdict machine programs (fuel + 1) self = .stopped := by
  simp only [verdict, run, Action.bind_run, Action.widen]
  cases stepped : step machine programs .all self with
  | ok value after =>
      rw [stepped] at stops
      exact stops.elim
  | fail error after => exact of_ended_fail error after
  | illegal => rfl

theorem Leads.of_step (stepped : step machine programs .all self = .ok none after) :
    Leads machine programs self after :=
  ⟨1, verdict_none stepped⟩

theorem Halts.of_stops (stops : Stops (step machine programs .all self)) :
    Halts machine programs self .stopped :=
  ⟨1, verdict_stops stops⟩

/-- What the executor returns decides whether the next round is one. -/
theorem Answers.of_engine {body : Engine α} {executor : Executor} {after : α → Executor → CallRuntime}
    (returns : ∀ value later, body executor = .ok value later →
      Leads machine programs self (after value later))
    (stops : Stops (body executor) → Stops (step machine programs .all self)) :
    Answers machine programs self after (lifted body executor) := by
  simp only [lifted, Action.widen]
  cases ran : body executor with
  | ok value later => exact returns value later ran
  | fail error later => exact Halts.of_stops (stops (by rw [ran]; trivial))
  | illegal => exact Halts.of_stops (stops (by rw [ran]; trivial))

/-- The same for the last round of a run. -/
theorem Halts.of_engine {body : Engine HostResult} {executor : Executor}
    (returns : ∀ result later, body executor = .ok result later →
      step machine programs .all self = .ok (some result) ⟨later, [], false⟩)
    (stops : Stops (body executor) → Stops (step machine programs .all self)) :
    Halts machine programs self (.of (lifted body executor)) := by
  simp only [lifted, Action.widen]
  cases ran : body executor with
  | ok result later => exact ⟨1, verdict_some (returns result later ran)⟩
  | fail error later => exact Halts.of_stops (stops (by rw [ran]; trivial))
  | illegal => exact Halts.of_stops (stops (by rw [ran]; trivial))

/-- Two runtimes with the same next round. -/
theorem Leads.of_same
    (same : step machine programs .all self = step machine programs .all later ∨
      Stops (step machine programs .all self) ∧ Stops (step machine programs .all later)) :
    Leads machine programs self later := by
  refine ⟨0, fun fuel => ?_⟩
  cases fuel with
  | zero => rw [Nat.zero_add, verdict_zero, verdict_zero]
  | succ fuel =>
      rcases same with same | ⟨stops, alsoStops⟩
      · simp only [verdict, run, Action.bind_run, Action.widen, same]
      · rw [Nat.add_zero, verdict_stops stops, verdict_stops alsoStops]

/-! ### Frames -/

section Frames

variable {executor first second : Executor} {control : Control} {frame other ran : Frame}
  {below : List Row}

theorem execute_index (frame : Frame) (index : Nat) :
    frame.execute machine .all index = frame.execute machine .all 0 := by
  induction frame generalizing index with
  | halted result => rfl
  | host request next ih =>
      simp only [Frame.execute]
      exact congrArg _ (funext fun answer => ih answer index)
  | allocate next ih =>
      simp only [Frame.execute, provide_all, pure_bind]
      rw [ih, ih 1]
  | call msg next ih => rfl
  | create msg next ih => rfl

theorem step_frame (executed : frame.execute machine .all 0 first = .ok ran second) :
    step machine programs .all ⟨first, .frame control frame :: below, false⟩ =
      dispatchFrame machine programs .all control below ran
        ⟨second, .frame control ran :: below, false⟩ := by
  simp only [step, stepFrame, onExecutor, setRows, Action.bind_run, Action.read_run, executed,
    Action.modify_run]

theorem step_frame_stops (stops : Stops (frame.execute machine .all 0 first)) :
    Stops (step machine programs .all ⟨first, .frame control frame :: below, false⟩) := by
  change Stops (stepFrame machine programs .all control frame below _)
  exact stops_bind (onExecutor_stops stops)

/-- Two frames that run alike. -/
theorem Leads.of_execute
    (same : frame.execute machine .all 0 first = other.execute machine .all 0 second) :
    Leads machine programs ⟨first, .frame control frame :: below, false⟩
      ⟨second, .frame control other :: below, false⟩ := by
  apply Leads.of_same
  cases executed : other.execute machine .all 0 second with
  | ok ran last => exact .inl ((step_frame (same.trans executed)).trans (step_frame executed).symm)
  | fail error last =>
      refine .inr ⟨step_frame_stops ?_, step_frame_stops ?_⟩
      · rw [same, executed]
        trivial
      · rw [executed]
        trivial
  | illegal =>
      refine .inr ⟨step_frame_stops ?_, step_frame_stops ?_⟩
      · rw [same, executed]
        trivial
      · rw [executed]
        trivial

end Frames

/-! ### Suspended rows -/

/-- A row that waits for the answer to a message, and the row it becomes. -/
inductive Waiting : Row → HostMessage → (HostResult → Row) → Prop
  | call {control : Control} {msg : HostMessage} {next : HostResult → Frame}
      (isCall : msg.isCreate = false) :
      Waiting (.frame control (.call msg next)) msg fun result => .frame control (next result)
  | create {control : Control} {msg : HostMessage} {next : HostResult → Frame}
      (isCreate : msg.isCreate = true) :
      Waiting (.frame control (.create msg next)) msg fun result => .frame control (next result)
  | native {scope : Option ScopeCheckpoint} {message msg : HostMessage} {next : HostResult → Native}
      (isCall : msg.isCreate = false) :
      Waiting (.native scope message (.call msg next)) msg
        fun result => .native scope message (next result)

section Waiting

variable {row : Row} {msg : HostMessage} {resumed : HostResult → Row} {executor : Executor}
  {below above : List Row} {result : HostResult}

theorem Waiting.resumeWith (waiting : Waiting row msg resumed) (result : HostResult) :
    row.resumeWith result = some (resumed result) := by
  cases waiting <;> rfl

theorem resumeSuspended_run (waiting : Waiting row msg resumed) {resolved : Bool} {index : Nat}
    {rows : List Row} (found : rows[index]? = some row) :
    resumeSuspended .all index result ⟨executor, rows, resolved⟩ =
      .ok () ⟨executor, rows.set index (resumed result), resolved⟩ := by
  simp only [resumeSuspended, Action.bind_run, Action.get_run, found, Option.bind_some,
    waiting.resumeWith, provide_all, pure_bind]
  rfl

theorem Waiting.stepped (waiting : Waiting row msg resumed) :
    step machine programs .all ⟨executor, row :: below, false⟩ =
      ((if msg.isCreate then startCreate machine programs .all msg
        else startCall machine programs .all msg) >>= settle .all)
        ⟨executor, row :: below, false⟩ := by
  cases waiting with
  | call isCall =>
      rw [step_frame rfl, isCall]
      rfl
  | create isCreate =>
      rw [step_frame rfl, isCreate]
      rfl
  | native isCall =>
      rw [isCall]
      rfl

/-- An answer without a child. -/
theorem Waiting.answered (waiting : Waiting row msg resumed) {later : Executor}
    (started : (if msg.isCreate then startCreate machine programs .all msg
      else startCall machine programs .all msg) ⟨executor, row :: below, false⟩ =
        .ok (some result) ⟨later, row :: below, false⟩) :
    Leads machine programs ⟨executor, row :: below, false⟩
      ⟨later, resumed result :: below, false⟩ := by
  apply Leads.of_step
  rw [waiting.stepped, Action.bind_run, started]
  dsimp only [settle]
  rw [Action.bind_run, resumeSuspended_run waiting rfl]
  rfl

/-- The child is pushed. -/
theorem Waiting.pushed (waiting : Waiting row msg resumed) {after : CallRuntime}
    (started : (if msg.isCreate then startCreate machine programs .all msg
      else startCall machine programs .all msg) ⟨executor, row :: below, false⟩ = .ok none after) :
    Leads machine programs ⟨executor, row :: below, false⟩ after := by
  apply Leads.of_step
  rw [waiting.stepped, Action.bind_run, started]
  rfl

theorem Waiting.stops (waiting : Waiting row msg resumed)
    (stops : Stops ((if msg.isCreate then startCreate machine programs .all msg
      else startCall machine programs .all msg) ⟨executor, row :: below, false⟩)) :
    Halts machine programs ⟨executor, row :: below, false⟩ .stopped := by
  apply Halts.of_stops
  rw [waiting.stepped]
  exact stops_bind stops

end Waiting

/-! ### Native activations -/

section Natives

variable {first second : Executor} {scope : Option ScopeCheckpoint} {message : HostMessage}
  {native other entered : Native} {below : List Row}

theorem step_native (ran : native.enter machine .all first = .ok entered second) :
    step machine programs .all ⟨first, .native scope message native :: below, false⟩ =
      dispatchNative machine programs .all scope message below entered
        ⟨second, .native scope message entered :: below, false⟩ := by
  simp only [step, stepNative, onExecutor, setRows, Action.bind_run, Action.read_run, ran,
    Action.modify_run]

theorem step_native_stops (stops : Stops (native.enter machine .all first)) :
    Stops (step machine programs .all ⟨first, .native scope message native :: below, false⟩) := by
  change Stops (stepNative machine programs .all scope message native below _)
  exact stops_bind (onExecutor_stops stops)

/-- Two activations that run alike. -/
theorem Leads.of_enter (same : native.enter machine .all first = other.enter machine .all second) :
    Leads machine programs ⟨first, .native scope message native :: below, false⟩
      ⟨second, .native scope message other :: below, false⟩ := by
  apply Leads.of_same
  cases ran : other.enter machine .all second with
  | ok entered last => exact .inl ((step_native (same.trans ran)).trans (step_native ran).symm)
  | fail error last =>
      refine .inr ⟨step_native_stops ?_, step_native_stops ?_⟩
      · rw [same, ran]
        trivial
      · rw [ran]
        trivial
  | illegal =>
      refine .inr ⟨step_native_stops ?_, step_native_stops ?_⟩
      · rw [same, ran]
        trivial
      · rw [ran]
        trivial

end Natives

/-! ### Rows that are done -/

section Finishing

variable {control : Control} {result : FrameResult} {hostResult : HostResult}
  {executor later : Executor} {below : List Row} {row : Row} {msg : HostMessage}
  {resumed : HostResult → Row} {scope : Option ScopeCheckpoint} {message : HostMessage}
  {done : NativeDone}

theorem guardRow_ok {body : Drive α} {value : α} (ran : body self = .ok value after) :
    guardRow scope body self = .ok value after := by
  cases scope with
  | none => exact ran
  | some scope =>
      simp only [guardRow, guarded]
      rw [ran]

theorem guardRow_stops {body : Drive α} (stops : Stops (body self)) :
    Stops (guardRow scope body self) := by
  cases scope with
  | none => exact stops
  | some scope =>
      simp only [guardRow, guarded]
      cases ran : body self with
      | ok value after =>
          rw [ran] at stops
          exact stops.elim
      | fail error after =>
          dsimp only
          split <;> trivial
      | illegal => trivial

theorem finishFrame_ok {rows : List Row}
    (finished : finishControl machine control result executor = .ok hostResult later) :
    finishFrame machine .all control result ⟨executor, rows, false⟩ =
      .ok hostResult ⟨later, rows, true⟩ := by
  have resolved : resolveFrame machine .all control result ⟨executor, rows, false⟩ =
      .ok hostResult ⟨later, rows, false⟩ := by
    simp only [resolveFrame, provide_all, pure_bind, onExecutor, finished]
  rw [finishFrame, Action.bind_run, guardRow_ok resolved]
  rfl

theorem finishFrame_stops {rows : List Row}
    (stops : Stops (finishControl machine control result executor)) :
    Stops (finishFrame machine .all control result ⟨executor, rows, false⟩) := by
  have resolved : Stops (resolveFrame machine .all control result ⟨executor, rows, false⟩) := by
    simp only [resolveFrame, provide_all, pure_bind]
    exact onExecutor_stops stops
  exact stops_bind (guardRow_stops resolved)

/-- A halted child answers the row below it. -/
theorem Waiting.finished (waiting : Waiting row msg resumed) :
    Answers machine programs ⟨executor, .frame control (.halted result) :: row :: below, false⟩
      (fun hostResult later => ⟨later, resumed hostResult :: below, false⟩)
      (lifted (finishControl machine control result) executor) := by
  apply Answers.of_engine
  · intro hostResult later finished
    apply Leads.of_step
    rw [step_frame rfl, dispatchFrame, Action.bind_run, finishFrame_ok finished]
    dsimp only
    rw [Action.bind_run, resumeSuspended_run waiting rfl]
    rfl
  · intro stops
    rw [step_frame rfl]
    exact stops_bind (finishFrame_stops stops)

/-- The root frame ends the run. -/
theorem frame_ends :
    Halts machine programs ⟨executor, [.frame control (.halted result)], false⟩
      (.of (lifted (finishControl machine control result) executor)) := by
  apply Halts.of_engine
  · intro hostResult later finished
    rw [step_frame rfl, dispatchFrame, Action.bind_run, finishFrame_ok finished]
    rfl
  · intro stops
    rw [step_frame rfl]
    exact stops_bind (finishFrame_stops stops)

theorem finishNative_ok {rows : List Row}
    (finished : finishActivation machine scope message done executor = .ok hostResult later) :
    finishNative machine .all scope message done ⟨executor, rows, false⟩ =
      .ok hostResult ⟨later, rows.tail, false⟩ := by
  have resolved : resolveNative machine .all scope message done ⟨executor, rows.tail, false⟩ =
      .ok hostResult ⟨later, rows.tail, false⟩ := by
    simp only [resolveNative, provide_all, pure_bind, onExecutor, finished]
  rw [finishNative, Action.bind_run, Action.modify_run]
  dsimp only
  rw [Action.bind_run, guardRow_ok resolved]
  rfl

theorem finishNative_stops {rows : List Row}
    (stops : Stops (finishActivation machine scope message done executor)) :
    Stops (finishNative machine .all scope message done ⟨executor, rows, false⟩) := by
  have resolved : Stops (resolveNative machine .all scope message done
      ⟨executor, rows.tail, false⟩) := by
    simp only [resolveNative, provide_all, pure_bind]
    exact onExecutor_stops stops
  rw [finishNative, Action.bind_run, Action.modify_run]
  exact stops_bind (guardRow_stops resolved)

/-- An activation that is done answers the row below it. -/
theorem Waiting.finishedNative (waiting : Waiting row msg resumed) :
    Answers machine programs ⟨executor, .native scope message (.done done) :: row :: below, false⟩
      (fun hostResult later => ⟨later, resumed hostResult :: below, false⟩)
      (lifted (finishActivation machine scope message done) executor) := by
  apply Answers.of_engine
  · intro hostResult later finished
    apply Leads.of_step
    rw [step_native rfl, dispatchNative, Action.bind_run, finishNative_ok finished]
    dsimp only
    rw [Action.bind_run, resumeSuspended_run waiting rfl]
    rfl
  · intro stops
    rw [step_native rfl]
    exact stops_bind (finishNative_stops stops)

theorem native_ends :
    Halts machine programs ⟨executor, [.native scope message (.done done)], false⟩
      (.of (lifted (finishActivation machine scope message done) executor)) := by
  apply Halts.of_engine
  · intro hostResult later finished
    rw [step_native rfl, dispatchNative, Action.bind_run, finishNative_ok finished]
    rfl
  · intro stops
    rw [step_native rfl]
    exact stops_bind (finishNative_stops stops)

end Finishing

/-! ### The runtime and the recursion -/

section Agreement

variable {depth : Nat} {host : HostMessage → Lane HostResult} {executor : Executor}
  {control : Control} {frame : Frame} {native : Native} {below : List Row} {row : Row}
  {msg message : HostMessage} {resumed : HostResult → Row} {scope : Option ScopeCheckpoint}

/-- The runtime answers the children of frames at this depth as `host` does. -/
structure HostAnswers (machine : ExecutorType) (programs : Programs) (depth : Nat)
    (host : HostMessage → Lane HostResult) : Prop where
  waiting : ∀ {row : Row} {msg : HostMessage} {resumed : HostResult → Row} {below : List Row}
    {executor : Executor}, Waiting row msg resumed → msg.depth = depth + 1 → msg.staticChecked = true →
    Answers machine programs ⟨executor, row :: below, false⟩
      (fun result later => ⟨later, resumed result :: below, false⟩) (host msg executor)

theorem frame_answers (answers : HostAnswers machine programs depth host)
    (spawns : frame.Spawns depth) :
    Answers machine programs ⟨executor, .frame control frame :: below, false⟩
      (fun result later => ⟨later, .frame control (.halted result) :: below, false⟩)
      (frame.executeWith machine host executor) := by
  induction frame generalizing executor with
  | halted result => exact Leads.refl _
  | host request next ih =>
      have asked : Answers machine programs
          ⟨executor, .frame control (.host request next) :: below, false⟩
          (fun answer later => ⟨later, .frame control (next answer) :: below, false⟩)
          (lifted (request.run machine .all) executor) := ?_
      · exact Answers.bind asked fun answer later => ih answer (spawns answer)
      apply Answers.of_engine
      · intro answer later ran
        apply Leads.of_execute
        simp only [Frame.execute, Action.bind_run, ran]
      · intro stops
        exact step_frame_stops (stops_bind stops)
  | allocate next ih =>
      refine Leads.answers (Leads.of_execute ?_) (ih spawns)
      simp only [Frame.execute, provide_all, pure_bind, execute_index next 1]
  | call msg next ih =>
      obtain ⟨deeper, isCall, checked, spawned⟩ := spawns
      exact Answers.bind (answers.waiting (.call isCall) deeper checked)
        fun result later => ih result (spawned result)
  | create msg next ih =>
      obtain ⟨deeper, isCreate, checked, spawned⟩ := spawns
      exact Answers.bind (answers.waiting (.create isCreate) deeper checked)
        fun result later => ih result (spawned result)

theorem native_answers (answers : HostAnswers machine programs depth host)
    (spawns : native.Spawns depth) :
    Answers machine programs ⟨executor, .native scope message native :: below, false⟩
      (fun done later => ⟨later, .native scope message (.done done) :: below, false⟩)
      (native.enterWith machine host executor) := by
  induction native generalizing executor with
  | done done => exact Leads.refl _
  | fail error => exact Halts.of_stops (step_native_stops trivial)
  | host request next ih =>
      have asked : Answers machine programs
          ⟨executor, .native scope message (.host request next) :: below, false⟩
          (fun answer later => ⟨later, .native scope message (next answer) :: below, false⟩)
          (lifted (caught (request.run machine .all)) executor) := ?_
      · exact Answers.bind asked fun answer later => ih answer (spawns answer)
      apply Answers.of_engine
      · intro answer later ran
        apply Leads.of_enter
        simp only [Native.enter, Action.bind_run, ran]
      · intro stops
        exact step_native_stops (stops_bind stops)
  | call msg next ih =>
      obtain ⟨deeper, isCall, checked, spawned⟩ := spawns
      exact Answers.bind (answers.waiting (.native isCall) deeper checked)
        fun result later => ih result (spawned result)

/-! ### Children -/

theorem startCall_run (machine : ExecutorType) (programs : Programs) (msg : HostMessage)
    (executor : Executor) (rows : List Row) :
    startCall machine programs .all msg ⟨executor, rows, false⟩ =
      match msg.precheckResult with
      | some result => .ok (some result) ⟨executor, rows, false⟩
      | none =>
          match Executor.beginCall machine .all msg executor with
          | .ok (.immediate result) later => .ok (some result) ⟨later, rows, false⟩
          | .ok (.child scope code) later =>
              .ok none ⟨later, .frame (.call scope) (programs.interpret msg code) :: rows, false⟩
          | .ok (.native scope) later =>
              .ok none ⟨later, .native (some scope) msg (programs.native msg) :: rows, false⟩
          | .fail error later => .fail error ⟨later, rows, false⟩
          | .illegal => .illegal := by
  simp only [startCall, provide_all, pure_bind]
  cases msg.precheckResult with
  | some result => rfl
  | none =>
      dsimp only
      rw [Action.bind_run, onExecutor]
      dsimp only
      cases Executor.beginCall machine .all msg executor with
      | ok started later => cases started <;> rfl
      | fail error later => rfl
      | illegal => rfl

theorem startCreate_run (machine : ExecutorType) (programs : Programs) (msg : HostMessage)
    (executor : Executor) (rows : List Row) :
    startCreate machine programs .all msg ⟨executor, rows, false⟩ =
      match msg.precheckResult with
      | some result => .ok (some result) ⟨executor, rows, false⟩
      | none =>
          if maxCallDepth < msg.depth then
            .ok (some (Executor.createFailureWithCause msg.gas msg.gasReservoir .invalid
              .callDepthExceeded)) ⟨executor, rows, false⟩
          else
            match Executor.beginCreate machine msg executor with
            | .ok (.immediate result) later => .ok (some result) ⟨later, rows, false⟩
            | .ok (.child scope) later =>
                .ok none ⟨later, .frame (.create scope msg.recipient)
                  (programs.interpret (createMessage msg) msg.inputData) :: rows, false⟩
            | .fail error later => .fail error ⟨later, rows, false⟩
            | .illegal => .illegal := by
  simp only [startCreate, provide_all, pure_bind]
  cases msg.precheckResult with
  | some result => rfl
  | none =>
      dsimp only
      split
      · rfl
      · rw [Action.bind_run, onExecutor]
        dsimp only
        cases Executor.beginCreate machine msg executor with
        | ok started later => cases started <;> rfl
        | fail error later => rfl
        | illegal => rfl

/-- A call that would go too deep starts no child. -/
theorem beginCall_deep (deep : maxCallDepth < msg.depth) :
    Executor.beginCall machine .all msg executor =
      .ok (.immediate (msg.unstarted .callDepthExceeded)) executor := by
  simp only [Executor.beginCall, if_pos deep]
  rfl

theorem child_answers (waiting : Waiting row msg resumed) {started : Executor}
    (answers : HostAnswers machine programs depth host) (spawns : frame.Spawns depth)
    (begins : Leads machine programs ⟨executor, row :: below, false⟩
      ⟨started, .frame control frame :: row :: below, false⟩) :
    Answers machine programs ⟨executor, row :: below, false⟩
      (fun result later => ⟨later, resumed result :: below, false⟩)
      ((do
        let result ← frame.executeWith machine host
        lifted (finishControl machine control result)) started) :=
  Leads.answers begins (Answers.bind (frame_answers answers spawns) fun _ _ => waiting.finished)

theorem recursive_call_answers (waiting : Waiting row msg resumed) (isCall : msg.isCreate = false)
    (inner : msg.depth ≤ maxCallDepth → HostAnswers machine programs msg.depth host)
    (unchecked : msg.precheckResult = none) :
    Answers machine programs ⟨executor, row :: below, false⟩
      (fun result later => ⟨later, resumed result :: below, false⟩)
      ((Children.recursive machine programs host).dispatch machine msg executor) := by
  have started := startCall_run machine programs msg executor (row :: below)
  simp only [unchecked] at started
  simp only [Children.dispatch, unchecked, isCall, Bool.false_eq_true, if_false]
  by_cases deep : maxCallDepth < msg.depth
  · simp only [beginCall_deep deep] at started
    simp only [Action.bind_run, lifted, Action.widen, beginCall_deep deep]
    apply waiting.answered
    rw [isCall]
    exact started
  · have answers := inner (Nat.le_of_not_lt deep)
    simp only [Action.bind_run, lifted, Action.widen]
    cases begun : Executor.beginCall machine .all msg executor with
    | fail error later =>
        rw [begun] at started
        apply waiting.stops
        rw [isCall, if_neg Bool.false_ne_true, started]
        trivial
    | illegal =>
        rw [begun] at started
        apply waiting.stops
        rw [isCall, if_neg Bool.false_ne_true, started]
        trivial
    | ok value later =>
        rw [begun] at started
        cases value with
        | immediate result =>
            apply waiting.answered
            rw [isCall]
            exact started
        | child scope code =>
            exact child_answers waiting answers (programs.interpret_spawns msg code)
              (waiting.pushed (by rw [isCall]; exact started))
        | native scope =>
            have pushed : Leads machine programs ⟨executor, row :: below, false⟩
                ⟨later, .native (some scope) msg (programs.native msg) :: row :: below, false⟩ :=
              waiting.pushed (by rw [isCall]; exact started)
            exact Leads.answers pushed (Answers.bind
              (native_answers answers (programs.native_spawns msg))
              fun _ _ => waiting.finishedNative)

theorem recursive_create_answers (waiting : Waiting row msg resumed) (isCreate : msg.isCreate = true)
    (inner : msg.depth ≤ maxCallDepth → HostAnswers machine programs msg.depth host)
    (unchecked : msg.precheckResult = none) :
    Answers machine programs ⟨executor, row :: below, false⟩
      (fun result later => ⟨later, resumed result :: below, false⟩)
      ((Children.recursive machine programs host).dispatch machine msg executor) := by
  have started := startCreate_run machine programs msg executor (row :: below)
  simp only [unchecked] at started
  simp only [Children.dispatch, unchecked, isCreate, if_true]
  by_cases deep : maxCallDepth < msg.depth
  · simp only [if_pos deep] at started ⊢
    apply waiting.answered
    rw [isCreate]
    exact started
  · have answers := inner (Nat.le_of_not_lt deep)
    simp only [if_neg deep] at started ⊢
    simp only [Action.bind_run, lifted, Action.widen]
    cases begun : Executor.beginCreate machine msg executor with
    | fail error later =>
        rw [begun] at started
        apply waiting.stops
        rw [isCreate, if_pos rfl, started]
        trivial
    | illegal =>
        rw [begun] at started
        apply waiting.stops
        rw [isCreate, if_pos rfl, started]
        trivial
    | ok value later =>
        rw [begun] at started
        cases value with
        | immediate result =>
            apply waiting.answered
            rw [isCreate]
            exact started
        | child scope =>
            exact child_answers waiting answers
              (programs.interpret_spawns (createMessage msg) msg.inputData)
              (waiting.pushed (by rw [isCreate]; exact started))

/-- One level of the recursion. -/
theorem recursive_answers (waiting : Waiting row msg resumed) (safe : msg.staticChecked = true)
    (inner : msg.depth ≤ maxCallDepth → HostAnswers machine programs msg.depth host) :
    Answers machine programs ⟨executor, row :: below, false⟩
      (fun result later => ⟨later, resumed result :: below, false⟩)
      ((Children.recursive machine programs host).resolve machine msg executor) := by
  rw [Children.resolve_checked machine safe]
  cases checked : msg.precheckResult with
  | some result =>
      simp only [Children.dispatch, checked]
      apply waiting.answered
      cases isCreate : msg.isCreate with
      | true =>
          rw [if_pos rfl, startCreate_run]
          simp only [checked]
      | false =>
          rw [if_neg Bool.false_ne_true, startCall_run]
          simp only [checked]
  | none =>
      cases isCreate : msg.isCreate with
      | true => exact recursive_create_answers waiting isCreate inner checked
      | false => exact recursive_call_answers waiting isCreate inner checked

/-- With a level for each call depth left, the recursion answers as the runtime does. -/
theorem resolve_answers (levels depth : Nat) (enough : maxCallDepth ≤ depth + levels) :
    HostAnswers machine programs depth (resolve machine programs levels) := by
  induction levels generalizing depth with
  | zero =>
      refine ⟨fun waiting deeper safe => recursive_answers waiting safe fun shallow => ?_⟩
      omega
  | succ levels ih =>
      refine ⟨fun waiting deeper safe => recursive_answers waiting safe fun shallow => ih _ ?_⟩
      omega

/-! ### Whole runs -/

theorem Answers.ends {between : α → Executor → CallRuntime} {first : Lane α}
    {next : α → Lane HostResult} (begins : Answers machine programs self between (first executor))
    (goes : ∀ value later, Halts machine programs (between value later) (.of (next value later))) :
    Halts machine programs self (.of ((first >>= next) executor)) := by
  rw [Action.bind_run]
  cases outcome : first executor with
  | ok value later =>
      rw [outcome] at begins
      exact Leads.halts begins (goes value later)
  | fail error later =>
      rw [outcome] at begins
      cases error with
      | error error => exact begins
      | exhausted => exact begins.elim
  | illegal =>
      rw [outcome] at begins
      exact begins

/-- What a runtime answers is not for want of fuel. -/
theorem Answers.ne_exhausted {after : α → Executor → CallRuntime} {outcome : Outcome Executor Stop α}
    (answers : Answers machine programs self after outcome) : Verdict.of outcome ≠ .exhausted := by
  cases outcome with
  | ok value later => exact fun absurd => nomatch absurd
  | fail error later =>
      cases error with
      | error error => exact fun absurd => nomatch absurd
      | exhausted => exact answers.elim
  | illegal => exact fun absurd => nomatch absurd

/-- A runtime with one frame does what the frame and its children do. -/
theorem frame_run_ends (answers : HostAnswers machine programs depth host)
    (spawns : frame.Spawns depth) :
    Halts machine programs ⟨executor, [.frame control frame], false⟩
      (.of ((do
        let result ← frame.executeWith machine host
        lifted (finishControl machine control result)) executor)) :=
  Answers.ends (frame_answers answers spawns) fun _ _ => frame_ends

theorem native_run_ends (answers : HostAnswers machine programs depth host)
    (spawns : native.Spawns depth) :
    Halts machine programs ⟨executor, [.native scope message native], false⟩
      (.of ((do
        let done ← native.enterWith machine host
        lifted (finishActivation machine scope message done)) executor)) :=
  Answers.ends (native_answers answers spawns) fun _ _ => native_ends

end Agreement

end CallRuntime

/-! ## The lanes agree -/

/-- With enough fuel the lane is at its limit. -/
def Settles {α : Type} (lane : Nat → Verdict α) (limit : Verdict α) : Prop :=
  ∃ bound, ∀ fuel, bound ≤ fuel → lane fuel = limit

section Settles

variable {machine programs} {α β : Type} {executor : Executor} {msg : HostMessage} {frame : Frame}
  {depth : Nat} {host : HostMessage → Lane HostResult}

theorem Settles.const (limit : Verdict α) : Settles (fun _ => limit) limit := ⟨0, fun _ _ => rfl⟩

theorem Settles.bind {first : Nat → Verdict α} {limit : Verdict α}
    {next : Nat → α → Executor → Verdict β} {rest : α → Executor → Verdict β}
    (begins : Settles first limit)
    (goes : ∀ value executor, Settles (fun fuel => next fuel value executor) (rest value executor)) :
    Settles (fun fuel => (first fuel).bind (next fuel)) (limit.bind rest) := by
  obtain ⟨bound, reached⟩ := begins
  cases limit with
  | returned value executor =>
      obtain ⟨further, settled⟩ := goes value executor
      refine ⟨max bound further, fun fuel enough => ?_⟩
      dsimp only
      rw [reached fuel (le_of_max_le_left enough)]
      exact settled fuel (le_of_max_le_right enough)
  | stopped =>
      refine ⟨bound, fun fuel enough => ?_⟩
      dsimp only
      rw [reached fuel enough]
      rfl
  | exhausted =>
      refine ⟨bound, fun fuel enough => ?_⟩
      dsimp only
      rw [reached fuel enough]
      rfl

/-- A runtime driven to its end. -/
theorem Settles.drive {push : Drive Unit} {ready : CallRuntime} {verdict : Verdict HostResult}
    (pushed : push { executor } = .ok () ready)
    (halts : CallRuntime.Halts machine programs ready verdict) :
    Settles (fun fuel => .of (CallRuntime.drive machine programs (fun _ => .all) fuel push executor))
      verdict := by
  obtain ⟨rounds, same⟩ := halts
  refine ⟨rounds, fun fuel enough => ?_⟩
  obtain ⟨more, rfl⟩ := Nat.exists_eq_add_of_le' enough
  rw [← same more, CallRuntime.verdict]
  simp only [CallRuntime.drive, Action.bind_run, Action.widen, pushed]

/-- A message resolved in runtimes of its own is resolved as by recursion. -/
theorem nested_settles (safe : msg.staticChecked = true)
    (inner : msg.depth ≤ maxCallDepth → CallRuntime.HostAnswers machine programs msg.depth host) :
    Settles (fun fuel => .of (resolveHostCall machine programs fuel msg executor))
      (.of ((Children.recursive machine programs host).resolve machine msg executor)) := by
  simp only [resolveHostCall, Children.resolve_checked machine safe, Children.dispatch]
  cases msg.precheckResult with
  | some result => exact Settles.const _
  | none =>
      dsimp only
      cases msg.isCreate with
      | true =>
          simp only [if_true]
          by_cases deep : maxCallDepth < msg.depth
          · simp only [if_pos deep]
            exact Settles.const _
          · simp only [if_neg deep, Action.bind_run, lifted, Action.widen]
            have answers := inner (Nat.le_of_not_lt deep)
            cases Executor.beginCreate machine msg executor with
            | fail error later => exact Settles.const _
            | illegal => exact Settles.const _
            | ok value later =>
                cases value with
                | immediate result => exact Settles.const _
                | child scope =>
                    exact Settles.drive rfl (CallRuntime.frame_run_ends answers
                      (programs.interpret_spawns (CallRuntime.createMessage msg) msg.inputData))
      | false =>
          simp only [Bool.false_eq_true, if_false]
          by_cases deep : maxCallDepth < msg.depth
          · simp only [Action.bind_run, lifted, Action.widen, CallRuntime.beginCall_deep deep]
            exact Settles.const _
          · simp only [Action.bind_run, lifted, Action.widen]
            have answers := inner (Nat.le_of_not_lt deep)
            cases Executor.beginCall machine .all msg executor with
            | fail error later => exact Settles.const _
            | illegal => exact Settles.const _
            | ok value later =>
                cases value with
                | immediate result => exact Settles.const _
                | child scope code =>
                    exact Settles.drive rfl (CallRuntime.frame_run_ends answers
                      (programs.interpret_spawns msg code))
                | native scope =>
                    exact Settles.drive rfl (CallRuntime.native_run_ends answers
                      (programs.native_spawns msg))

/-- A frame on the stack, over hosts that settle. -/
theorem frame_settles {lane : Nat → HostMessage → Lane HostResult}
    (settles : ∀ {msg : HostMessage} {executor : Executor}, msg.depth = depth + 1 →
      msg.staticChecked = true →
        Settles (fun fuel => .of (lane fuel msg executor)) (.of (host msg executor)))
    (spawns : frame.Spawns depth) :
    Settles (fun fuel => .of (frame.executeWith machine (lane fuel) executor))
      (.of (frame.executeWith machine host executor)) := by
  induction frame generalizing executor with
  | halted result => exact Settles.const _
  | host request next ih =>
      simp only [Frame.executeWith, Verdict.of_bind]
      exact (Settles.const _).bind fun answer later => ih answer (spawns answer)
  | allocate next ih => exact ih spawns
  | call msg next ih =>
      obtain ⟨deeper, isCall, checked, spawned⟩ := spawns
      simp only [Frame.executeWith, Verdict.of_bind]
      exact (settles deeper checked).bind fun result later => ih result (spawned result)
  | create msg next ih =>
      obtain ⟨deeper, isCreate, checked, spawned⟩ := spawns
      simp only [Frame.executeWith, Verdict.of_bind]
      exact (settles deeper checked).bind fun result later => ih result (spawned result)

theorem resolve_settles (levels : Nat) (enough : maxCallDepth ≤ depth + levels)
    (deeper : msg.depth = depth + 1) (safe : msg.staticChecked = true) :
    Settles (fun fuel => .of (resolveHostCall machine programs fuel msg executor))
      (.of (resolve machine programs levels msg executor)) := by
  cases levels with
  | zero =>
      refine nested_settles safe fun shallow => ?_
      omega
  | succ levels =>
      refine nested_settles safe fun shallow => CallRuntime.resolve_answers _ _ ?_
      omega

end Settles

/-- The outcome of a root call by recursion. -/
def rootVerdict (msg : HostMessage) (code : Bytes) (executor : Executor) : Verdict HostResult :=
  .of ((do
    let result ← (programs.interpret msg code).executeWith machine
      (resolve machine programs maxCallDepth)
    lifted (finishControl machine .rootCall result)) executor)

/-- A root call run over the rows of the call runtime and the same call run on
the stack, each child through the host, end alike: with the same result and
world state, or both without a result.  Both end. -/
theorem runtime_lanes_agree (msg : HostMessage) (code : Bytes) (executor : Executor) :
    rootVerdict machine programs msg code executor ≠ .exhausted ∧
    Settles (fun fuel => .of (CallRuntime.executePreparedCallMessage machine programs (fun _ => .all)
      fuel msg code executor)) (rootVerdict machine programs msg code executor) ∧
    Settles (fun fuel => .of (executePreparedCallMessageDirect machine programs fuel msg code executor))
      (rootVerdict machine programs msg code executor) := by
  have answers : CallRuntime.HostAnswers machine programs msg.depth
      (resolve machine programs maxCallDepth) :=
    CallRuntime.resolve_answers _ _ (Nat.le_add_left _ _)
  have spawns := programs.interpret_spawns msg code
  refine ⟨?_, ?_, ?_⟩
  · have ran := CallRuntime.Answers.ne_exhausted
      (CallRuntime.frame_answers answers spawns : CallRuntime.Answers machine programs
        ⟨executor, [.frame .rootCall (programs.interpret msg code)], false⟩ _ _)
    rw [rootVerdict, Verdict.of_bind]
    cases outcome : Verdict.of ((programs.interpret msg code).executeWith machine
        (resolve machine programs maxCallDepth) executor) with
    | returned result later => exact fun absurd => nomatch absurd
    | stopped => exact fun absurd => nomatch absurd
    | exhausted => exact absurd outcome ran
  · exact Settles.drive rfl (CallRuntime.frame_run_ends answers spawns)
  · simp only [rootVerdict, executePreparedCallMessageDirect, Verdict.of_bind]
    exact (frame_settles (fun deeper safe => resolve_settles _ (Nat.le_add_left _ _) deeper safe)
      spawns).bind
      fun result later => Settles.const _

end EvmZig.Execution
