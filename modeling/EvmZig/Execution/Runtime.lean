import EvmZig.Execution.Executor

/-!
# The call runtime (`CallRuntime` in `src/executor.zig`, `src/executor/FrameStore.zig`)

A frame is what its code does as it is resumed: the host calls it makes, the
children it suspends on, and the result it halts with.  Gas makes every
segment finite.  The runtime keeps the suspended frames in rows and owns the
checkpoints of the rows; the direct lane resolves each child in a runtime of
its own while the root frame waits on the Zig stack.
-/

set_option autoImplicit false

namespace EvmZig.Execution

open Zig State

/-! ## Frames -/

/-- A bytecode frame.  A frame suspended on a call or create is resumed with
its result. -/
inductive Frame where
  | halted (result : FrameResult)
  | host (call : HostCall) (next : call.Answer → Frame)
  | allocate (next : Frame)
  | call (msg : HostMessage) (next : HostResult → Frame)
  | create (msg : HostMessage) (next : HostResult → Frame)

/-- What a native contract can ask of its context. -/
inductive NativeCall where
  | host (call : HostCall)
  | addBalance (address : Address) (value : U256)
  | subtractBalance (address : Address) (value : U256)

def NativeCall.Answer : NativeCall → Type
  | .host call => call.Answer
  | .addBalance _ _ => Unit
  | .subtractBalance _ _ => Bool

/-- What a native activation ends with. -/
structure NativeDone where
  status : Status
  outputData : Bytes
  ledger : NativeLedger
  violatedStatic : Bool

/-- A native activation.  It sees the errors of its calls and may go on. -/
inductive Native where
  | done (result : NativeDone)
  | fail (error : StateError)
  | host (call : NativeCall) (next : Except StateError call.Answer → Native)
  | call (msg : HostMessage) (next : HostResult → Native)

/-- The assertions of `resolveHostCall`: a static call kind inherits staticness, and a static message
neither creates nor transfers value. -/
def HostMessage.staticChecked (msg : HostMessage) : Bool :=
  (msg.kind ≠ .staticcall || msg.isStatic) &&
    (!msg.isStatic ||
      match msg.kind with
      | .create | .create2 => false
      | .call => msg.value = 0
      | .staticcall | .delegatecall | .callcode => true)

/-- Children are one level deeper than the frame, a create action carries a create message, and the
messages are protected as the handlers see to. -/
def Frame.Spawns (depth : Nat) : Frame → Prop
  | .halted _ => True
  | .host _ next => ∀ answer, (next answer).Spawns depth
  | .allocate next => next.Spawns depth
  | .call msg next => msg.depth = depth + 1 ∧ msg.isCreate = false ∧ msg.staticChecked = true ∧
      ∀ result, (next result).Spawns depth
  | .create msg next => msg.depth = depth + 1 ∧ msg.isCreate = true ∧ msg.staticChecked = true ∧
      ∀ result, (next result).Spawns depth

def Native.Spawns (depth : Nat) : Native → Prop
  | .done _ => True
  | .fail _ => True
  | .host _ next => ∀ answer, (next answer).Spawns depth
  | .call msg next => msg.depth = depth + 1 ∧ msg.isCreate = false ∧ msg.staticChecked = true ∧
      ∀ result, (next result).Spawns depth

/-- What code does: the interpreter on a message and its bytecode, and the native contracts. -/
structure Programs where
  interpret : HostMessage → Bytes → Frame
  native : HostMessage → Native
  interpret_spawns : ∀ msg code, (interpret msg code).Spawns msg.depth
  native_spawns : ∀ msg, (native msg).Spawns msg.depth

variable (machine : ExecutorType) (programs : Programs)

/-- `executeUntilSuspended`: the frame as it suspends or halts. -/
def Frame.execute (grants : Grants) : Frame → Nat → Engine Frame
  | .halted result, _ => pure (.halted result)
  | .host request next, index => do
      let answer ← request.run machine grants
      (next answer).execute grants index
  | .allocate next, index => do
      provide grants (.interpreter index)
      next.execute grants (index + 1)
  | .call msg next, _ => pure (.call msg next)
  | .create msg next, _ => pure (.create msg next)

def NativeCall.run (grants : Grants) : (call : NativeCall) → Engine call.Answer
  | .host call => call.run machine grants
  | .addBalance address value => Executor.onState (WorldState.addBalance machine.env address value)
  | .subtractBalance address value =>
      Executor.onState (WorldState.subtractBalance machine.env address value)

/-- Run `body` and see its error. -/
def caught {σ ε α : Type} (body : Action σ ε α) : Action σ ε (Except ε α) := fun self =>
  match body self with
  | .ok value after => .ok (.ok value) after
  | .fail error after => .ok (.error error) after
  | .illegal => .illegal

/-- `enterNative`: until the activation is done or asks for a child. -/
def Native.enter (grants : Grants) : Native → Engine Native
  | .done result => pure (.done result)
  | .fail error => Action.fail error
  | .host request next => do
      let answer ← caught (request.run machine grants)
      (next answer).enter grants
  | .call msg next => pure (.call msg next)

/-! ## Rows -/

/-- `FrameStore.Kind`. -/
inductive Control where
  | rootCall
  | call (scope : ScopeCheckpoint)
  | create (scope : ScopeCheckpoint) (address : Address)

def Control.scope : Control → Option ScopeCheckpoint
  | .rootCall => none
  | .call scope => some scope
  | .create scope _ => some scope

/-- One LIFO row: a bytecode frame or a native activation. -/
inductive Row where
  | frame (control : Control) (frame : Frame)
  | native (scope : Option ScopeCheckpoint) (message : HostMessage) (native : Native)

def Row.scope : Row → Option ScopeCheckpoint
  | .frame control _ => control.scope
  | .native scope _ _ => scope

/-- `resumeWith` on the row's suspended action; `none` where it is not suspended. -/
def Row.resumeWith (result : HostResult) : Row → Option Row
  | .frame control (.call _ next) => some (.frame control (next result))
  | .frame control (.create _ next) => some (.frame control (next result))
  | .native scope message (.call _ next) => some (.native scope message (next result))
  | _ => none

/-- The rows above the base length of a runtime, newest first. -/
structure CallRuntime where
  executor : Executor
  rows : List Row := []
  topFrameResolved : Bool := false

abbrev Drive (α : Type) : Type := Action CallRuntime StateError α

namespace CallRuntime

def onExecutor {α : Type} (body : Engine α) : Drive α := fun self =>
  match body self.executor with
  | .ok value executor => .ok value { self with executor }
  | .fail error executor => .fail error { self with executor }
  | .illegal => .illegal

def setRows (rows : List Row) : Drive Unit := Action.modify fun self => { self with rows }

def pushFrame (grants : Grants) (msg : HostMessage) (code : Bytes) (control : Control) :
    Drive Unit := do
  provide grants .framePush
  Action.modify fun self =>
    { self with rows := .frame control (programs.interpret msg code) :: self.rows }
  Action.errdefer (fun self => { self with rows := self.rows.tail })
    (provide grants .framePushCapture)

def pushRootCall (grants : Grants) (msg : HostMessage) (code : Bytes) : Drive Unit :=
  pushFrame programs grants msg code .rootCall

def pushChildCall (grants : Grants) (msg : HostMessage) (code : Bytes) (scope : ScopeCheckpoint) :
    Drive Unit :=
  pushFrame programs grants msg code (.call scope)

/-- The message of the frame that runs the initcode of a create message. -/
def createMessage (sourceMsg : HostMessage) : HostMessage where
  depth := sourceMsg.depth
  kind := .call
  gas := sourceMsg.gas
  gasReservoir := sourceMsg.gasReservoir
  recipient := sourceMsg.recipient
  sender := sourceMsg.sender
  inputData := []
  value := sourceMsg.value
  isStatic := sourceMsg.isStatic
  codeAddress := sourceMsg.recipient

def pushChildCreate (grants : Grants) (sourceMsg : HostMessage) (scope : ScopeCheckpoint) :
    Drive Unit := do
  provide grants .initcode
  pushFrame programs grants (createMessage sourceMsg) sourceMsg.inputData
    (.create scope sourceMsg.recipient)

def pushNative (grants : Grants) (msg : HostMessage) (scope : Option ScopeCheckpoint) :
    Drive Unit := do
  provide grants .nativeFrames
  provide grants .nativeScratch
  Action.modify fun self => { self with rows := .native scope msg (programs.native msg) :: self.rows }

/-- Drop the top frame after `finishFrame` resolved its checkpoint. -/
def popResolvedFrame : Drive Unit := do
  Action.assert fun self => self.topFrameResolved = true
  Action.modify fun self => { self with rows := self.rows.tail, topFrameResolved := false }

/-- `resumeWith` on the row at `index`, counted from the newest. -/
def resumeSuspended (grants : Grants) (index : Nat) (result : HostResult) : Drive Unit := do
  let self ← Action.get
  match self.rows[index]?.bind (Row.resumeWith result) with
  | none => Action.illegal
  | some resumed =>
      provide grants .resume
      setRows (self.rows.set index resumed)
      provide grants .returnCapture

/-- `null` where the child is pushed. -/
def startCall (grants : Grants) (msg : HostMessage) : Drive (Option HostResult) := do
  provide grants .beginCapture
  match msg.precheckResult with
  | some result =>
      provide grants .finishCapture
      return some result
  | none =>
      match ← onExecutor (Executor.beginCall machine grants msg) with
      | .immediate result =>
          provide grants .finishCapture
          return some result
      | .child scope code =>
          guarded (onExecutor (Executor.revertScope scope))
            (pushChildCall programs grants msg code scope)
          return none
      | .native scope =>
          guarded (onExecutor (Executor.revertScope scope)) (pushNative programs grants msg (some scope))
          return none

def startCreate (grants : Grants) (msg : HostMessage) : Drive (Option HostResult) := do
  provide grants .beginCapture
  match msg.precheckResult with
  | some result =>
      provide grants .finishCapture
      return some result
  | none =>
      if maxCallDepth < msg.depth then
        provide grants .finishCapture
        return some
          (Executor.createFailureWithCause msg.gas msg.gasReservoir .invalid .callDepthExceeded)
      else
        match ← onExecutor (Executor.beginCreate machine msg) with
        | .immediate result =>
            provide grants .finishCapture
            return some result
        | .child scope =>
            guarded (onExecutor (Executor.revertScope scope))
              (pushChildCreate programs grants msg scope)
            return none

/-- The result of a halted frame, its checkpoint resolved. -/
def finishControl (control : Control) (result : FrameResult) : Engine HostResult :=
  match control with
  | .rootCall => pure (.fromExecution result.executionResult false)
  | .call scope => do
      Executor.finishScope scope result.halt.status
      return .fromExecution result.executionResult (result.halt.status ≠ .success)
  | .create scope address => Executor.finishCreate machine scope address result

/-- The part of `finishFrame` under its guard. -/
def resolveFrame (grants : Grants) (control : Control) (result : FrameResult) : Drive HostResult := do
  provide grants .frameCapture
  provide grants .callOutput
  onExecutor (finishControl machine control result)

/-- The guard of a row's own checkpoint. -/
def guardRow {α : Type} (scope : Option ScopeCheckpoint) (body : Drive α) : Drive α :=
  match scope with
  | none => body
  | some scope => guarded (onExecutor (Executor.revertScope scope)) body

def finishFrame (grants : Grants) (control : Control) (result : FrameResult) : Drive HostResult := do
  let hostResult ← guardRow control.scope (resolveFrame machine grants control result)
  Action.modify fun self => { self with topFrameResolved := true }
  return hostResult

/-- The result of a native activation that is done, its checkpoint resolved. -/
def finishActivation (scope : Option ScopeCheckpoint) (message : HostMessage) (done : NativeDone) :
    Engine HostResult :=
  match done.ledger.finish done.status done.violatedStatic done.outputData with
  | none => Action.illegal
  | some result => do
      Action.when (result.status = .success) (Executor.touchEmptyCallRecipient machine message)
      match scope with
      | none => return { result with checkpointReverted := false }
      | some scope =>
          Executor.finishScope scope result.status
          return result

/-- The part of `finishNative` under its guard. -/
def resolveNative (grants : Grants) (scope : Option ScopeCheckpoint) (message : HostMessage)
    (done : NativeDone) : Drive HostResult := do
  provide grants .nativeOutput
  onExecutor (finishActivation machine scope message done)

/-- Pop the top activation and resolve its checkpoint. -/
def finishNative (grants : Grants) (scope : Option ScopeCheckpoint) (message : HostMessage)
    (done : NativeDone) : Drive HostResult := do
  Action.modify fun self => { self with rows := self.rows.tail }
  let result ← guardRow scope (resolveNative machine grants scope message done)
  provide grants .finishCapture
  return result

/-- Go on with the row at the top once its child has answered or been pushed. -/
def settle (grants : Grants) (started : Option HostResult) : Drive (Option HostResult) :=
  match started with
  | none => pure none
  | some result => do
      resumeSuspended grants 0 result
      return none

/-- What the runtime does with an activation that was entered. -/
def dispatchNative (grants : Grants) (scope : Option ScopeCheckpoint) (message : HostMessage)
    (below : List Row) : Native → Drive (Option HostResult)
  | .done done => do
      let result ← finishNative machine grants scope message done
      match below with
      | [] =>
          provide grants .finalOutput
          return some result
      | _ :: _ =>
          resumeSuspended grants 0 result
          return none
  | .call msg _ => startCall machine programs grants msg >>= settle grants
  | _ => Action.illegal

def stepNative (grants : Grants) (scope : Option ScopeCheckpoint) (message : HostMessage)
    (native : Native) (below : List Row) : Drive (Option HostResult) := do
  let entered ← onExecutor (native.enter machine grants)
  setRows (.native scope message entered :: below)
  dispatchNative machine programs grants scope message below entered

/-- What the runtime does with a frame that suspended or halted. -/
def dispatchFrame (grants : Grants) (control : Control) (below : List Row) :
    Frame → Drive (Option HostResult)
  | .halted result => do
      let hostResult ← finishFrame machine grants control result
      match below with
      | [] =>
          provide grants .finalOutput
          popResolvedFrame
          return some hostResult
      | _ :: _ =>
          resumeSuspended grants 1 hostResult
          popResolvedFrame
          return none
  | .call msg _ => startCall machine programs grants msg >>= settle grants
  | .create msg _ => startCreate machine programs grants msg >>= settle grants
  | _ => Action.illegal

def stepFrame (grants : Grants) (control : Control) (frame : Frame) (below : List Row) :
    Drive (Option HostResult) := do
  let ran ← onExecutor (frame.execute machine grants 0)
  setRows (.frame control ran :: below)
  dispatchFrame machine programs grants control below ran

/-- One round of the loop of `run`; the stable result where the root finished. -/
def step (grants : Grants) : Drive (Option HostResult) := do
  let rows ← Action.read rows
  match rows with
  | [] => Action.illegal
  | .native scope message native :: below =>
      stepNative machine programs grants scope message native below
  | .frame control frame :: below => stepFrame machine programs grants control frame below

/-- What a run can end with besides a result. -/
inductive Stop where
  | error (error : StateError)
  | exhausted
  deriving DecidableEq

/-- `run`, with fuel; the grants of a round are those of the fuel left. -/
def run (grants : Nat → Grants) : Nat → Action CallRuntime Stop HostResult
  | 0 => Action.fail .exhausted
  | fuel + 1 => do
      match ← Action.widen .error (step machine programs (grants fuel)) with
      | some result => return result
      | none => run grants fuel

/-- Restore every unresolved checkpoint of the rows, newest first. -/
def revertRows : List Row → Engine Unit
  | [] => pure ()
  | row :: rows => do
      match row.scope with
      | none => pure ()
      | some scope => Executor.revertScope scope
      revertRows rows

def deinit : Drive Unit := do
  let self ← Action.get
  Action.when (self.topFrameResolved = true) popResolvedFrame
  let rows ← Action.read rows
  onExecutor (revertRows rows)
  setRows []

/-- `defer runtime.deinit()` on what a run ends in. -/
def closed {ε α : Type} : Outcome CallRuntime ε α → Outcome Executor ε α
  | .ok value after =>
      match deinit after with
      | .ok _ last => .ok value last.executor
      | _ => .illegal
  | .fail error after =>
      match deinit after with
      | .ok _ last => .fail error last.executor
      | _ => .illegal
  | .illegal => .illegal

/-- What a lane with fuel computes. -/
abbrev Lane (α : Type) : Type := Action Executor Stop α

/-- The run as its caller sees it; without fuel it has not ended. -/
def ended {α : Type} : Outcome CallRuntime Stop α → Outcome Executor Stop α
  | .fail .exhausted after => .fail .exhausted after.executor
  | outcome => closed outcome

/-- A runtime of its own for what `push` pushes. -/
def drive (grants : Nat → Grants) (fuel : Nat) (push : Drive Unit) : Lane HostResult := fun executor =>
  ended ((do
    Action.widen Stop.error push
    run machine programs grants fuel : Action CallRuntime Stop HostResult) { executor })

/-- `executePreparedCallMessage`. -/
def executePreparedCallMessage (grants : Nat → Grants) (fuel : Nat) (msg : HostMessage)
    (code : Bytes) : Lane HostResult :=
  drive machine programs grants fuel (pushRootCall programs (grants fuel) msg code)

end CallRuntime

end EvmZig.Execution
