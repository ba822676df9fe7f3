import EvmZig.Execution.Activations
import EvmZig.State.Readable
import EvmZig.State.Values
import EvmZig.Zig.BigEndian

/-!
# The executor behind a frame (`src/executor.zig`, `src/executor/host.zig`, `src/Host.zig`)

What an opcode can do to the world outside its frame, and what the executor
does on the world state when a call or a create message starts and ends.
Allocations and captures that are not made by the world state can fail too:
each has a `Site`, and `Grants` says which of them succeed.
-/

set_option autoImplicit false

namespace EvmZig.Execution

open Zig State
open WorldState (balanceOf)

/-! ## Messages -/

/-- `Host.max_call_depth`. -/
def maxCallDepth : Nat := 1024

inductive CallKind where
  | call
  | staticcall
  | delegatecall
  | callcode
  | create
  | create2
  deriving DecidableEq

/-- `Host.Message`. -/
structure HostMessage where
  depth : Nat
  kind : CallKind
  gas : Int
  gasReservoir : Int := 0
  recipient : Address
  sender : Address
  inputData : Bytes
  value : U256
  isStatic : Bool := false
  codeAddress : Address
  precheckFailure : Option TerminalCause := none
  deriving DecidableEq

namespace HostMessage

def isCreate (msg : HostMessage) : Bool := msg.kind = .create || msg.kind = .create2

/-- What the message brings along for the gas ledger. -/
def ledger (msg : HostMessage) : Message := ⟨msg.gas, msg.gasReservoir⟩

/-- A result that gives the message's gas back. -/
def unstarted (msg : HostMessage) (cause : TerminalCause) : HostResult :=
  answer msg.ledger ⟨.invalid, cause⟩ msg.gas false []

/-- `Host.precheckResult`. -/
def precheckResult (msg : HostMessage) : Option HostResult := msg.precheckFailure.map msg.unstarted

end HostMessage

/-! ## Specification -/

/-- `execution.ValueTransferLog`. -/
structure ValueTransferLog where
  address : Address
  topic : U256

/-- The three `SelfDestructSpec.policy` functions of `src/eth/spec.zig`. -/
inductive SelfDestructRule where
  | legacy
  | cancun
  | amsterdam
  deriving DecidableEq

def SelfDestructRule.policy (rule : SelfDestructRule) (sameAddress createdInTransaction : Bool) :
    SelfDestructPolicy :=
  match rule with
  | .legacy => { clearBalance := true, markSelfdestructed := true }
  | .cancun => { clearBalance := !sameAddress || createdInTransaction, markSelfdestructed := true }
  | .amsterdam =>
      { clearBalance := !sameAddress
        markSelfdestructed := !sameAddress || createdInTransaction }

inductive PrecompileStatus where
  | success
  | failure
  | outOfGas
  deriving DecidableEq

def PrecompileStatus.outcome (status : PrecompileStatus) : ExecutionOutcome :=
  match status with
  | .success => ⟨.success, .none⟩
  | .failure => ⟨.invalid, .invalid⟩
  | .outOfGas => ⟨.outOfGas, .outOfGas⟩

inductive PrecompileOutcome where
  | notImplemented
  | failed (error : StateError)
  | ran (status : PrecompileStatus) (outputData : Bytes) (gasLeft : Int)

/-- A precompile as a function of its input and gas. -/
abbrev Precompile : Type := Bytes → Int → PrecompileOutcome

/-- What the executor reads of the engine's specification. -/
structure ExecutorSpec where
  /-- `precompile.resolve`; active where it resolves. -/
  precompile : Address → Option Precompile
  /-- `native_contract.active`. -/
  nativeContract : Address → Bool
  /-- Of sender, recipient and amount. -/
  valueTransferLog : Address → Address → U256 → Option ValueTransferLog
  touchesEmptyRecipient : Bool
  warmsCreatedAddress : Bool
  initialNonce : U64
  create : CreateSpec
  selfDestruct : SelfDestructRule
  touchesBeneficiaryOnZeroTransfer : Bool

def ExecutorSpec.nativeTargetActive (spec : ExecutorSpec) (address : Address) : Bool :=
  (spec.precompile address).isSome || spec.nativeContract address

/-- `ExecutorType(specification, World, options)` with the block hashes it is given. -/
structure ExecutorType where
  env : State.Env
  spec : ExecutorSpec
  blockHashSource : Option (U64 → Except StateError (Option U256)) := none

/-! ## Allocations outside the world state -/

/-- Where an allocation or a capture can fail. -/
inductive Site where
  | beginCapture
  | finishCapture
  | preparedCode
  | callScratch
  | nativeOutput
  | framePush
  | framePushCapture
  | initcode
  | nativeFrames
  | nativeScratch
  | frameCapture
  | callOutput
  | resume
  | returnCapture
  | finalOutput
  /-- The interpreter's own allocations, numbered within one segment. -/
  | interpreter (index : Nat)
  deriving DecidableEq

abbrev Grants : Type := Site → Bool

/-- Every allocation and capture succeeds. -/
def Grants.all : Grants := fun _ => true

/-- One allocation or capture; nothing is changed where it fails. -/
def provide {σ : Type} (grants : Grants) (site : Site) : Action σ StateError Unit :=
  if grants site then pure () else Action.fail .outOfMemory

theorem provide_all {σ : Type} (site : Site) :
    (provide Grants.all site : Action σ StateError Unit) = pure () := rfl

/-! ## The executor -/

structure Executor where
  state : WorldState
  /-- A history variable: what SELFDESTRUCT to oneself has cleared in the scopes
  that are not reverted.  No definition reads it. -/
  cleared : Nat := 0

abbrev Engine (α : Type) : Type := Action Executor StateError α

/-- `Executor.ScopeCheckpoint`, with the history variable at its opening. -/
structure ScopeCheckpoint where
  held : Checkpoint
  cleared : Nat

/-- `defer guard.deinit()` of a checkpoint that `body` resolves or hands on
before it returns: it is open where `body` fails, and reverted there. -/
def guarded {σ ε α : Type} (revert : Action σ ε Unit) (body : Action σ ε α) : Action σ ε α :=
  fun self =>
    match body self with
    | .ok value after => .ok value after
    | .fail error after =>
        match revert after with
        | .ok _ reverted => .fail error reverted
        | .fail _ _ => .illegal
        | .illegal => .illegal
    | .illegal => .illegal

namespace Executor

/-- A call on the world state. -/
def onState {α : Type} (body : State.Method α) : Engine α := fun self =>
  match body self.state with
  | .ok value state => .ok value { self with state }
  | .fail error state => .fail error { self with state }
  | .illegal => .illegal

def openScope : Engine ScopeCheckpoint := do
  let cleared ← Action.read cleared
  let held ← onState WorldState.checkpoint
  return ⟨held, cleared⟩

def commitScope (scope : ScopeCheckpoint) : Engine Unit :=
  onState (WorldState.commitCheckpoint scope.held)

def revertScope (scope : ScopeCheckpoint) : Engine Unit := do
  onState (WorldState.revertToCheckpoint scope.held)
  Action.modify fun self => { self with cleared := scope.cleared }

/-- `Guard.finish`. -/
def finishScope (scope : ScopeCheckpoint) (status : Status) : Engine Unit :=
  if status = .success then commitScope scope else revertScope scope

variable (machine : ExecutorType)

/-! ### Value -/

/-- `Address.toU256`. -/
def addressWord (address : Address) : U256 :=
  ⟨beValue address.val, by
    have below := beValue_lt address.val
    rw [address.property] at below
    exact below.trans (by decide)⟩

def emitTransferLog (sender recipient : Address) (amount : U256) : Engine Unit :=
  match machine.spec.valueTransferLog sender recipient amount with
  | none => pure ()
  | some transferLog => onState (WorldState.emitLog machine.env {
      address := transferLog.address
      topics := [transferLog.topic, addressWord sender, addressWord recipient]
      data := beBytes 32 amount.val })

/-- False where the sender's balance is short. -/
def transferValue (sender recipient : Address) (value : U256) : Engine Bool := do
  if value = 0 then return true
  else
    match ← onState (WorldState.subtractBalance machine.env sender value) with
    | false => return false
    | true =>
        onState (WorldState.addBalance machine.env recipient value)
        emitTransferLog machine sender recipient value
        return true

def hasBalance (address : Address) (value : U256) : Engine Bool := do
  match ← onState (WorldState.getAccount machine.env address) with
  | none => return value = 0
  | some account => return value ≤ account.balance

/-! ### Code -/

structure ResolvedCode where
  address : Address
  delegated : Bool
  originalView : CodeView

/-- `eip7702.delegationTarget`. -/
def delegationTarget (code : Bytes) : Option Address :=
  if sized : code.length = 23 then
    if code.take 3 = [0xef, 0x01, 0x00] then
      some ⟨code.drop 3, by rw [List.length_drop, sized]⟩
    else none
  else none

def resolveCode (address : Address) : Engine ResolvedCode := do
  let original ← onState (WorldState.getCodeView machine.env address)
  match delegationTarget original.bytes with
  | some target => return { address := target, delegated := true, originalView := original }
  | none => return { address, delegated := false, originalView := original }

def resolvedCodeView (resolved : ResolvedCode) : Engine CodeView :=
  if resolved.delegated then onState (WorldState.getCodeView machine.env resolved.address)
  else pure resolved.originalView

/-! ### Calls -/

inductive StartedCall where
  | immediate (result : HostResult)
  | child (scope : ScopeCheckpoint) (code : Bytes)
  | native (scope : ScopeCheckpoint)

def touchEmptyCallRecipient (msg : HostMessage) : Engine Unit :=
  if msg.kind ≠ .call ∨ machine.spec.touchesEmptyRecipient = false then pure ()
  else onState (WorldState.touchAccount machine.env msg.recipient)

def runPrecompile (grants : Grants) (msg : HostMessage) (entry : Precompile) : Engine HostResult := do
  provide grants .callScratch
  match entry msg.inputData msg.gas with
  | .notImplemented => return answer msg.ledger ⟨.invalid, .invalid⟩ 0 false []
  | .failed error => Action.fail error
  | .ran status outputData gasLeft =>
      provide grants .nativeOutput
      return answer msg.ledger status.outcome (if status = .success then gasLeft else 0) false outputData

/-- The value a call moves, or only asks for; false where the balance is short. -/
def callValue (msg : HostMessage) : Engine Bool :=
  if 0 < msg.value ∧ msg.kind = .call then transferValue machine msg.sender msg.recipient msg.value
  else if 0 < msg.value ∧ msg.kind = .callcode then hasBalance machine msg.recipient msg.value
  else pure true

def beginPrecompile (grants : Grants) (msg : HostMessage) (scope : ScopeCheckpoint)
    (entry : Precompile) : Engine StartedCall := do
  let result ← runPrecompile grants msg entry
  Action.when (result.status = .success) (touchEmptyCallRecipient machine msg)
  finishScope scope result.status
  return .immediate { result with checkpointReverted := result.status ≠ .success }

/-- The part of `beginCall` after the value is settled. -/
def enterCall (grants : Grants) (msg : HostMessage) (delegated : Bool) (code : Bytes)
    (scope : ScopeCheckpoint) : Engine StartedCall :=
  if delegated = false ∧ machine.spec.nativeTargetActive msg.codeAddress = true then
    if machine.spec.nativeContract msg.codeAddress then do
      Action.assert fun _ => (machine.spec.precompile msg.codeAddress).isNone = true
      return .native scope
    else
      match machine.spec.precompile msg.codeAddress with
      | none => Action.illegal
      | some entry => beginPrecompile machine grants msg scope entry
  else if code = [] then do
    touchEmptyCallRecipient machine msg
    commitScope scope
    return .immediate (answer msg.ledger ⟨.success, .none⟩ msg.gas false [])
  else do
    provide grants .preparedCode
    return .child scope code

/-- The part of `beginCall` under its guard. -/
def callScoped (grants : Grants) (msg : HostMessage) (delegated : Bool) (code : Bytes)
    (scope : ScopeCheckpoint) : Engine StartedCall := do
  match ← callValue machine msg with
  | false =>
      revertScope scope
      return .immediate (msg.unstarted .insufficientBalance)
  | true => enterCall machine grants msg delegated code scope

def beginCall (grants : Grants) (msg : HostMessage) : Engine StartedCall := do
  if maxCallDepth < msg.depth then return .immediate (msg.unstarted .callDepthExceeded)
  else
    let resolved ← resolveCode machine msg.codeAddress
    Action.when (resolved.delegated = true)
      (onState (WorldState.observeAccountAccess machine.env resolved.address))
    let code ← resolvedCodeView machine resolved
    let scope ← openScope
    guarded (revertScope scope) (callScoped machine grants msg resolved.delegated code.bytes scope)

/-! ### Creates -/

inductive StartedCreate where
  | immediate (result : HostResult)
  | child (scope : ScopeCheckpoint)

inductive CreateCallerPreparation where
  | rejected (result : HostResult)
  | nonce (nonce : U64)

def createFailureWithCause (gasLeft gasReservoir : Int) (status : Status) (cause : TerminalCause) :
    HostResult :=
  answer ⟨gasLeft, gasReservoir⟩ ⟨status, cause⟩ gasLeft false []

def prepareCreateCaller (msg : HostMessage) : Engine CreateCallerPreparation := do
  let caller := (← onState (WorldState.getAccount machine.env msg.sender)).getD {}
  if caller.balance < msg.value then
    return .rejected (createFailureWithCause msg.gas msg.gasReservoir .invalid .insufficientBalance)
  else return .nonce caller.nonce

def warmCreatedAddressIfNeeded (address : Address) : Engine Unit :=
  Action.when (machine.spec.warmsCreatedAddress = true)
    (onState (WorldState.warmAccount machine.env address))

def createCollision (address : Address) : Engine Bool := do
  if machine.spec.nativeTargetActive address then return true
  else
    match ← onState (WorldState.getAccount machine.env address) with
    | some account =>
        if account.nonce ≠ 0 then return true
        else onState (WorldState.accountHasCode machine.env address)
    | none => onState (WorldState.accountHasCode machine.env address)

/-- The part of `beginPreparedCreate` under its guard. -/
def createScoped (msg : HostMessage) (scope : ScopeCheckpoint) : Engine StartedCreate := do
  match ← createCollision machine msg.recipient with
  | true =>
      commitScope scope
      return .immediate
        (createFailureWithCause 0 msg.gasReservoir .invalid .contractAddressCollision)
  | false =>
      -- the result of the debit is ignored; `prepareCreateCaller` has checked the balance
      let _ ← onState (WorldState.subtractBalance machine.env msg.sender msg.value)
      onState (WorldState.addBalance machine.env msg.recipient msg.value)
      emitTransferLog machine msg.sender msg.recipient msg.value
      onState (WorldState.initializeContract machine.env msg.recipient machine.spec.initialNonce)
      return .child scope

def beginPreparedCreate (msg : HostMessage) : Engine StartedCreate := do
  let scope ← openScope
  guarded (revertScope scope) (createScoped machine msg scope)

def beginCreate (msg : HostMessage) : Engine StartedCreate := do
  match ← prepareCreateCaller machine msg with
  | .rejected result => return .immediate result
  | .nonce callerNonce =>
      if fits : callerNonce.val + 1 < 2 ^ 64 then
        warmCreatedAddressIfNeeded machine msg.recipient
        onState (WorldState.setNonce machine.env msg.sender ⟨callerNonce.val + 1, fits⟩)
        beginPreparedCreate machine msg
      else
        return .immediate
          (createFailureWithCause msg.gas msg.gasReservoir .invalid .nonceOverflow)

/-- `finishCreate` with its effects: the result decides them, and code is set
on the path that neither reverts nor leaves the deposit unpaid. -/
def finishCreate (scope : ScopeCheckpoint) (address : Address) (frameResult : FrameResult) :
    Engine HostResult :=
  match Execution.finishCreate machine.spec.create frameResult with
  | none => Action.illegal
  | some result =>
      if result.checkpointReverted then do
        revertScope scope
        return result
      else if result.outcome.cause = .codeStoreOutOfGas then do
        commitScope scope
        return result
      else do
        onState (WorldState.setCode machine.env address frameResult.outputData)
        commitScope scope
        return result

end Executor

/-! ## Host callbacks -/

/-- The callbacks of the host but `call`. -/
inductive HostCall where
  | accountExists (address : Address)
  | getBalance (address : Address)
  | getNonce (address : Address)
  | getCode (address : Address)
  | getCodeHash (address : Address)
  | getStorage (address : Address) (key : U256)
  | setStorage (address : Address) (key value : U256)
  | loadStorage (address : Address) (key : U256)
  | storeStorage (address : Address) (key value : U256)
  | emitLog (log : HostLog)
  | getBlockHash (number : U256)
  | selfDestruct (address beneficiary : Address)
  | accessStorage (address : Address) (key : U256)
  | accessDelegatedAccount (address : Address)
  | accessAccount (address : Address)
  | observeAccountAccess (address : Address)
  | getTransientStorage (address : Address) (key : U256)
  | setTransientStorage (address : Address) (key value : U256)

def HostCall.Answer : HostCall → Type
  | .accountExists _ => Bool
  | .getBalance _ => U256
  | .getNonce _ => U64
  | .getCode _ => Bytes
  | .getCodeHash _ => Option CodeHash
  | .getStorage _ _ => U256
  | .setStorage _ _ _ => StorageStatus
  | .loadStorage _ _ => U256 × AccessStatus
  | .storeStorage _ _ _ => StorageStatus × AccessStatus
  | .emitLog _ => Unit
  | .getBlockHash _ => U256
  | .selfDestruct _ _ => Bool
  | .accessStorage _ _ => AccessStatus
  | .accessDelegatedAccount _ => Option AccessStatus
  | .accessAccount _ => AccessStatus
  | .observeAccountAccess _ => Unit
  | .getTransientStorage _ _ => U256
  | .setTransientStorage _ _ _ => Unit

namespace Executor

variable (machine : ExecutorType)

def getBlockHash (number : U256) : Engine U256 :=
  match machine.blockHashSource with
  | none => pure 0
  | some source =>
      if fits : number.val < 2 ^ 64 then
        match source ⟨number.val, fits⟩ with
        | .ok hash => pure (hash.getD 0)
        | .error error => Action.fail error
      else pure 0

/-- The status of a priced access; a cold account becomes warm. -/
def warmTarget (address : Address) : Engine AccessStatus := do
  if machine.spec.nativeTargetActive address then return .warm
  else
    let self ← Action.get
    if self.state.isAccountWarm machine.env address then return .warm
    else
      onState (WorldState.warmAccount machine.env address)
      return .cold

def accessDelegatedAccount (address : Address) : Engine (Option AccessStatus) := do
  let code ← onState (WorldState.getCodeView machine.env address)
  match delegationTarget code.bytes with
  | none => return none
  | some target => some <$> warmTarget machine target

/-- What a self-destruct clears without moving it anywhere. -/
def clearedBySelfDestruct (self : Executor) (address beneficiary : Address)
    (policy : SelfDestructPolicy) : Nat :=
  if address = beneficiary ∧ policy.clearBalance = true then
    (balanceOf (self.state.accountValue machine.env address)).val
  else 0

def selfDestruct (grants : Grants) (address beneficiary : Address) : Engine Bool := do
  provide grants .beginCapture
  let self ← Action.get
  let policy := machine.spec.selfDestruct.policy (address = beneficiary)
    (self.state.createdInTransaction address)
  let effect ← onState (WorldState.applySelfDestruct machine.env address beneficiary policy
    machine.spec.touchesBeneficiaryOnZeroTransfer)
  Action.modify fun after => { after with
    cleared := after.cleared + self.clearedBySelfDestruct machine address beneficiary policy }
  Action.when (effect.transferredValue ≠ 0)
    (emitTransferLog machine address beneficiary effect.transferredValue)
  provide grants .finishCapture
  return !effect.previouslyMarked

end Executor

open Executor in
/-- `Callbacks`. -/
def HostCall.run (machine : ExecutorType) (grants : Grants) : (call : HostCall) → Engine call.Answer
  | .accountExists address => onState (WorldState.accountExists machine.env address)
  | .getBalance address => onState (WorldState.getBalance machine.env address)
  | .getNonce address => onState (WorldState.getNonce machine.env address)
  | .getCode address => CodeView.bytes <$> onState (WorldState.getCodeView machine.env address)
  | .getCodeHash address => onState (WorldState.getCodeHash machine.env address)
  | .getStorage address key => onState (WorldState.getStorage machine.env address key)
  | .setStorage address key value => onState (WorldState.setStorage machine.env address key value)
  | .loadStorage address key => onState (WorldState.loadStorage machine.env address key)
  | .storeStorage address key value => onState (WorldState.storeStorage machine.env address key value)
  | .emitLog log => onState (WorldState.emitLog machine.env log)
  | .getBlockHash number => Executor.getBlockHash machine number
  | .selfDestruct address beneficiary => Executor.selfDestruct machine grants address beneficiary
  | .accessStorage address key => onState (WorldState.accessStorage machine.env address key)
  | .accessDelegatedAccount address => Executor.accessDelegatedAccount machine address
  | .accessAccount address => warmTarget machine address
  | .observeAccountAccess address => onState (WorldState.observeAccountAccess machine.env address)
  | .getTransientStorage address key => onState (WorldState.getTransientStorage address key)
  | .setTransientStorage address key value =>
      onState (WorldState.setTransientStorage machine.env address key value)

end EvmZig.Execution
