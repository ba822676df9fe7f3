import EvmZig.Execution.Recursion
import EvmZig.State.Exactness

/-!
# The children the handlers start (`src/instruction/system.zig`)

A frame builds its child messages in `callByOp` and `queueCreate`, a native
contract in `suspendOn`.  However their code goes about it, such children are one
level deeper, of the kind of their action, and protected where their parent is.
-/

set_option autoImplicit false

namespace EvmZig.Execution

open Zig State

/-- The opcodes of `callByOp`, and `ChildRequest.Kind`. -/
inductive CallOp where
  | call
  | callcode
  | delegatecall
  | staticcall
  deriving DecidableEq

/-- `CallKind.fromOpcode`. -/
def CallOp.kind : CallOp → CallKind
  | .call => .call
  | .callcode => .callcode
  | .delegatecall => .delegatecall
  | .staticcall => .staticcall

/-- A static caller cannot move value. -/
def CallOp.violatesStatic (op : CallOp) (msg : HostMessage) (value : U256) : Prop :=
  msg.isStatic = true ∧ op = .call ∧ 0 < value

instance (op : CallOp) (msg : HostMessage) (value : U256) : Decidable (op.violatesStatic msg value) :=
  inferInstanceAs (Decidable (_ ∧ _ ∧ _))

/-- What `callByOp` takes off the stack and out of memory, and the gas it forwards. -/
structure CallOperands where
  address : Address
  value : U256
  inputData : Bytes
  gas : Int
  gasReservoir : Int

/-- The message of `callByOp` in a frame of `msg`. -/
def callMessage (msg : HostMessage) (op : CallOp) (operands : CallOperands) : HostMessage where
  depth := msg.depth + 1
  kind := op.kind
  gas := operands.gas
  gasReservoir := operands.gasReservoir
  recipient :=
    if op = .call ∨ op = .staticcall then operands.address else msg.recipient
  sender := if op = .delegatecall then msg.sender else msg.recipient
  inputData := operands.inputData
  value := if op = .delegatecall then msg.value else operands.value
  isStatic := msg.isStatic || op = .staticcall
  codeAddress := operands.address
  precheckFailure := if maxCallDepth ≤ msg.depth then some .callDepthExceeded else none

/-- The parameters of `queueCreate`, and the gas it forwards. -/
structure CreateOperands where
  isCreate2 : Bool
  target : Address
  value : U256
  initCode : Bytes
  gas : Int
  gasReservoir : Int
  precheckFailure : Option TerminalCause := none

/-- The message of `queueCreate` in a frame of `msg`; what it leaves out has the defaults of
`Host.Message`. -/
def queuedMessage (msg : HostMessage) (operands : CreateOperands) : HostMessage where
  depth := msg.depth + 1
  kind := if operands.isCreate2 then .create2 else .create
  gas := operands.gas
  gasReservoir := operands.gasReservoir
  recipient := operands.target
  sender := msg.recipient
  inputData := operands.initCode
  value := operands.value
  codeAddress := ⟨List.replicate 20 1, length_ones⟩
  precheckFailure := operands.precheckFailure

/-- `native_contract.ChildRequest`, with the gas it is given. -/
structure ChildRequest where
  kind : CallOp
  recipient : Address
  codeAddress : Address
  sender : Address
  value : U256
  inputData : Bytes
  gas : Int
  gasReservoir : Int

/-- The message of `suspendOn` in an activation of `msg`. -/
def requestMessage (msg : HostMessage) (request : ChildRequest) : HostMessage where
  depth := msg.depth + 1
  kind := request.kind.kind
  gas := request.gas
  gasReservoir := request.gasReservoir
  recipient := request.recipient
  sender := request.sender
  inputData := request.inputData
  value := request.value
  isStatic := msg.isStatic || request.kind = .staticcall
  codeAddress := request.codeAddress

/-- A frame of `msg` whose calls and creates are built by the handlers, past their checks. -/
inductive Handled (msg : HostMessage) where
  | halted (result : FrameResult)
  | host (call : HostCall) (next : call.Answer → Handled msg)
  | allocate (next : Handled msg)
  | call (op : CallOp) (operands : CallOperands) (allowed : ¬op.violatesStatic msg operands.value)
      (next : HostResult → Handled msg)
  | create (operands : CreateOperands) (allowed : msg.isStatic = false)
      (next : HostResult → Handled msg)

/-- A native activation of `msg` whose children are built by `suspendOn`. -/
inductive HandledNative (msg : HostMessage) where
  | done (result : NativeDone)
  | fail (error : StateError)
  | host (call : NativeCall) (next : Except StateError call.Answer → HandledNative msg)
  | call (request : ChildRequest) (allowed : ¬request.kind.violatesStatic msg request.value)
      (next : HostResult → HandledNative msg)

variable {msg : HostMessage}

def Handled.frame : Handled msg → Frame
  | .halted result => .halted result
  | .host request next => .host request fun answer => (next answer).frame
  | .allocate next => .allocate next.frame
  | .call op operands _ next => .call (callMessage msg op operands) fun result => (next result).frame
  | .create operands _ next => .create (queuedMessage msg operands) fun result => (next result).frame

def HandledNative.native : HandledNative msg → Native
  | .done result => .done result
  | .fail error => .fail error
  | .host request next => .host request fun answer => (next answer).native
  | .call request _ next => .call (requestMessage msg request) fun result => (next result).native

/-- A call of the kind and staticness the handlers give it passes the assertions. -/
theorem staticChecked_of_allowed {op : CallOp} {child : HostMessage} (kind : child.kind = op.kind)
    (isStatic : child.isStatic = (msg.isStatic || op = .staticcall))
    (value : op = .call → ¬op.violatesStatic msg child.value) : child.staticChecked = true := by
  unfold HostMessage.staticChecked
  rw [kind, isStatic]
  cases op with
  | call =>
      have free := value rfl
      cases inherited : msg.isStatic with
      | false => rfl
      | true =>
          have zero : child.value = 0 := by
            by_contra moved
            exact free ⟨inherited, rfl, Fin.pos_of_ne_zero moved⟩
          simp [CallOp.kind, zero]
  | callcode => cases msg.isStatic <;> rfl
  | delegatecall => cases msg.isStatic <;> rfl
  | staticcall => cases msg.isStatic <;> rfl

theorem CallOp.isCall {op : CallOp} {child : HostMessage} (kind : child.kind = op.kind) :
    child.isCreate = false := by
  unfold HostMessage.isCreate
  rw [kind]
  cases op <;> rfl

theorem Handled.spawns (handled : Handled msg) : handled.frame.Spawns msg.depth := by
  induction handled with
  | halted result => trivial
  | host request next ih => exact fun answer => ih answer
  | allocate next ih => exact ih
  | call op operands allowed next ih =>
      refine ⟨rfl, CallOp.isCall rfl, staticChecked_of_allowed rfl rfl fun isCall => ?_, ih⟩
      subst isCall
      exact allowed
  | create operands allowed next ih =>
      cases operands with
      | mk isCreate2 target value initCode gas gasReservoir precheckFailure =>
          cases isCreate2 <;> exact ⟨rfl, rfl, rfl, ih⟩

theorem HandledNative.spawns (handled : HandledNative msg) : handled.native.Spawns msg.depth := by
  induction handled with
  | done result => trivial
  | fail error => trivial
  | host request next ih => exact fun answer => ih answer
  | call request allowed next ih =>
      exact ⟨rfl, CallOp.isCall rfl, staticChecked_of_allowed rfl rfl fun _ => allowed, ih⟩

/-- Interpreters and native contracts that start children through the handlers only. -/
def Programs.handled (interpret : (msg : HostMessage) → Bytes → Handled msg)
    (native : (msg : HostMessage) → HandledNative msg) : Programs where
  interpret msg code := (interpret msg code).frame
  native msg := (native msg).native
  interpret_spawns msg code := (interpret msg code).spawns
  native_spawns msg := (native msg).spawns

/-! ## Both lanes on a tree of children -/

/-- Few opcodes, each with a byte of operand: CREATE of the input data, CALL and STATICCALL with half
of the gas, and a RETURN of the code that follows it. -/
def sampleFrame (msg : HostMessage) (gas : Int) : Bytes → Handled msg
  | opcode :: last :: code =>
      let address := Config.addressOf last
      let next (result : HostResult) := sampleFrame msg (gas - gas / 2 + result.gas.gasLeft) code
      let op := if opcode = 0xf1 then CallOp.call else .staticcall
      if opcode = 0xf3 then .halted ⟨.success, ⟨gas, 0, 0, 0, 0⟩, last :: code⟩
      else if opcode = 0xf0 then
        if isStatic : msg.isStatic = false then
          .create ⟨false, address, 0, msg.inputData, gas / 2, 0, none⟩ isStatic next
        else .halted ⟨.writeProtection, ⟨0, 0, 0, 0, 0⟩, []⟩
      else .call op ⟨address, 0, [], gas / 2, 0⟩ (fun violates => lt_irrefl _ violates.2.2) next
  | _ => .halted ⟨.success, ⟨gas, 0, 0, 0, 0⟩, []⟩

def samplePrograms : Programs :=
  .handled (fun msg code => sampleFrame msg msg.gas code) fun msg =>
    .done ⟨.success, [], NativeLedger.init msg.ledger, false⟩

def sampleGenesis : Genesis where
  env := { Config.bare.env with keccak256 :=
    fun bytes => if bytes = [] then keccak256Empty else ⟨List.replicate 32 7, rfl⟩ }
  parentCode := []
  owned := trivial

def sampleMachine : ExecutorType where
  env := sampleGenesis.env
  spec := {
    precompile := fun _ => none
    nativeContract := fun _ => false
    valueTransferLog := fun _ _ _ => none
    touchesEmptyRecipient := false
    warmsCreatedAddress := true
    initialNonce := 1
    create := {
      codeSizeLimit := none
      rejectsCode := fun _ => false
      depositRegularGas := fun size => some (200 * size)
      depositStateGas := fun _ => some 0
      depositRegularGasOogCommits := false }
    selfDestruct := .cancun
    touchesBeneficiaryOnZeroTransfer := false }

def sampleMessage : HostMessage where
  depth := 0
  kind := .call
  gas := 10000
  recipient := Config.addressOf 1
  sender := Config.addressOf 2
  inputData := [0xf3, 0xfa, 7]
  value := 0
  codeAddress := Config.addressOf 1

/-- A contract is created and called, and makes a static call: both lanes return the same. -/
theorem runtime_lanes_agree_sample : ∃ (start : Config) (result : HostResult) (last : Executor),
    let code : Bytes := [0xf0, 9, 0xf1, 9]
    result.isSuccess = true ∧ result.gas.gasLeft = 9600 ∧ last.state.code.introducedLen = 1 ∧
    Settles (fun fuel => .of (CallRuntime.executePreparedCallMessage sampleMachine samplePrograms
      (fun _ => .all) fuel sampleMessage code ⟨start.state, 0⟩)) (.returned result last) ∧
    Settles (fun fuel => .of (executePreparedCallMessageDirect sampleMachine samplePrograms fuel
      sampleMessage code ⟨start.state, 0⟩)) (.returned result last) := by
  have values : (((Config.init sampleGenesis).exec sampleGenesis.env [.beginAttempt false,
      .openSession]).bind
      fun start =>
        match rootVerdict sampleMachine samplePrograms sampleMessage [0xf0, 9, 0xf1, 9]
          ⟨start.state, 0⟩ with
        | .returned result last =>
            some (result.isSuccess, result.gas.gasLeft, last.state.code.introducedLen)
        | _ => none) = some (true, 9600, 1) := by decide +kernel
  obtain ⟨start, -, values⟩ := Option.bind_eq_some_iff.mp values
  obtain ⟨-, runtime, direct⟩ := runtime_lanes_agree sampleMachine samplePrograms sampleMessage
    [0xf0, 9, 0xf1, 9] ⟨start.state, 0⟩
  cases ended : rootVerdict sampleMachine samplePrograms sampleMessage [0xf0, 9, 0xf1, 9]
      ⟨start.state, 0⟩ with
  | stopped =>
      rw [ended] at values
      cases values
  | exhausted =>
      rw [ended] at values
      cases values
  | returned result last =>
      rw [ended] at values runtime direct
      simp only [Option.some.injEq, Prod.mk.injEq] at values
      exact ⟨start, result, last, values.1, values.2.1, values.2.2, runtime, direct⟩

end EvmZig.Execution
