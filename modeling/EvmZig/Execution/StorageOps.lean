import EvmZig.Execution.StorageGas
import EvmZig.Execution.Activations
import EvmZig.State.SlotHistory

/-!
# SLOAD and SSTORE (`src/instruction/storage.zig`)

The handlers work on a frame and on the world state behind its host.  Where the
gas left covers the dearest access, one host call accesses the slot and reads or
writes it; elsewhere the access is paid for first.
-/

set_option autoImplicit false

namespace EvmZig.Execution

open Zig
open State (Env Method StateError StorageStatus AccessStatus WorldState)
open State.WorldState

/-- A frame at a storage instruction, and the state its host calls work on. -/
structure StorageSite where
  frame : CallFrame
  state : WorldState

abbrev StorageStep : Type → Type := Action StorageSite StateError

namespace StorageOps

variable {α : Type}

def onFrame (body : Action CallFrame Empty α) : StorageStep α := fun self =>
  match body self.frame with
  | .ok value frame => .ok value { self with frame }
  | .fail error _ => nomatch error
  | .illegal => .illegal

def onHost (body : Method α) : StorageStep α := fun self =>
  match body self.state with
  | .ok value state => .ok value { self with state }
  | .fail error state => .fail error { self with state }
  | .illegal => .illegal

def trackGas (amount : Int) : StorageStep Bool := onFrame (CallFrame.trackGas amount)

section Handlers

variable (env : Env) (spec : StorageSpec) (recipient : Address)

/-! ## SLOAD -/

/-- The charge of an SLOAD for a cold slot. -/
def trackColdLoad (cold : Int) (status : AccessStatus) : StorageStep Bool :=
  if status = .cold then trackGas cold else pure true

def sloadFused (cold : Int) (key : U256) : StorageStep (Option U256) := do
  let result ← onHost (loadStorage env recipient key)
  let paid ← trackColdLoad cold result.2
  return if paid then some result.1 else none

def sloadSplit (cold : Int) (key : U256) : StorageStep (Option U256) := do
  let status ← onHost (accessStorage env recipient key)
  let paid ← trackColdLoad cold status
  if paid then some <$> onHost (getStorage env recipient key) else return none

def sloadAfterPop (key : U256) : StorageStep (Option U256) :=
  match spec.sloadColdAccessGas with
  | some cold => do
      let site ← Action.get
      if site.frame.gas.gasLeft ≥ cold then sloadFused env recipient cold key
      else sloadSplit env recipient cold key
  | none => some <$> onHost (getStorage env recipient key)

/-! ## SSTORE -/

/-- `spec.storage.sstoreAccessGas(access_status) orelse 0`. -/
def accessGas (status : AccessStatus) : Int := (spec.sstoreAccessGas status).getD 0

def sstoreFused (key value : U256) : StorageStep (Option StorageStatus) := do
  let result ← onHost (storeStorage env recipient key value)
  let paid ← trackGas (accessGas spec result.2)
  return if paid then some result.1 else none

def sstoreSplit (key value : U256) : StorageStep (Option StorageStatus) := do
  let status ← onHost (accessStorage env recipient key)
  let paid ← trackGas (accessGas spec status)
  if paid then some <$> onHost (setStorage env recipient key value) else return none

/-- The largest access cost, where access is charged at all. -/
def dearestAccess : Option Int :=
  (spec.sstoreAccessGas .warm).map fun warm => max warm ((spec.sstoreAccessGas .cold).getD warm)

/-- The block that computes the status; `none` is its early return. -/
def sstoreStatus (key value : U256) : StorageStep (Option StorageStatus) :=
  match dearestAccess spec with
  | some dearest => do
      let site ← Action.get
      if site.frame.gas.gasLeft ≥ dearest then sstoreFused env spec recipient key value
      else sstoreSplit env spec recipient key value
  | none => some <$> onHost (setStorage env recipient key value)

/-- `frame.gas_refund += cost.refund`. -/
def addRefund (refund : Int) : Action CallFrame Empty Unit :=
  assignGas fun gas => do
    let gasRefund ← addI64 gas.gasRefund refund
    return { gas with gasRefund }

/-- What follows the status: the charge of the write, its refund and its state gas. -/
def chargeSstore (status : StorageStatus) : Action CallFrame Empty Unit := do
  let cost := spec.sstoreGas status
  let paid ← CallFrame.trackGas cost.cost
  if paid then
    addRefund cost.refund
    let stateGas := spec.sstoreStateGas status
    let charged ← trackStateGas stateGas.charge
    if charged then assignGas (refillStateGas stateGas.refund) else return ()
  else return ()

/-- The sentry of EIP-2200 stops the frame. -/
def stopsAtSentry (frame : CallFrame) : Prop :=
  ∃ minimum, spec.sstoreMinimumGas = some minimum ∧ frame.gas.gasLeft ≤ minimum

instance (frame : CallFrame) : Decidable (stopsAtSentry spec frame) :=
  match held : spec.sstoreMinimumGas with
  | none => isFalse fun ⟨_, same, _⟩ => nomatch held.symm.trans same
  | some minimum => decidable_of_iff (frame.gas.gasLeft ≤ minimum) (by simp [stopsAtSentry, held])

def sstoreAfterPop (key value : U256) : StorageStep Unit := do
  let site ← Action.get
  if stopsAtSentry spec site.frame then onFrame (CallFrame.halt .outOfGas)
  else
    match ← sstoreStatus env spec recipient key value with
    | some status => onFrame (chargeSstore spec status)
    | none => return ()

end Handlers

/-! ## What a handler leaves behind -/

section Effects

variable {env : Env} {spec : StorageSpec} {recipient : Address} {key value : U256}
  {site after : StorageSite}

theorem onFrame_ok {body : Action CallFrame Empty α} {result : α} :
    onFrame body site = .ok result after ↔
      body site.frame = .ok result after.frame ∧ after.state = site.state := by
  unfold onFrame
  cases ran : body site.frame with
  | ok value frame =>
      simp only [Outcome.ok.injEq]
      constructor
      · rintro ⟨rfl, rfl⟩
        exact ⟨⟨rfl, rfl⟩, rfl⟩
      · rintro ⟨⟨rfl, rfl⟩, same⟩
        refine ⟨rfl, ?_⟩
        rw [← same]
  | fail error frame => exact nomatch error
  | illegal => simp

theorem onHost_ok {body : Method α} {result : α} :
    onHost body site = .ok result after ↔
      body site.state = .ok result after.state ∧ after.frame = site.frame := by
  unfold onHost
  cases ran : body site.state with
  | ok value state =>
      simp only [Outcome.ok.injEq]
      constructor
      · rintro ⟨rfl, rfl⟩
        exact ⟨⟨rfl, rfl⟩, rfl⟩
      · rintro ⟨⟨rfl, rfl⟩, same⟩
        refine ⟨rfl, ?_⟩
        rw [← same]
  | fail error state => simp
  | illegal => simp

/-- The frame once `price` is taken from its gas. -/
def takeGas (price : Int) (frame : CallFrame) : CallFrame :=
  { frame with gas := { frame.gas with gasLeft := frame.gas.gasLeft - price } }

/-- The frame that ran out of gas. -/
def ranDry (frame : CallFrame) : CallFrame :=
  { frame with state := .halted .outOfGas, gas := { frame.gas with gasLeft := 0 } }

/-- A charge took its price, or stopped a frame that held less. -/
inductive Settled (price : Int) (frame : CallFrame) : CallFrame → Bool → Prop
  | paid (enough : 0 < price → price ≤ frame.gas.gasLeft) :
      Settled price frame (takeGas price frame) true
  | short (short : frame.gas.gasLeft < price) : Settled price frame (ranDry frame) false

theorem trackGas_settled {price : Int} {frame last : CallFrame} {paid : Bool}
    (ran : CallFrame.trackGas price frame = .ok paid last) : Settled price frame last paid := by
  by_cases short : frame.gas.gasLeft < price
  · by_cases running : frame.isRunning
    · rw [CallFrame.trackGas_short running short] at ran
      cases ran
      exact .short short
    · simp [CallFrame.trackGas, CallFrame.halt, Action.bind_run, Action.assert, short, running] at ran
  · have enough : price ≤ frame.gas.gasLeft := Int.not_lt.mp short
    by_cases fits : FitsI64 (frame.gas.gasLeft - price)
    · rw [CallFrame.trackGas_paid enough fits] at ran
      cases ran
      exact .paid fun _ => enough
    · simp [CallFrame.trackGas, Action.bind_run, short, subI64, fits] at ran

theorem Settled.free {frame : CallFrame} : Settled 0 frame frame true := by
  have same : takeGas 0 frame = frame := by
    rw [takeGas, Int.sub_zero]
  have settled := @Settled.paid 0 frame fun positive => absurd positive (lt_irrefl 0)
  rwa [same] at settled

theorem Settled.pays {price : Int} {frame last : CallFrame} (settled : Settled price frame last true) :
    (0 < price → price ≤ frame.gas.gasLeft) ∧ last = takeGas price frame := by
  cases settled with
  | paid enough => exact ⟨enough, rfl⟩

theorem Settled.lacks {price : Int} {frame last : CallFrame}
    (settled : Settled price frame last false) :
    frame.gas.gasLeft < price ∧ last = ranDry frame := by
  cases settled with
  | short short => exact ⟨short, rfl⟩

/-! ## The two orders -/

section Orders

variable {host : Method (α × AccessStatus)} {access : Method AccessStatus} {body : Method α}
  {charge : AccessStatus → Action CallFrame Empty Bool} {price : AccessStatus → Int}
  {result : Option α} {last : StorageSite}

/-- One host call, and the charge its status decides. -/
def fusedOrder (host : Method (α × AccessStatus))
    (charge : AccessStatus → Action CallFrame Empty Bool) : StorageStep (Option α) := do
  let result ← onHost host
  let paid ← onFrame (charge result.2)
  return if paid then some result.1 else none

/-- The access is charged before the slot is reached. -/
def splitOrder (access : Method AccessStatus) (charge : AccessStatus → Action CallFrame Empty Bool)
    (body : Method α) : StorageStep (Option α) := do
  let status ← onHost access
  let paid ← onFrame (charge status)
  if paid then some <$> onHost body else return none

/-- The order a handler takes by the gas left; without a price nothing is charged. -/
def storageOrder (dearest : Option Int) (host : Method (α × AccessStatus))
    (access : Method AccessStatus) (charge : AccessStatus → Action CallFrame Empty Bool)
    (body : Method α) : StorageStep (Option α) :=
  match dearest with
  | some dearest => do
      let site ← Action.get
      if site.frame.gas.gasLeft ≥ dearest then fusedOrder host charge
      else splitOrder access charge body
  | none => some <$> onHost body

theorem fusedOrder_ok : fusedOrder host charge site = .ok result last ↔ ∃ value status paid,
    host site.state = .ok (value, status) last.state ∧
      charge status site.frame = .ok paid last.frame ∧
      result = if paid then some value else none := by
  unfold fusedOrder
  simp only [Action.bind_eq_ok, onHost_ok, onFrame_ok, Action.pure_run, Outcome.ok.injEq]
  constructor
  · rintro ⟨⟨value, status⟩, mid, ⟨ran, frame⟩, paid, charged, ⟨pays, state⟩, rfl, rfl⟩
    rw [frame] at pays
    rw [state]
    exact ⟨value, status, paid, ran, pays, rfl⟩
  · rintro ⟨value, status, paid, ran, pays, rfl⟩
    exact ⟨(value, status), { site with state := last.state }, ⟨ran, rfl⟩, paid, last, ⟨pays, rfl⟩,
      rfl, rfl⟩

theorem splitOrder_ok : splitOrder access charge body site = .ok result last ↔ ∃ status mid paid,
    access site.state = .ok status mid ∧ charge status site.frame = .ok paid last.frame ∧
      if paid then ∃ value, body mid = .ok value last.state ∧ result = some value
      else last.state = mid ∧ result = none := by
  unfold splitOrder
  simp only [Action.bind_eq_ok, onHost_ok, onFrame_ok]
  constructor
  · rintro ⟨status, mid, ⟨ran, frame⟩, paid, charged, ⟨pays, state⟩, rest⟩
    rw [frame] at pays
    cases paid with
    | true =>
        rw [if_pos rfl, ← bind_pure_comp, Action.bind_eq_ok] at rest
        obtain ⟨value, ended, reads, ends⟩ := rest
        cases ends
        obtain ⟨reads, same⟩ := onHost_ok.mp reads
        rw [state] at reads
        rw [← same] at pays
        exact ⟨status, mid.state, true, ran, pays, value, reads, rfl⟩
    | false =>
        cases rest
        exact ⟨status, mid.state, false, ran, pays, state, rfl⟩
  · rintro ⟨status, mid, paid, ran, pays, rest⟩
    refine ⟨status, { site with state := mid }, ⟨ran, rfl⟩, paid, ⟨last.frame, mid⟩, ⟨pays, rfl⟩, ?_⟩
    cases paid with
    | true =>
        obtain ⟨value, reads, rfl⟩ := rest
        rw [if_pos rfl, ← bind_pure_comp, Action.bind_eq_ok]
        exact ⟨value, last, onHost_ok.mpr ⟨reads, rfl⟩, rfl⟩
    | false =>
        obtain ⟨rfl, rfl⟩ := rest
        rfl

/-- How a handler came to its result. -/
inductive Reached (host : Method (α × AccessStatus)) (access : Method AccessStatus) (body : Method α)
    (before : WorldState) : Option α → WorldState → Prop
  | fused {value : α} {status : AccessStatus} {after : WorldState}
      (ran : host before = .ok (value, status) after) : Reached host access body before
      (some value) after
  | split {value : α} {status : AccessStatus} {mid after : WorldState}
      (accessed : access before = .ok status mid) (ran : body mid = .ok value after) :
      Reached host access body before (some value) after
  | plain {value : α} {after : WorldState} (ran : body before = .ok value after) :
      Reached host access body before (some value) after
  | unpaid {status : AccessStatus} {after : WorldState} (accessed : access before = .ok status after) :
      Reached host access body before none after

theorem splitOrder_reached (ran : splitOrder access charge body site = .ok result last) :
    Reached host access body site.state result last.state := by
  obtain ⟨status, mid, paid, accessed, -, rest⟩ := splitOrder_ok.mp ran
  cases paid with
  | true =>
      obtain ⟨value, reads, rfl⟩ := rest
      exact .split accessed reads
  | false =>
      obtain ⟨same, rfl⟩ := rest
      exact same ▸ .unpaid accessed

/-- A charge that takes the price of the status. -/
def Settles (charge : AccessStatus → Action CallFrame Empty Bool) (price : AccessStatus → Int) : Prop :=
  ∀ status frame last paid, charge status frame = .ok paid last →
    Settled (price status) frame last paid

/-- At every gas the access is charged at its price, and what is not paid for is not reached. -/
theorem storageOrder_ok {dearest : Option Int} {held : AccessStatus} (settles : Settles charge price)
    (fusedStatus : ∀ {value status after}, host site.state = .ok (value, status) after → status = held)
    (splitStatus : ∀ {status after}, access site.state = .ok status after → status = held)
    (covers : ∀ amount, dearest = some amount → ∀ status, price status ≤ amount)
    (free : dearest = none → price held = 0)
    (ran : storageOrder dearest host access charge body site = .ok result last) :
    Settled (price held) site.frame last.frame result.isSome ∧
      Reached host access body site.state result last.state := by
  unfold storageOrder at ran
  cases priced : dearest with
  | some amount =>
      rw [priced] at ran
      dsimp only at ran
      rw [Action.bind_run, Action.get_run] at ran
      dsimp only at ran
      split at ran
      · rename_i enough
        obtain ⟨value, status, paid, reads, pays, rfl⟩ := fusedOrder_ok.mp ran
        obtain rfl := fusedStatus reads
        have settled := settles _ _ _ _ pays
        cases paid with
        | true => exact ⟨settled, .fused reads⟩
        | false =>
            have bound := covers amount priced status
            have short := settled.lacks.1
            omega
      · refine ⟨?_, splitOrder_reached ran⟩
        obtain ⟨status, mid, paid, accessed, pays, rest⟩ := splitOrder_ok.mp ran
        obtain rfl := splitStatus accessed
        cases paid with
        | true =>
            obtain ⟨value, -, rfl⟩ := rest
            exact settles _ _ _ _ pays
        | false =>
            obtain ⟨-, rfl⟩ := rest
            exact settles _ _ _ _ pays
  | none =>
      rw [priced] at ran
      dsimp only at ran
      rw [← bind_pure_comp, Action.bind_eq_ok] at ran
      obtain ⟨value, ended, reads, ends⟩ := ran
      cases ends
      obtain ⟨reads, frame⟩ := onHost_ok.mp reads
      rw [frame, free priced]
      exact ⟨.free, .plain reads⟩

end Orders

/-! ## The handlers take one of them -/

/-- The charge for a cold slot, on the frame alone. -/
def chargeColdLoad (cold : Int) (status : AccessStatus) : Action CallFrame Empty Bool :=
  if status = .cold then CallFrame.trackGas cold else pure true

theorem trackColdLoad_eq (cold : Int) (status : AccessStatus) :
    trackColdLoad cold status = onFrame (chargeColdLoad cold status) := by
  unfold trackColdLoad chargeColdLoad
  split <;> rfl

theorem sloadFused_eq (cold : Int) : sloadFused env recipient cold key =
    fusedOrder (loadStorage env recipient key) (chargeColdLoad cold) := by
  simp only [sloadFused, fusedOrder, trackColdLoad_eq]

theorem sloadSplit_eq (cold : Int) : sloadSplit env recipient cold key = splitOrder
    (accessStorage env recipient key) (chargeColdLoad cold) (getStorage env recipient key) := by
  simp only [sloadSplit, splitOrder, trackColdLoad_eq]

theorem sloadAfterPop_eq : sloadAfterPop env spec recipient key =
    storageOrder spec.sloadColdAccessGas (loadStorage env recipient key)
      (accessStorage env recipient key) (chargeColdLoad (spec.sloadColdAccessGas.getD 0))
      (getStorage env recipient key) := by
  unfold sloadAfterPop storageOrder
  cases spec.sloadColdAccessGas with
  | some cold => simp only [sloadFused_eq, sloadSplit_eq, Option.getD_some]
  | none => rfl

theorem sstoreStatus_eq : sstoreStatus env spec recipient key value =
    storageOrder (dearestAccess spec) (storeStorage env recipient key value)
      (accessStorage env recipient key) (fun status => CallFrame.trackGas (accessGas spec status))
      (setStorage env recipient key value) := by
  unfold sstoreStatus storageOrder
  cases dearestAccess spec <;> rfl

end Effects

end StorageOps

end EvmZig.Execution
