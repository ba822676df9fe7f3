import EvmZig.Execution.Activations
import EvmZig.Execution.Memory
import EvmZig.Zig.Unsigned

/-!
# Memory instructions (`src/Interpreter.zig`, `src/interpreter/tail_dispatch.zig`)

`expandMemory` of a frame charges for the words a range adds.  The handlers of
the tail dispatcher keep the gas in a register and the frame is brought up to
date when their chain ends.
-/

set_option autoImplicit false

namespace EvmZig.Execution

open Zig
open Lib (ByteMap)

/-- A running frame and its memory. -/
structure MemorySite where
  frame : CallFrame
  memory : Memory

abbrev MemoryStep : Type → Type := Action MemorySite AllocatorError

namespace MemoryOps

variable {α ε : Type}

def onFrame (body : Action CallFrame Empty α) : Action MemorySite ε α := fun self =>
  match body self.frame with
  | .ok value frame => .ok value { self with frame }
  | .fail error _ => nomatch error
  | .illegal => .illegal

def onMemory (body : Action Memory ε α) : Action MemorySite ε α := fun self =>
  match body self.memory with
  | .ok value memory => .ok value { self with memory }
  | .fail error memory => .fail error { self with memory }
  | .illegal => .illegal

/-- A write, trapping where its assertion fails. -/
def assignMemory (write : Memory → Option Memory) : Action MemorySite ε Unit := fun self =>
  match write self.memory with
  | some memory => .ok () { self with memory }
  | none => .illegal

def readMemory (read : Memory → Option α) : Action MemorySite ε α := fun self =>
  match read self.memory with
  | some value => .ok value self
  | none => .illegal

def halt (reason : FrameHalt) : Action MemorySite ε Unit := onFrame (CallFrame.halt reason)

/-! ## The frame's own operations -/

section Frame

variable (allocator : Allocator)

/-- `if (!self.trackGas(expansion.cost)) return false` and the expansion. -/
def payExpansion (expansion : Expansion) : MemoryStep Bool := do
  let paid ← onFrame (CallFrame.trackGas expansion.cost)
  if paid then
    onMemory (Memory.applyExpansion allocator expansion)
    return true
  else return false

def expandMemory (offset byteSize : Nat) : MemoryStep Bool := do
  if byteSize = 0 then return true
  match addUsize offset byteSize with
  | none =>
      halt .outOfGas
      return false
  | some stop =>
      let self ← Action.get
      if stop ≤ self.memory.len then return true
      match ← (self.memory.planExpansion offset byteSize : Option (Option Expansion)) with
      | none =>
          halt .outOfGas
          return false
      | some expansion => payExpansion allocator expansion

end Frame

/-! ## Tail dispatch -/

inductive TailStatus where
  | done
  | outOfGas
  | thrown
  deriving DecidableEq, Repr

/-- What the handlers of one chain share. -/
structure Context where
  site : MemorySite
  finalGas : Int
  err : Option AllocatorError

/-- A handler passes its gas on, or ends the chain. -/
inductive Tail (α : Type) where
  | next (gas : Int) (value : α)
  | stop (status : TailStatus)

abbrev TailStep : Type → Type := Action Context Empty

/-- `frame.gas_left = gas`. -/
def MemorySite.spill (gasLeft : Int) (site : MemorySite) : MemorySite :=
  { site with frame := { site.frame with gas := { site.frame.gas with gasLeft } } }

namespace TailDispatch

def onSite (body : Action MemorySite Empty α) : TailStep α := fun ctx =>
  match body ctx.site with
  | .ok value site => .ok value { ctx with site }
  | .fail error _ => nomatch error
  | .illegal => .illegal

def finish (finalGas : Int) : TailStep Unit := Action.modify fun ctx => { ctx with finalGas }

def halt (reason : FrameHalt) : TailStep Unit := do
  onSite (MemoryOps.halt reason)
  finish 0

/-- `none` is the early return, after `finish` with `.out_of_gas`. -/
def chargeGas (gas cost : Int) : TailStep (Option Int) := do
  if cost > gas then
    finish gas
    return none
  else some <$> (liftM (subI64 gas cost) : TailStep Int)

def recordError (gas : Int) (err : AllocatorError) : TailStep Unit :=
  Action.modify fun ctx => { ctx with site := MemorySite.spill gas ctx.site, err := some err }

def memoryFailureStatus (ctx : Context) : TailStatus :=
  if ctx.err ≠ none then .thrown
  else if ctx.site.frame.isRunning then .outOfGas else .done

section Handlers

variable (allocator : Allocator)

/-- `memory.applyExpansion(expansion) catch ..`. -/
def applyExpansion (gas : Int) (expansion : Expansion) : TailStep (Option Int) := fun ctx =>
  match onMemory (Memory.applyExpansion allocator expansion) ctx.site with
  | .ok () site => .ok (some gas) { ctx with site }
  | .fail err site => (recordError gas err >>= fun _ => pure none) { ctx with site }
  | .illegal => .illegal

def expandMemory (offset byteSize : Nat) (gas : Int) : TailStep (Option Int) := do
  if byteSize = 0 then return some gas
  match addUsize offset byteSize with
  | none =>
      halt .outOfGas
      return none
  | some stop =>
      let ctx ← Action.get
      if stop ≤ ctx.site.memory.len then return some gas
      match ← (ctx.site.memory.planExpansion offset byteSize : Option (Option Expansion)) with
      | none =>
          halt .outOfGas
          return none
      | some expansion =>
          match ← chargeGas gas expansion.cost with
          | none => return none
          | some nextGas => applyExpansion allocator nextGas expansion

/-- `expandMemory(..) orelse return memoryFailureStatus(ctx)`, and `next` on the gas left. -/
def expanding (offset byteSize : Nat) (gas : Int) (next : Int → TailStep (Tail α)) :
    TailStep (Tail α) := do
  match ← expandMemory allocator offset byteSize gas with
  | none =>
      let ctx ← Action.get
      return .stop (memoryFailureStatus ctx)
  | some memGas => next memGas

end Handlers

/-- What `executeAt` makes of the status a chain ended with. -/
def close : Outcome Context Empty (Tail α) → Outcome MemorySite AllocatorError (Option α)
  | .ok (.next gas value) ctx => .ok (some value) (MemorySite.spill gas ctx.site)
  | .ok (.stop .done) ctx => .ok none (MemorySite.spill ctx.finalGas ctx.site)
  | .ok (.stop .outOfGas) ctx =>
      (MemoryOps.halt .outOfGas >>= fun _ => pure none) (MemorySite.spill ctx.finalGas ctx.site)
  | .ok (.stop .thrown) ctx =>
      match ctx.err with
      | some err => .fail err ctx.site
      | none => .illegal
  | .fail error _ => nomatch error
  | .illegal => .illegal

/-- `executeAt` around one handler, entered with `gas` in the register. -/
def settle (handler : Int → TailStep (Tail α)) (gas : Int) : MemoryStep (Option α) := fun site =>
  close (handler gas { site, finalGas := 0, err := none })

end TailDispatch

/-! ## The two dispatchers agree -/

/-- No byte of the range lies past the memory. -/
def Covered (memory : Memory) (offset byteSize : Nat) : Prop :=
  byteSize = 0 ∨ offset + byteSize ≤ memory.len

/-- The site with its frame halted for lack of gas. -/
def MemorySite.stopped (site : MemorySite) : MemorySite :=
  { site with
    frame := { site.frame with
      state := .halted .outOfGas
      gas := { site.frame.gas with gasLeft := 0 } } }

/-- What a range asks of a memory. -/
inductive Demand where
  | nothing
  | tooFar
  | trap
  | expansion (expansion : Expansion)

def demand (memory : Memory) (offset byteSize : Nat) : Demand :=
  if byteSize = 0 then .nothing
  else
    match addUsize offset byteSize with
    | none => .tooFar
    | some stop =>
        if stop ≤ memory.len then .nothing
        else
          match memory.planExpansion offset byteSize with
          | none => .trap
          | some none => .tooFar
          | some (some expansion) => .expansion expansion

section Agreement

variable {allocator : Allocator} {site : MemorySite} {ctx : Context} {gas : Int}
variable {offset byteSize : Nat}

theorem halt_running (running : site.frame.isRunning) :
    (halt .outOfGas : MemoryStep Unit) site = .ok () (MemorySite.stopped site) := by
  rw [halt, onFrame, CallFrame.halt, Action.bind_run, Action.assert, if_pos running]
  rfl

theorem expandMemory_demand :
    expandMemory allocator offset byteSize site =
      match demand site.memory offset byteSize with
      | .nothing => .ok true site
      | .tooFar => (halt .outOfGas >>= fun _ => pure false) site
      | .trap => .illegal
      | .expansion expansion => payExpansion allocator expansion site := by
  unfold expandMemory demand
  by_cases empty : byteSize = 0
  · rw [if_pos empty, if_pos empty]
    rfl
  · rw [if_neg empty, if_neg empty]
    cases addUsize offset byteSize with
    | none => rfl
    | some stop =>
        dsimp only
        rw [Action.bind_run, Action.get_run]
        dsimp only
        by_cases inside : stop ≤ site.memory.len
        · rw [if_pos inside, if_pos inside]
          rfl
        · rw [if_neg inside, if_neg inside]
          rcases site.memory.planExpansion offset byteSize with _ | _ | expansion <;> rfl

theorem demand_nothing {memory : Memory} :
    demand memory offset byteSize = .nothing ↔ Covered memory offset byteSize := by
  unfold demand Covered
  by_cases empty : byteSize = 0
  · simp [empty]
  · by_cases bounded : offset + byteSize ≤ usizeMax
    · rw [if_neg empty, addUsize_eq bounded]
      by_cases inside : offset + byteSize ≤ memory.len
      · simp [inside]
      · simp only [inside, if_false, empty, or_self, iff_false]
        split <;> exact nofun
    · have outside : ¬offset + byteSize ≤ memory.len :=
        fun inside => bounded (Nat.le_trans inside memory.len_le)
      simp [empty, addUsize, bounded, outside]

theorem payExpansion_short {expansion : Expansion} (running : site.frame.isRunning)
    (short : site.frame.gas.gasLeft < expansion.cost) :
    payExpansion allocator expansion site = .ok false (MemorySite.stopped site) := by
  rw [payExpansion, Action.bind_run, onFrame, CallFrame.trackGas_short running short]
  rfl

theorem payExpansion_granted {expansion : Expansion} {memory : Memory}
    (enough : ¬site.frame.gas.gasLeft < expansion.cost)
    (fits : FitsI64 (site.frame.gas.gasLeft - expansion.cost))
    (applied : Memory.applyExpansion allocator expansion site.memory = .ok () memory) :
    payExpansion allocator expansion site =
      .ok true (MemorySite.spill (site.frame.gas.gasLeft - expansion.cost)
        { site with memory }) := by
  rw [payExpansion, Action.bind_run, onFrame, CallFrame.trackGas_paid (Int.not_lt.mp enough) fits]
  simp only [if_true, Action.bind_run, onMemory, applied]
  rfl

theorem payExpansion_refused {expansion : Expansion} {memory : Memory} {error : AllocatorError}
    (enough : ¬site.frame.gas.gasLeft < expansion.cost)
    (fits : FitsI64 (site.frame.gas.gasLeft - expansion.cost))
    (applied : Memory.applyExpansion allocator expansion site.memory = .fail error memory) :
    payExpansion allocator expansion site =
      .fail error (MemorySite.spill (site.frame.gas.gasLeft - expansion.cost)
        { site with memory }) := by
  rw [payExpansion, Action.bind_run, onFrame, CallFrame.trackGas_paid (Int.not_lt.mp enough) fits]
  simp only [if_true, Action.bind_run, onMemory, applied]
  rfl

theorem payExpansion_wide {expansion : Expansion} (enough : ¬site.frame.gas.gasLeft < expansion.cost)
    (wide : ¬FitsI64 (site.frame.gas.gasLeft - expansion.cost)) :
    payExpansion allocator expansion site = .illegal := by
  have traps : CallFrame.trackGas expansion.cost site.frame = .illegal := by
    simp [CallFrame.trackGas, Action.bind_run, enough, subI64, wide]
  rw [payExpansion, Action.bind_run, onFrame, traps]

theorem expandMemory_covered (covered : Covered site.memory offset byteSize) :
    expandMemory allocator offset byteSize site = .ok true site := by
  rw [expandMemory_demand, demand_nothing.mpr covered]

end Agreement

end MemoryOps

end EvmZig.Execution
