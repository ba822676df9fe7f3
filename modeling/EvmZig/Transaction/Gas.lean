import EvmZig.Transaction.Spec

/-!
# Gas planning (`src/transaction/gas.zig`)

Intrinsic gas, the calldata floor and the budget an accepted transaction runs
with.
-/

set_option autoImplicit false

namespace EvmZig.Transaction

open Zig

structure InitialGas where
  regular : Nat
  floor : Nat
  deriving DecidableEq, Repr

def InitialGas.minimum (self : InitialGas) : Nat := max self.regular self.floor

structure GasPlan where
  intrinsicGas : Nat
  floorGas : Nat
  minimumGas : Nat
  initialGas : InitialGas
  execution : Option ExecutionGas
  deriving DecidableEq, Repr

def accessListCounts (accessList : List AccessListEntry) : AccessListCounts where
  addresses := accessList.length
  storageKeys := (accessList.map fun entry => entry.storageKeys.length).sum

def wordCount (len : Nat) : Nat := (len + 31) / 32

namespace Spec

variable (spec : Spec)

/-- `count * price`, added where `count` is not zero. -/
def addPriced (gas count price : Nat) : Option Nat :=
  if count ≠ 0 then do
    let count ← castChecked 64 count
    let cost ← mulChecked 64 count price
    addChecked 64 gas cost
  else some gas

def intrinsicGasForTransaction (input : List UInt8) (options : IntrinsicGasOptions) :
    Option Nat := do
  let gas ← spec.transaction.intrinsicBaseGas options
  let gas ←
    if options.isCreate then addChecked 64 gas spec.transaction.createIntrinsicGas else some gas
  let calldata ← spec.transaction.calldataGas input
  let gas ← addChecked 64 gas calldata
  let gas ← addPriced gas options.accessListCounts.addresses spec.transaction.accessListAddressGas
  let gas ← addPriced gas options.accessListCounts.storageKeys spec.transaction.storageKeyGas
  let data ← spec.transaction.accessListDataGas options.accessListCounts
  let gas ← addChecked 64 gas data
  let gas ←
    if options.isCreate ∧ spec.transaction.initcodeWordGas ≠ 0 then do
      let words ← castChecked 64 (wordCount input.length)
      let cost ← mulChecked 64 words spec.transaction.initcodeWordGas
      addChecked 64 gas cost
    else some gas
  addPriced gas options.authorizationCount spec.transaction.authorizationIntrinsicGas

def regularGasLimit (gasLimit : Nat) : Nat :=
  match spec.transaction.regularGasCap with
  | none => gasLimit
  | some cap => min gasLimit cap

def gasPlan (input : List UInt8) (gasLimit : Nat) (options : IntrinsicGasOptions) :
    Option GasPlan := do
  let intrinsicGas ← spec.intrinsicGasForTransaction input options
  let floor ← spec.transaction.floorGas { input, options }
  let floorGas := floor.getD 0
  let initialGas : InitialGas := ⟨intrinsicGas, floorGas⟩
  let minimumGas := initialGas.minimum
  let regularGasLimit := spec.regularGasLimit gasLimit
  let execution :=
    if minimumGas ≤ gasLimit ∧ intrinsicGas ≤ regularGasLimit then
      let executionTotal := gasLimit - intrinsicGas
      let regularBudget := regularGasLimit - intrinsicGas
      let regularLeft := min executionTotal regularBudget
      some { regularLeft, reservoir := executionTotal - regularLeft : ExecutionGas }
    else none
  return { intrinsicGas, floorGas, minimumGas, initialGas, execution }

variable {spec} {input : List UInt8} {gasLimit : Nat} {options : IntrinsicGasOptions}
  {plan : GasPlan}

/-- What a plan that could be computed contains. -/
structure Planned (spec : Spec) (gasLimit : Nat) (plan : GasPlan) : Prop where
  minimum : plan.minimumGas = max plan.intrinsicGas plan.floorGas
  executes : plan.minimumGas ≤ gasLimit → plan.intrinsicGas ≤ spec.regularGasLimit gasLimit →
    ∃ gas, plan.execution = some gas
  /-- The two pools share what is left after the intrinsic gas. -/
  pools : ∀ {gas}, plan.execution = some gas →
    plan.intrinsicGas ≤ gasLimit ∧ gas.regularLeft + gas.reservoir = gasLimit - plan.intrinsicGas

theorem gasPlan_planned (planned : spec.gasPlan input gasLimit options = some plan) :
    Planned spec gasLimit plan := by
  simp only [gasPlan, Option.bind_eq_bind, Option.bind_eq_some_iff, Option.pure_def,
    Option.some.injEq] at planned
  obtain ⟨intrinsicGas, -, floor, -, rfl⟩ := planned
  constructor
  case minimum => rfl
  case executes =>
    intro enough covered
    exact ⟨_, if_pos ⟨enough, covered⟩⟩
  case pools =>
    intro gas found
    dsimp only at found ⊢
    split at found
    case isTrue fits =>
      cases found
      have intrinsic : intrinsicGas ≤ max intrinsicGas (floor.getD 0) := le_max_left _ _
      have enough : intrinsicGas ≤ gasLimit := intrinsic.trans fits.1
      refine ⟨enough, ?_⟩
      dsimp only
      omega
    case isFalse => cases found

/-- A transaction within the limits of the specification runs. -/
theorem Planned.executes_of_capCovers (planned : Planned spec gasLimit plan)
    (covers : spec.CapCovers) (enough : plan.minimumGas ≤ gasLimit)
    (total : ∀ {limit}, spec.transaction.totalGasLimit = some limit → gasLimit ≤ limit)
    (intrinsic : ∀ {limit}, spec.transaction.intrinsicRegularGasLimit = some limit →
      plan.intrinsicGas ≤ limit) :
    ∃ gas, plan.execution = some gas := by
  have minimum := planned.minimum
  refine planned.executes enough ?_
  unfold regularGasLimit
  split
  case h_1 uncapped => omega
  case h_2 cap capped =>
    rcases covers.limited capped with ⟨limit, limited, below⟩ | ⟨limit, limited, below⟩
    · have fits := total limited
      omega
    · have fits := intrinsic limited
      omega

end Spec

end EvmZig.Transaction
