import EvmZig.State.Types
import EvmZig.Transaction.Spec
import EvmZig.Lib.Potential

/-!
# What a storage write costs (`src/eth/spec.zig`)

The schedules of the forks, priced by the status of a write.  With net metering
every price is the difference of a potential that depends on the original value
of the slot and on what it holds.
-/

set_option autoImplicit false

namespace EvmZig.Execution

open State (StorageStatus AccessStatus storageStatus)
open Transaction (Revision)

/-! ## Schedules -/

/-- `execution.StorageGas`. -/
structure StorageGas where
  cost : Int := 0
  refund : Int := 0
  deriving DecidableEq

/-- `execution.StorageStateGas`. -/
structure StorageStateGas where
  charge : Int := 0
  refund : Int := 0
  deriving DecidableEq

structure StorageSchedule where
  /-- Charged when a write leaves the slot's committed value unchanged. -/
  warmAccess : Int
  /-- Zero to non-zero. -/
  set : Int
  /-- Non-zero to a different non-zero. -/
  reset : Int
  /-- Refund for clearing a slot to zero. -/
  clear : Int
  /-- Price by net effect over the transaction rather than per write. -/
  net : Bool
  deriving DecidableEq

/-- `spec.StorageSpec`: the prices of SLOAD and SSTORE. -/
structure StorageSpec where
  sloadColdAccessGas : Option Int
  sstoreMinimumGas : Option Int
  sstoreAccessGas : AccessStatus → Option Int
  sstoreGas : StorageStatus → StorageGas
  sstoreStateGas : StorageStatus → StorageStateGas

namespace Eip2929

def coldSloadCost : Int := 2100

def warmStorageReadCost : Int := 100

def coldSloadSurcharge : Int := coldSloadCost - warmStorageReadCost

end Eip2929

namespace Eip8038

def coldStorageAccessCost : Int := 2100

def storageWriteCost : Int := 10000

def storageClearRefund : Int := 11616

end Eip8038

namespace Eip8037

def costPerStateByte : Int := 1530

def stateBytesPerStorageSet : Int := 64

def storageSetStateGas : Int := stateBytesPerStorageSet * costPerStateByte

end Eip8037

def callStipend : Int := 2300

def accessListStorageKeyCost : Int := 1900

def frontierStorageSchedule : StorageSchedule where
  warmAccess := 200
  set := 20000
  reset := 5000
  clear := 15000
  net := false

def eip1283StorageSchedule : StorageSchedule := { frontierStorageSchedule with net := true }

def eip2200StorageSchedule : StorageSchedule := { eip1283StorageSchedule with warmAccess := 800 }

def eip2929StorageSchedule : StorageSchedule :=
  { eip2200StorageSchedule with
    warmAccess := Eip2929.warmStorageReadCost
    reset := eip2200StorageSchedule.reset - Eip2929.coldSloadCost }

def eip3529StorageSchedule : StorageSchedule :=
  { eip2929StorageSchedule with clear := eip2929StorageSchedule.reset + accessListStorageKeyCost }

namespace Semantics

def noStorageAccess (_ : AccessStatus) : Option Int := none

def berlinStorageAccess (status : AccessStatus) : Option Int :=
  some (if status = .cold then Eip2929.coldSloadCost else 0)

def amsterdamStorageAccess (status : AccessStatus) : Option Int :=
  some (if status = .cold then Eip8038.coldStorageAccessCost else Eip2929.warmStorageReadCost)

def scheduledSstore (schedule : StorageSchedule) (status : StorageStatus) : StorageGas :=
  if schedule.net = false then
    match status with
    | .added | .deletedAdded | .deletedRestored => { cost := schedule.set }
    | .deleted | .modifiedDeleted | .addedDeleted =>
        { cost := schedule.reset, refund := schedule.clear }
    | .modified | .assigned | .modifiedRestored => { cost := schedule.reset }
  else
    match status with
    | .assigned => { cost := schedule.warmAccess }
    | .added => { cost := schedule.set }
    | .deleted => { cost := schedule.reset, refund := schedule.clear }
    | .modified => { cost := schedule.reset }
    | .deletedAdded => { cost := schedule.warmAccess, refund := -schedule.clear }
    | .modifiedDeleted => { cost := schedule.warmAccess, refund := schedule.clear }
    | .deletedRestored =>
        { cost := schedule.warmAccess
          refund := schedule.reset - schedule.warmAccess - schedule.clear }
    | .addedDeleted => { cost := schedule.warmAccess, refund := schedule.set - schedule.warmAccess }
    | .modifiedRestored =>
        { cost := schedule.warmAccess, refund := schedule.reset - schedule.warmAccess }

def frontierSstore : StorageStatus → StorageGas := scheduledSstore frontierStorageSchedule

def constantinopleSstore : StorageStatus → StorageGas := scheduledSstore eip1283StorageSchedule

def istanbulSstore : StorageStatus → StorageGas := scheduledSstore eip2200StorageSchedule

def berlinSstore : StorageStatus → StorageGas := scheduledSstore eip2929StorageSchedule

def londonSstore : StorageStatus → StorageGas := scheduledSstore eip3529StorageSchedule

def amsterdamSstore (status : StorageStatus) : StorageGas :=
  let write := Eip8038.storageWriteCost
  let clear := Eip8038.storageClearRefund
  match status with
  | .assigned => {}
  | .added | .modified => { cost := write }
  | .deleted => { cost := write, refund := clear }
  | .deletedAdded => { refund := -clear }
  | .modifiedDeleted => { refund := clear }
  | .deletedRestored => { refund := write - clear }
  | .addedDeleted | .modifiedRestored => { refund := write }

def noSstoreState (_ : StorageStatus) : StorageStateGas := {}

def amsterdamSstoreState (status : StorageStatus) : StorageStateGas :=
  let charge := Eip8037.storageSetStateGas
  match status with
  | .added => { charge }
  | .addedDeleted => { refund := charge }
  | _ => {}

end Semantics

/-! ## Forks -/

namespace StorageSpec

def frontier : StorageSpec where
  sloadColdAccessGas := none
  sstoreMinimumGas := none
  sstoreAccessGas := Semantics.noStorageAccess
  sstoreGas := Semantics.frontierSstore
  sstoreStateGas := Semantics.noSstoreState

def constantinople : StorageSpec := { frontier with sstoreGas := Semantics.constantinopleSstore }

def petersburg : StorageSpec := { constantinople with sstoreGas := Semantics.frontierSstore }

def istanbul : StorageSpec :=
  { petersburg with
    sstoreMinimumGas := some callStipend
    sstoreGas := Semantics.istanbulSstore }

def berlin : StorageSpec :=
  { istanbul with
    sloadColdAccessGas := some Eip2929.coldSloadSurcharge
    sstoreAccessGas := Semantics.berlinStorageAccess
    sstoreGas := Semantics.berlinSstore }

def london : StorageSpec := { berlin with sstoreGas := Semantics.londonSstore }

def amsterdam : StorageSpec :=
  { london with
    sloadColdAccessGas := some (Eip8038.coldStorageAccessCost - Eip2929.warmStorageReadCost)
    sstoreAccessGas := Semantics.amsterdamStorageAccess
    sstoreGas := Semantics.amsterdamSstore
    sstoreStateGas := Semantics.amsterdamSstoreState }

end StorageSpec

/-- `specAt(revision).storage`. -/
def storageSpecAt : Revision → StorageSpec
  | .frontier | .frontierThawing | .homestead | .daoFork | .tangerineWhistle | .spuriousDragon
  | .byzantium => .frontier
  | .constantinople => .constantinople
  | .petersburg => .petersburg
  | .istanbul | .muirGlacier => .istanbul
  | .berlin => .berlin
  | .london | .arrowGlacier | .grayGlacier | .merge | .shanghai | .cancun | .prague | .osaka =>
      .london
  | .amsterdam => .amsterdam

/-! ## Statuses -/

/-- What a status says of the original, current and next value of a slot. -/
inductive Transition (original current value : U256) : StorageStatus → Prop
  | same (same : value = current) : Transition original current value .assigned
  | added (zero : original = 0) (clean : current = 0) (next : value ≠ 0) :
      Transition original current value .added
  | deleted (held : original ≠ 0) (clean : current = original) (next : value = 0) :
      Transition original current value .deleted
  | modified (held : original ≠ 0) (clean : current = original) (next : value ≠ 0)
      (differs : value ≠ original) : Transition original current value .modified
  | deletedAdded (held : original ≠ 0) (empty : current = 0) (next : value ≠ 0)
      (differs : value ≠ original) : Transition original current value .deletedAdded
  | deletedRestored (held : original ≠ 0) (empty : current = 0) (next : value = original) :
      Transition original current value .deletedRestored
  | modifiedDeleted (held : original ≠ 0) (full : current ≠ 0) (dirty : current ≠ original)
      (next : value = 0) : Transition original current value .modifiedDeleted
  | modifiedRestored (held : original ≠ 0) (full : current ≠ 0) (dirty : current ≠ original)
      (next : value = original) : Transition original current value .modifiedRestored
  | modifiedAgain (held : original ≠ 0) (full : current ≠ 0) (dirty : current ≠ original)
      (next : value ≠ 0) (differs : value ≠ original) : Transition original current value .assigned
  | addedDeleted (zero : original = 0) (full : current ≠ 0) (next : value = 0) :
      Transition original current value .addedDeleted
  | addedAgain (zero : original = 0) (full : current ≠ 0) (next : value ≠ 0) :
      Transition original current value .assigned

theorem storageStatus_transition (original current value : U256) :
    Transition original current value (storageStatus original current value) := by
  unfold storageStatus
  split
  · rename_i same
    exact .same same.symm
  · rename_i moved
    split
    · rename_i clean
      subst clean
      split
      · rename_i zero
        exact .added zero zero fun next => moved (zero.trans next.symm)
      · rename_i held
        split
        · rename_i next
          exact .deleted held rfl next
        · rename_i next
          exact .modified held rfl next (Ne.symm moved)
    · rename_i dirty
      split
      · rename_i held
        split
        · rename_i empty
          split
          · rename_i next
            exact .deletedRestored held empty next
          · rename_i differs
            exact .deletedAdded held empty (fun next => moved (empty.trans next.symm)) differs
        · rename_i full
          split
          · rename_i next
            exact .modifiedDeleted held full (Ne.symm dirty) next
          · rename_i next
            split
            · rename_i restored
              exact .modifiedRestored held full (Ne.symm dirty) restored
            · rename_i differs
              exact .modifiedAgain held full (Ne.symm dirty) next differs
      · rename_i zero
        have zero := not_not.mp zero
        have full : current ≠ 0 := fun empty => dirty (zero.trans empty.symm)
        split
        · rename_i next
          exact .addedDeleted zero full next
        · rename_i next
          exact .addedAgain zero full next

/-! ## Net metering -/

/-- The prices net metering puts together, for the forks that have it. -/
def netSchedule : Revision → Option StorageSchedule
  | .frontier | .frontierThawing | .homestead | .daoFork | .tangerineWhistle | .spuriousDragon
  | .byzantium | .petersburg => none
  | .constantinople => some eip1283StorageSchedule
  | .istanbul | .muirGlacier => some eip2200StorageSchedule
  | .berlin => some eip2929StorageSchedule
  | .london | .arrowGlacier | .grayGlacier | .merge | .shanghai | .cancun | .prague | .osaka =>
      some eip3529StorageSchedule
  | .amsterdam =>
      some { warmAccess := 0, set := Eip8038.storageWriteCost, reset := Eip8038.storageWriteCost,
             clear := Eip8038.storageClearRefund, net := true }

/-- The state gas a slot's creation is charged. -/
def slotCreationGas : Revision → Int
  | .amsterdam => Eip8037.storageSetStateGas
  | _ => 0

/-- The state gas of a slot that was created and is still there. -/
def createdGas (revision : Revision) (original current : U256) : Int :=
  if original = 0 ∧ current ≠ 0 then slotCreationGas revision else 0

namespace StorageSchedule

variable {schedule : StorageSchedule}

/-- What the writes of a slot add up to, beyond the price of each. -/
def netCharge (schedule : StorageSchedule) (original current : U256) : Int :=
  if current = original then 0
  else if original = 0 then schedule.set - schedule.warmAccess
  else if current = 0 then schedule.reset - schedule.warmAccess - schedule.clear
  else schedule.reset - schedule.warmAccess

/-- A refund the slot still holds. -/
def heldRefund (schedule : StorageSchedule) (original current : U256) : Int :=
  if original ≠ 0 ∧ current = 0 then schedule.clear else 0

/-- A write is priced above a read of a warm slot, and clearing gives something back. -/
structure Metered (schedule : StorageSchedule) : Prop where
  net : schedule.net = true
  set : schedule.warmAccess ≤ schedule.set
  reset : schedule.warmAccess ≤ schedule.reset
  clear : 0 ≤ schedule.clear

theorem netCharge_same (original : U256) : schedule.netCharge original original = 0 := if_pos rfl

theorem heldRefund_same (original : U256) : schedule.heldRefund original original = 0 :=
  if_neg fun both => both.1 both.2

theorem Metered.heldRefund_nonneg (metered : schedule.Metered) (original current : U256) :
    0 ≤ schedule.heldRefund original current := by
  unfold heldRefund
  split
  · exact metered.clear
  · exact le_rfl

/-- One write is priced at the difference it makes. -/
theorem netCharge_step (metered : schedule.Metered) (original current value : U256) :
    let gas := Semantics.scheduledSstore schedule (storageStatus original current value)
    gas.cost - gas.refund - schedule.warmAccess =
      schedule.netCharge original value - schedule.netCharge original current := by
  have net := metered.net
  have transition := storageStatus_transition original current value
  generalize storageStatus original current value = status at transition ⊢
  cases transition with
  | same same => simp [Semantics.scheduledSstore, net, same]
  | added zero clean next => simp [Semantics.scheduledSstore, net, netCharge, zero, clean, next]
  | deleted held clean next =>
      have moved := Ne.symm held
      simp [Semantics.scheduledSstore, net, netCharge, held, moved, clean, next]
      omega
  | modified held clean next differs =>
      simp [Semantics.scheduledSstore, net, netCharge, held, clean, next, differs]
  | deletedAdded held empty next differs =>
      have moved := Ne.symm held
      simp [Semantics.scheduledSstore, net, netCharge, held, moved, empty, next, differs]
  | deletedRestored held empty next =>
      have moved := Ne.symm held
      simp [Semantics.scheduledSstore, net, netCharge, held, moved, empty, next]
  | modifiedDeleted held full dirty next =>
      have moved := Ne.symm held
      simp [Semantics.scheduledSstore, net, netCharge, held, moved, full, dirty, next]
  | modifiedRestored held full dirty next =>
      simp [Semantics.scheduledSstore, net, netCharge, held, full, dirty, next]
  | modifiedAgain held full dirty next differs =>
      simp [Semantics.scheduledSstore, net, netCharge, held, full, dirty, next, differs]
  | addedDeleted zero full next =>
      simp [Semantics.scheduledSstore, net, netCharge, zero, full, next]
  | addedAgain zero full next =>
      simp [Semantics.scheduledSstore, net, netCharge, zero, full, next]

/-- A write takes back no more than the slot holds. -/
theorem heldRefund_step (metered : schedule.Metered) (original current value : U256) :
    schedule.heldRefund original value - schedule.heldRefund original current ≤
      (Semantics.scheduledSstore schedule (storageStatus original current value)).refund := by
  obtain ⟨net, set, reset, clear⟩ := metered
  have transition := storageStatus_transition original current value
  generalize storageStatus original current value = status at transition ⊢
  cases transition with
  | same same => simp [Semantics.scheduledSstore, net, same]
  | added zero clean next => simp [Semantics.scheduledSstore, net, heldRefund, zero]
  | deleted held clean next =>
      simp [Semantics.scheduledSstore, net, heldRefund, held, clean, next]
  | modified held clean next differs =>
      simp [Semantics.scheduledSstore, net, heldRefund, held, clean, next]
  | deletedAdded held empty next differs =>
      simp [Semantics.scheduledSstore, net, heldRefund, held, empty, next]
  | deletedRestored held empty next =>
      simp [Semantics.scheduledSstore, net, heldRefund, held, empty, next]
      omega
  | modifiedDeleted held full dirty next =>
      simp [Semantics.scheduledSstore, net, heldRefund, held, full, next]
  | modifiedRestored held full dirty next =>
      simp [Semantics.scheduledSstore, net, heldRefund, held, full, next]
      omega
  | modifiedAgain held full dirty next differs =>
      simp [Semantics.scheduledSstore, net, heldRefund, full, next]
  | addedDeleted zero full next =>
      simp [Semantics.scheduledSstore, net, heldRefund, zero]
      omega
  | addedAgain zero full next => simp [Semantics.scheduledSstore, net, heldRefund, zero]

end StorageSchedule

/-- The forks with net metering price a write by their schedule. -/
theorem sstoreGas_net {revision : Revision} {schedule : StorageSchedule}
    (net : netSchedule revision = some schedule) :
    schedule.Metered ∧ (storageSpecAt revision).sstoreGas = Semantics.scheduledSstore schedule := by
  cases revision <;> cases net <;> refine ⟨⟨by decide, by decide, by decide, by decide⟩, ?_⟩
  case amsterdam =>
    funext status
    cases status <;> rfl
  all_goals rfl

theorem createdGas_same (revision : Revision) (original : U256) :
    createdGas revision original original = 0 := if_neg fun both => both.2 both.1

theorem createdGas_free {revision : Revision} (free : slotCreationGas revision = 0)
    (original current : U256) : createdGas revision original current = 0 := by
  rw [createdGas, free, ite_self]

/-- The state gas of one write. -/
theorem createdGas_step (revision : Revision) (original current value : U256) :
    let gas := (storageSpecAt revision).sstoreStateGas (storageStatus original current value)
    gas.charge - gas.refund =
      createdGas revision original value - createdGas revision original current := by
  cases revision
  case amsterdam =>
    have gas : (storageSpecAt .amsterdam).sstoreStateGas = Semantics.amsterdamSstoreState := rfl
    rw [gas]
    have transition := storageStatus_transition original current value
    generalize storageStatus original current value = status at transition ⊢
    cases transition with
    | same same => simp [Semantics.amsterdamSstoreState, same]
    | added zero clean next =>
        simp [Semantics.amsterdamSstoreState, createdGas, slotCreationGas, zero, clean, next]
    | addedDeleted zero full next =>
        simp [Semantics.amsterdamSstoreState, createdGas, slotCreationGas, zero, full, next]
    | addedAgain zero full next =>
        simp [Semantics.amsterdamSstoreState, createdGas, slotCreationGas, zero, full, next]
    | deleted held => simp [Semantics.amsterdamSstoreState, createdGas, held]
    | modified held => simp [Semantics.amsterdamSstoreState, createdGas, held]
    | deletedAdded held => simp [Semantics.amsterdamSstoreState, createdGas, held]
    | deletedRestored held => simp [Semantics.amsterdamSstoreState, createdGas, held]
    | modifiedDeleted held => simp [Semantics.amsterdamSstoreState, createdGas, held]
    | modifiedRestored held => simp [Semantics.amsterdamSstoreState, createdGas, held]
    | modifiedAgain held => simp [Semantics.amsterdamSstoreState, createdGas, held]
  all_goals
    rw [createdGas_free rfl, createdGas_free rfl]
    rfl

end EvmZig.Execution
