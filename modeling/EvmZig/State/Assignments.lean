import EvmZig.State.Warmth

/-!
# What calls are made of

A call of an attempt, other than lifecycle finalisation, is a sequence of the
assignments listed here, whether it returns or fails.  Each comes with what the
call knows of the rows it assigns to, so that an invariant of the state is
checked once for each kind of assignment.
-/

set_option autoImplicit false

namespace EvmZig.State

open Lib Zig

/-- Who assigns: a call that reads, or that writes slots only, an ordinary call, one that enters
code or clears the logs, the creation of a contract, or lifecycle finalisation. -/
inductive Licence where
  | reading
  | storing
  | call
  | introduction
  | creation (address : Address)
  | finalization
  deriving DecidableEq

namespace Licence

/-- Only creations and finalisation wipe storage. -/
def Wipes : Licence → Address → Prop
  | .creation created, address => address = created
  | .finalization, _ => True
  | _, _ => False

def WritesSlots : Licence → Prop
  | .reading => False
  | _ => True

def WritesAccounts : Licence → Prop
  | .reading => False
  | .storing => False
  | _ => True

def Introduces : Licence → Prop
  | .introduction => True
  | _ => False

end Licence

namespace WorldState

/-- Who a call assigns as. -/
def Op.licence : Op → Licence
  | .initializeContract address _ => .creation address
  | .finalizeLifecycle _ => .finalization
  | .setCode _ _ => .introduction
  | .clearCode _ => .introduction
  | .clearLogs => .introduction
  | .setStorage _ _ _ => .storing
  | .storeStorage _ _ _ => .storing
  | .setBalance _ _ => .call
  | .addBalance _ _ => .call
  | .subtractBalance _ _ => .call
  | .setNonce _ _ => .call
  | .touchAccount _ => .call
  | .applySelfDestruct _ _ _ _ => .call
  | _ => .reading

variable {env : Env} {licence : Licence} {self after : WorldState} {α : Type}

/-! ## Kinds -/

def withCode (code : CodeStore) (self : WorldState) : WorldState := { self with code }

/-- The store with one entry of fresh code more. -/
structure ExtendsCode (code stored : CodeStore) : Prop where
  entry : ∃ hash bytes fresh, stored =
    { code with introduced := code.introduced.admitRow hash bytes fresh }

theorem admitCode_cases (hash : CodeHash) (bytes : Bytes) (self : WorldState) :
    admitCode hash bytes self = .illegal ∨ ∃ cached stored, ExtendsCode self.code stored ∧
      cached.newlyIntroduced = some self.code.introducedLen ∧
      admitCode hash bytes self = .ok cached (withCode stored self) := by
  unfold admitCode
  split
  · exact .inl rfl
  · rename_i fresh
    exact .inr ⟨_, _, ⟨hash, bytes, fresh, rfl⟩, rfl, rfl⟩

/-- List fresh code and journal its entry. -/
def listIntroduced (introduced : Nat) (self : WorldState) : WorldState :=
  { self with
    blockIntroducedCodes := self.blockIntroducedCodes ++ [introduced]
    journal := .introducedCode :: self.journal }

/-- Stamp the row and list it. -/
def enlist (id : AccountId) (transaction : Generation) (self : WorldState) : WorldState :=
  { self.updateAccount id fun row => { row with lifecycleTransaction := transaction } with
    lifecycleAccounts := self.lifecycleAccounts ++ [id] }

/-- An account row that is ready to be assigned to. -/
structure Assignable (state : WorldState) (id : AccountId) (row : AccountRow) : Prop where
  held : state.world.accounts.row id = some row
  running : Running state
  ready : Ready row state.lifetime

/-- A slot that is ready to be written: its original value has been settled. -/
structure Storable (state : WorldState) (resolved : ResolvedStorage) (account : AccountRow)
    (row : StorageRow) : Prop where
  accountHeld : state.world.accounts.row resolved.account = some account
  owned : Owned resolved state
  slotHeld : state.world.storage.row resolved.storage = some row
  running : Running state
  observed : row.observation.transaction = state.lifetime.transaction
  original : account.flags.created = true ∨ row.executionOriginalRoot = state.lifetime.root

/-- `appendStorageUndo` once the row and its record are read. -/
def journalSlot (id : StorageId) (row : StorageRow) (effect : StorageEffect) (self : WorldState) :
    WorldState :=
  (self.push (.storage (storageUndo id row effect))).updateStorage id fun row =>
    journaledSlot row self.lifetime self.journal.storageUndos.length

/-- The journaling of `writeResolvedStorage`, where the open scope needs it. -/
def journalSlotFirst (id : StorageId) (row : StorageRow) (effect : StorageEffect)
    (self : WorldState) : WorldState :=
  if row.journaledScope ≠ self.lifetime.scope then journalSlot id row effect self else self

/-- `writeResolvedStorage` once its room is reserved. -/
def storeSlot (resolved : ResolvedStorage) (account : AccountRow) (row : StorageRow)
    (effect : StorageEffect) (value : U256) (self : WorldState) : WorldState :=
  setStorageEffect row.observation.index (fun _ => { written := true })
    (assignStorage resolved.storage (row.flags.blockDirty = false)
      (row.transactionUndo.transaction ≠ self.lifetime.transaction) value account.storageIncarnation
      (markStorageDirty resolved.account
        (account.flags.storageDirty = false ∧ account.journaledScope ≠ self.lifetime.scope)
        (journalSlotFirst resolved.storage row effect self)))

/-- One assignment of a call. -/
inductive Assignment (env : Env) (licence : Licence) : WorldState → WorldState → Prop
  | asked (self : WorldState) (requests : Nat) : Assignment env licence self { self with requests }
  | cachedCode (self : WorldState) (codeHash : CodeHash) (bytes : Bytes) : Assignment env licence self
      { self with world := { self.world with code := self.world.code ++ [(codeHash, bytes)] } }
  | stored (self : WorldState) (code : CodeStore) (introduces : licence.Introduces) :
      Assignment env licence self (withCode code self)
  | admittedAccount {self : WorldState} (address : Address)
      (fresh : self.world.accounts.find address = none) (grows : env.growsOnTouch = true) :
      Assignment env licence self (self.withAccounts
        (self.world.accounts.admitRow address (.admitted (env.parentAccount address)) fresh))
  | admittedSlot {self : WorldState} {key : StorageKey} {address : Address}
      (owner : self.world.accounts.key key.account = some address)
      (fresh : self.world.storage.find key = none) (grows : env.growsOnTouch = true) :
      Assignment env licence self (self.withStorage (self.world.storage.admitRow key
        { current := env.parentStorage address key.slot } fresh))
  | boundCode (self : WorldState) (id : AccountId) (ref : CodeRef) :
      Assignment env licence self (self.updateAccount id fun row => { row with codeRef := ref })
  | mergedAccount (self : WorldState) (index : Nat) (observation : AccountObservation) :
      Assignment env licence self (mergeAccountObservation index observation self)
  | mergedSlot (self : WorldState) (index : Nat) (observation : StorageObservation) :
      Assignment env licence self (mergeStorageObservation index observation self)
  | observedAccount {self : WorldState} {id : AccountId} {row : AccountRow}
      (held : self.world.accounts.row id = some row) (running : Running self)
      (first : row.observation.transaction ≠ self.lifetime.transaction)
      (observation : AccountObservation) :
      Assignment env licence self (recordAccountObservation id row observation self)
  | observedSlot {self : WorldState} {id : StorageId} {row : StorageRow} {original : U256}
      (held : self.world.storage.row id = some row) (running : Running self)
      (first : row.observation.transaction ≠ self.lifetime.transaction)
      (accepted : acceptedStorageValue id self = .ok original self)
      (observation : StorageObservation) :
      Assignment env licence self (recordStorageObservation id original observation self)
  | journaled {self : WorldState} {id : AccountId} {row : AccountRow}
      {observed : AccountObservationRow} (held : self.world.accounts.row id = some row)
      (running : Running self) (current : row.observation.transaction = self.lifetime.transaction)
      (found : self.observedAccounts[row.observation.index]? = some observed)
      (needed : row.journaledScope ≠ self.lifetime.scope) :
      Assignment env licence self
        ((self.push (.account (accountUndo id row observed.effect))).updateAccount
        id fun row => { row with journaledScope := self.lifetime.scope })
  | blockChanged {self : WorldState} {id : AccountId} {row : AccountRow}
      (held : self.world.accounts.row id = some row) (running : Running self)
      (journaled : row.journaledScope = self.lifetime.scope)
      (first : row.flags.blockChanged = false) : Assignment env licence self (markBlockChanged id self)
  | transactionDirty {self : WorldState} {id : AccountId} {row : AccountRow}
      (held : self.world.accounts.row id = some row) (running : Running self)
      (current : row.observation.transaction = self.lifetime.transaction)
      (journaled : row.journaledScope = self.lifetime.scope)
      (changed : row.flags.blockChanged = true)
      (first : row.dirtyTransaction ≠ self.lifetime.transaction) :
      Assignment env licence self (markTransactionDirty id self)
  | wrote {self : WorldState} {id : AccountId} {row : AccountRow} {observed : AccountObservationRow}
      (assignable : Assignable self id row)
      (found : self.observedAccounts[row.observation.index]? = some observed)
      (value : Option Account) (allowed : value.isSome ∨ licence = .finalization)
      (ref : AccountRow → CodeRef) (writes : licence.WritesAccounts) :
      Assignment env licence self (setAccountEffect row.observation.index
        (recordAccountEffect row.current value)
        (self.updateAccount id fun row => { row with current := value, codeRef := ref row }))
  | touched {self : WorldState} {id : AccountId} {row : AccountRow}
      (assignable : Assignable self id row) (first : row.flags.touched = false)
      (writes : licence.WritesAccounts) :
      Assignment env licence self (self.updateAccount id fun row =>
        { row with
          current := some (row.current.getD {})
          flags := { row.flags with touched := true } })
  | wiped {self : WorldState} {id : AccountId} {row : AccountRow} {incarnation : Incarnation}
      {address : Address} (assignable : Assignable self id row)
      (key : self.world.accounts.key id = some address) (allowed : licence.Wipes address)
      (next : row.storageIncarnation.next = some incarnation) :
      Assignment env licence self (markStorageWiped id (row.flags.storageWiped = false)
        (row.wipedTransaction ≠ self.lifetime.transaction) incarnation self)
  | enlisted {self : WorldState} {id : AccountId} {row : AccountRow}
      (assignable : Assignable self id row)
      (first : row.lifecycleTransaction ≠ self.lifetime.transaction) (writes : licence.WritesAccounts) :
      Assignment env licence self (enlist id self.lifetime.transaction self)
  | created {self : WorldState} {id : AccountId} {row : AccountRow}
      {observed : AccountObservationRow} (assignable : Assignable self id row)
      (found : self.observedAccounts[row.observation.index]? = some observed)
      (writes : licence.WritesAccounts) :
      Assignment env licence self (setAccountEffect row.observation.index
        (fun effect => { effect with createdContract := true })
        (self.updateAccount id fun row => { row with flags := { row.flags with created := true } }))
  | selfdestructed {self : WorldState} {id : AccountId} {row : AccountRow}
      {observed : AccountObservationRow} (assignable : Assignable self id row)
      (found : self.observedAccounts[row.observation.index]? = some observed)
      (writes : licence.WritesAccounts) :
      Assignment env licence self (setAccountEffect row.observation.index
        (fun effect => { effect with selfdestruct := true })
        (self.updateAccount id fun row =>
          { row with flags := { row.flags with selfdestructed := true } }))
  | wipeRecorded {self : WorldState} {id : AccountId} {row : AccountRow}
      {observed : AccountObservationRow} (final : licence = .finalization)
      (assignable : Assignable self id row)
      (found : self.observedAccounts[row.observation.index]? = some observed) :
      Assignment env licence self (setAccountEffect row.observation.index
        (fun effect => { effect with storageWiped := true }) self)
  | settledCreation {self : WorldState} {id : AccountId} {row : AccountRow}
      (final : licence = .finalization) (assignable : Assignable self id row) :
      Assignment env licence self (self.updateAccount id fun row =>
        { row with flags := { row.flags with created := false } })
  | settledDestruction {self : WorldState} {id : AccountId} {row : AccountRow}
      (final : licence = .finalization) (assignable : Assignable self id row) :
      Assignment env licence self (self.updateAccount id fun row =>
        { row with flags := { row.flags with created := false, selfdestructed := false } })
  | introduced {self : WorldState} (running : Running self) (introduced : Nat)
      (introduces : licence.Introduces) :
      Assignment env licence self (listIntroduced introduced self)
  | cachedOriginal {self : WorldState} {resolved : ResolvedStorage} {account : AccountRow}
      {row : StorageRow} (accountHeld : self.world.accounts.row resolved.account = some account)
      (owned : Owned resolved self) (held : self.world.storage.row resolved.storage = some row)
      (running : Running self) (notCreated : account.flags.created = false)
      (stale : row.executionOriginalRoot ≠ self.lifetime.root) (root : self.lifetime.root ≠ 0) :
      Assignment env licence self (self.updateStorage resolved.storage fun slot =>
        { slot with
          executionOriginal := effectiveValue account row
          executionOriginalRoot := self.lifetime.root })
  | wroteSlot {self : WorldState} {resolved : ResolvedStorage} {account : AccountRow}
      {row : StorageRow} {observed : StorageObservationRow}
      (storable : Storable self resolved account row)
      (found : self.observedStorage[row.observation.index]? = some observed) (value : U256)
      (writes : licence.WritesSlots) :
      Assignment env licence self (storeSlot resolved account row observed.effect value self)
  | logged {self : WorldState} (running : Running self) (log : HostLog) :
      Assignment env licence self { self with logs := self.logs.append log }
  | cleared (self : WorldState) (logs retainedLogs : LogBuffer) (introduces : licence.Introduces) :
      Assignment env licence self { self with logs, retainedLogs }

/-! ## The discipline of assignments -/

/-- Only the scope and attempt calls assign to the control fields. -/
theorem Assignment.control (step : Assignment env licence self after) : SameControl self after := by
  cases step with
  | wroteSlot =>
      unfold storeSlot journalSlotFirst markStorageDirty
      split <;> split <;> exact rfl
  | _ => exact rfl

/-- Account rows keep their place. -/
theorem Assignment.accountKey (step : Assignment env licence self after) {id : AccountId}
    {address : Address}
    (key : self.world.accounts.key id = some address) :
    after.world.accounts.key id = some address := by
  have assigned : ∀ {state : WorldState} {other : AccountId} {update : AccountRow → AccountRow},
      state.world.accounts.key id = some address →
      (state.updateAccount other update).world.accounts.key id = some address := by
    intro state other update held
    rw [key_updateAccount, held]
  have slotted : ∀ {state : WorldState} {other : StorageId} {update : StorageRow → StorageRow},
      state.world.accounts.key id = some address →
      (state.updateStorage other update).world.accounts.key id = some address := by
    intro state other update held
    rw [accounts_updateStorage, held]
  cases step with
  | admittedAccount address fresh => exact Table.key_admitRow fresh key
  | wroteSlot =>
      apply slotted
      unfold markStorageDirty journalSlotFirst
      split <;> split <;> first | exact assigned (slotted key) | exact assigned key
  | cachedOriginal => exact slotted key
  | boundCode => exact assigned key
  | observedAccount => exact assigned key
  | journaled => exact assigned key
  | blockChanged => exact assigned key
  | transactionDirty => exact assigned key
  | wrote => exact assigned key
  | touched => exact assigned key
  | wiped => exact assigned key
  | enlisted => exact assigned key
  | created => exact assigned key
  | selfdestructed => exact assigned key
  | settledCreation => exact assigned key
  | settledDestruction => exact assigned key
  | observedSlot => exact slotted key
  | _ => exact key

/-- Storage rows keep theirs. -/
theorem Assignment.storageKey (step : Assignment env licence self after) {id : StorageId}
    {key : StorageKey}
    (held : self.world.storage.key id = some key) : after.world.storage.key id = some key := by
  have assigned : ∀ {state : WorldState} {other : AccountId} {update : AccountRow → AccountRow},
      state.world.storage.key id = some key →
      (state.updateAccount other update).world.storage.key id = some key := by
    intro state other update found
    unfold updateAccount World.updateAccount
    split <;> exact found
  have slotted : ∀ {state : WorldState} {other : StorageId} {update : StorageRow → StorageRow},
      state.world.storage.key id = some key →
      (state.updateStorage other update).world.storage.key id = some key := by
    intro state other update found
    unfold updateStorage World.updateStorage
    split
    · exact (Table.key_set ..).trans found
    · exact found
  cases step with
  | admittedSlot owner fresh => exact Table.key_admitRow fresh held
  | wroteSlot =>
      apply slotted
      unfold markStorageDirty journalSlotFirst
      split <;> split <;> first | exact assigned (slotted held) | exact assigned held
  | cachedOriginal => exact slotted held
  | observedSlot => exact slotted held
  | boundCode => exact assigned held
  | observedAccount => exact assigned held
  | journaled => exact assigned held
  | blockChanged => exact assigned held
  | transactionDirty => exact assigned held
  | wrote => exact assigned held
  | touched => exact assigned held
  | wiped => exact assigned held
  | enlisted => exact assigned held
  | created => exact assigned held
  | selfdestructed => exact assigned held
  | settledCreation => exact assigned held
  | settledDestruction => exact assigned held
  | _ => exact held

/-- A sequence of assignments. -/
abbrev Assigned (env : Env) (licence : Licence) : WorldState → WorldState → Prop :=
  Relation.ReflTransGen (Assignment env licence)

theorem Assigned.control (steps : Assigned env licence self after) : SameControl self after := by
  induction steps with
  | refl => rfl
  | tail _ step ih => exact ih.trans step.control

theorem Assigned.accountKey (steps : Assigned env licence self after) {id : AccountId}
    {address : Address}
    (key : self.world.accounts.key id = some address) :
    after.world.accounts.key id = some address := by
  induction steps with
  | refl => exact key
  | tail _ step ih => exact step.accountKey ih

theorem Assigned.storageKey (steps : Assigned env licence self after) {id : StorageId} {key : StorageKey}
    (held : self.world.storage.key id = some key) : after.world.storage.key id = some key := by
  induction steps with
  | refl => exact held
  | tail _ step ih => exact step.storageKey ih

def assignments (env : Env) (licence : Licence) : Discipline WorldState where
  inv _ := True
  rel := Assigned env licence
  refl _ := .refl
  trans := .trans

/-! ## Warmth -/

/-- One change of a call: an assignment, or a warming. -/
inductive Change (env : Env) (licence : Licence) : WorldState → WorldState → Prop
  | assigned {self after : WorldState} (step : Assignment env licence self after) :
      Change env licence self after
  | warmedAccount {self : WorldState} {id : AccountId} {row : AccountRow}
      (held : self.world.accounts.row id = some row) (running : Running self)
      (cold : row.warmTransaction ≠ self.lifetime.transaction) :
      Change env licence self ((self.push (.warmAccount id)).updateAccount id fun row =>
        { row with warmTransaction := self.lifetime.transaction })
  | warmedSlot {self : WorldState} {id : StorageId} {row : StorageRow}
      (held : self.world.storage.row id = some row) (running : Running self)
      (cold : row.warmTransaction ≠ self.lifetime.transaction) :
      Change env licence self ((self.push (.warmStorage id)).updateStorage id fun row =>
        { row with warmTransaction := self.lifetime.transaction })
  | deferredAccount {self : WorldState} {address : Address} {entry : Nat}
      (grows : env.growsOnTouch = true) (running : Running self)
      (cold : (self.deferredWarmth.accounts.value address).getD false = false)
      (found : (self.deferredWarmth.accounts.put address true).find address = some entry) :
      Change env licence self (deferAccount address entry self)
  | deferredSlot {self : WorldState} {key : TransientKey} {entry : Nat}
      (grows : env.growsOnTouch = true) (running : Running self)
      (cold : (self.deferredWarmth.storage.value key).getD false = false)
      (found : (self.deferredWarmth.storage.put key true).find key = some entry) :
      Change env licence self (deferStorage key entry self)

theorem Change.control (step : Change env licence self after) : SameControl self after := by
  cases step with
  | assigned step => exact step.control
  | _ => exact rfl

/-- A sequence of changes. -/
abbrev Changed (env : Env) (licence : Licence) : WorldState → WorldState → Prop :=
  Relation.ReflTransGen (Change env licence)

theorem Changed.control (steps : Changed env licence self after) : SameControl self after := by
  induction steps with
  | refl => rfl
  | tail _ step ih => exact ih.trans step.control

theorem Change.storageKey (step : Change env licence self after) {id : StorageId} {key : StorageKey}
    (held : self.world.storage.key id = some key) : after.world.storage.key id = some key := by
  cases step with
  | assigned step => exact step.storageKey held
  | warmedAccount =>
      unfold updateAccount World.updateAccount
      split <;> exact held
  | warmedSlot =>
      unfold updateStorage World.updateStorage
      split
      · exact (Table.key_set ..).trans held
      · exact held
  | _ => exact held

theorem Changed.storageKey (steps : Changed env licence self after) {id : StorageId} {key : StorageKey}
    (held : self.world.storage.key id = some key) : after.world.storage.key id = some key := by
  induction steps with
  | refl => exact held
  | tail _ step ih => exact step.storageKey ih

theorem Assigned.changed (steps : Assigned env licence self after) : Changed env licence self after := by
  induction steps with
  | refl => exact .refl
  | tail _ step ih => exact ih.tail (.assigned step)

def changes (env : Env) (licence : Licence) : Discipline WorldState where
  inv _ := True
  rel := Changed env licence
  refl _ := .refl
  trans := .trans

end WorldState

end EvmZig.State
