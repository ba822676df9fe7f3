import EvmZig.State.Operations
import EvmZig.Lib.UndoLog

/-!
# The cells of a state

What rollback promises is stated on cells keyed by address and slot.  A key
without a row has the value admission would give it, so admitting a row changes
no cell.  A journal entry is read as the patch of cells it restores.
-/

set_option autoImplicit false

namespace EvmZig.State

open Lib Zig

structure AccountCell where
  current : Option Account
  /-- The flags without `storage_dirty`, which is a cell of its own. -/
  flags : AccountFlags
  journaledScope : Generation
  storageIncarnation : Incarnation
  wipedTransaction : Generation
  dirtyTransaction : Generation
  deriving DecidableEq

structure SlotCell where
  current : U256
  flags : StorageFlags
  journaledScope : Generation
  storageIncarnation : Incarnation
  transactionUndo : TransactionUndoHandle
  deriving DecidableEq

inductive Cell where
  | account (address : Address)
  | storageDirty (address : Address)
  | accountEffect (address : Address)
  | slot (address : Address) (slot : U256)
  | slotEffect (address : Address) (slot : U256)
  | accountWarm (address : Address)
  | slotWarm (address : Address) (slot : U256)
  | deferredAccount (address : Address)
  | deferredSlot (address : Address) (slot : U256)
  | transient (address : Address) (slot : U256)
  deriving DecidableEq

@[reducible] def Cell.Value : Cell → Type
  | .account _ => AccountCell
  | .storageDirty _ => Bool
  | .accountEffect _ => AccountEffect
  | .slot _ _ => SlotCell
  | .slotEffect _ _ => StorageEffect
  | .accountWarm _ => Bool
  | .slotWarm _ _ => Bool
  | .deferredAccount _ => Bool
  | .deferredSlot _ _ => Bool
  | .transient _ _ => U256

abbrev Cells : Type := ∀ cell : Cell, cell.Value

def AccountFlags.withoutStorageDirty (flags : AccountFlags) : AccountFlags :=
  { flags with storageDirty := false }

def AccountRow.cell (row : AccountRow) : AccountCell where
  current := row.current
  flags := row.flags.withoutStorageDirty
  journaledScope := row.journaledScope
  storageIncarnation := row.storageIncarnation
  wipedTransaction := row.wipedTransaction
  dirtyTransaction := row.dirtyTransaction

def StorageRow.cell (row : StorageRow) : SlotCell where
  current := row.current
  flags := row.flags
  journaledScope := row.journaledScope
  storageIncarnation := row.storageIncarnation
  transactionUndo := row.transactionUndo

def AccountUndo.cell (undo : AccountUndo) : AccountCell where
  current := undo.current
  flags := undo.flags.withoutStorageDirty
  journaledScope := undo.journaledScope
  storageIncarnation := undo.storageIncarnation
  wipedTransaction := undo.wipedTransaction
  dirtyTransaction := undo.dirtyTransaction

def StorageUndo.cell (undo : StorageUndo) : SlotCell where
  current := undo.current
  flags := undo.flags
  journaledScope := undo.journaledScope
  storageIncarnation := undo.storageIncarnation
  transactionUndo := undo.transactionUndo

namespace WorldState

variable (env : Env)

/-- The row of an address, or the one admission would add. -/
def accountAt (self : WorldState) (address : Address) : AccountRow :=
  (self.world.accounts.value address).getD (.admitted (env.parentAccount address))

def storageAt (self : WorldState) (address : Address) (slot : U256) : StorageRow :=
  ((self.world.accounts.find address).bind fun account =>
    self.world.storage.value { account, slot }).getD { current := env.parentStorage address slot }

/-- The effect an account row's handle leads to; none outside its transaction. -/
def accountEffect (self : WorldState) (handle : ObservationHandle) : AccountEffect :=
  if handle.transaction = self.lifetime.transaction then
    ((self.observedAccounts[handle.index]?).map (·.effect)).getD {}
  else {}

def storageEffect (self : WorldState) (handle : ObservationHandle) : StorageEffect :=
  if handle.transaction = self.lifetime.transaction then
    ((self.observedStorage[handle.index]?).map (·.effect)).getD {}
  else {}

def view (self : WorldState) : Cells
  | .account address => (self.accountAt env address).cell
  | .storageDirty address => (self.accountAt env address).flags.storageDirty
  | .accountEffect address => self.accountEffect (self.accountAt env address).observation
  | .slot address slot => (self.storageAt env address slot).cell
  | .slotEffect address slot => self.storageEffect (self.storageAt env address slot).observation
  | .accountWarm address =>
      decide ((self.accountAt env address).warmTransaction = self.lifetime.transaction)
  | .slotWarm address slot =>
      decide ((self.storageAt env address slot).warmTransaction = self.lifetime.transaction)
  | .deferredAccount address => (self.deferredWarmth.accounts.value address).getD false
  | .deferredSlot address slot => (self.deferredWarmth.storage.value { address, slot }).getD false
  | .transient address slot => self.transientValue address slot

/-- The address and slot of a storage row. -/
def slotOf (self : WorldState) (id : StorageId) : Option (Address × U256) := do
  let key ← self.world.storage.key id
  let address ← self.world.accounts.key key.account
  return (address, key.slot)

/-! ## Entries as patches -/

def accountPatch (address : Address) (cell : AccountCell) (storageDirty : Bool)
    (effect : AccountEffect) : Patch Cell.Value :=
  ((Patch.silent.also (.account address) cell).also (.storageDirty address) storageDirty).also
    (.accountEffect address) effect

def slotPatch (address : Address) (slot : U256) (cell : SlotCell) (effect : StorageEffect) :
    Patch Cell.Value :=
  (Patch.silent.also (.slot address slot) cell).also (.slotEffect address slot) effect

def entryPatch (self : WorldState) : Entry → Patch Cell.Value
  | .account undo =>
      match self.world.accounts.key undo.account with
      | some address => accountPatch address undo.cell undo.flags.storageDirty undo.effect
      | none => Patch.silent
  | .storage undo =>
      match self.slotOf undo.storage with
      | some (address, slot) => slotPatch address slot undo.cell undo.effect
      | none => Patch.silent
  | .accountStorageDirty id =>
      match self.world.accounts.key id with
      | some address => Patch.silent.also (.storageDirty address) false
      | none => Patch.silent
  | .warmAccount id =>
      match self.world.accounts.key id with
      | some address => Patch.silent.also (.accountWarm address) false
      | none => Patch.silent
  | .warmStorage id =>
      match self.slotOf id with
      | some (address, slot) => Patch.silent.also (.slotWarm address slot) false
      | none => Patch.silent
  | .deferredWarmAccount entry =>
      match self.deferredWarmth.accounts.key entry with
      | some address => Patch.silent.also (.deferredAccount address) false
      | none => Patch.silent
  | .deferredWarmStorage entry =>
      match self.deferredWarmth.storage.key entry with
      | some key => Patch.silent.also (.deferredSlot key.address key.slot) false
      | none => Patch.silent
  | .transientStorage key previous => Patch.silent.also (.transient key.address key.slot) previous
  | .introducedCode => Patch.silent

def log (self : WorldState) : List (Patch Cell.Value) := self.journal.map self.entryPatch

/-! ## Growth -/

/-- The account row was observed in the current transaction. -/
def ObservedAccount (self : WorldState) (id : AccountId) : Prop :=
  ∃ row, self.world.accounts.row id = some row ∧
    row.observation.transaction = self.lifetime.transaction

def ObservedStorage (self : WorldState) (id : StorageId) : Prop :=
  (self.slotOf id).isSome ∧ ∃ row, self.world.storage.row id = some row ∧
    row.observation.transaction = self.lifetime.transaction

/-- Keys and observations are only ever added. -/
structure Grows (before after : WorldState) : Prop where
  accountKey : ∀ id address, before.world.accounts.key id = some address →
    after.world.accounts.key id = some address
  storageKey : ∀ id key, before.world.storage.key id = some key →
    after.world.storage.key id = some key
  deferredAccountKey : ∀ entry address, before.deferredWarmth.accounts.key entry = some address →
    after.deferredWarmth.accounts.key entry = some address
  deferredStorageKey : ∀ entry key, before.deferredWarmth.storage.key entry = some key →
    after.deferredWarmth.storage.key entry = some key
  observedAccount : ∀ id, before.ObservedAccount id → after.ObservedAccount id
  observedStorage : ∀ id row, before.world.storage.row id = some row →
    row.observation.transaction = before.lifetime.transaction →
    ∃ row', after.world.storage.row id = some row' ∧
      row'.observation.transaction = after.lifetime.transaction

theorem Grows.refl (self : WorldState) : Grows self self :=
  ⟨fun _ _ found => found, fun _ _ found => found, fun _ _ found => found,
    fun _ _ found => found, fun _ found => found, fun _ row found same => ⟨row, found, same⟩⟩

theorem Grows.trans {first second third : WorldState} (left : Grows first second)
    (right : Grows second third) : Grows first third where
  accountKey id address found := right.accountKey id address (left.accountKey id address found)
  storageKey id key found := right.storageKey id key (left.storageKey id key found)
  deferredAccountKey entry address found :=
    right.deferredAccountKey entry address (left.deferredAccountKey entry address found)
  deferredStorageKey entry key found :=
    right.deferredStorageKey entry key (left.deferredStorageKey entry key found)
  observedAccount id found := right.observedAccount id (left.observedAccount id found)
  observedStorage id row found same := by
    obtain ⟨middle, middleRow, middleSame⟩ := left.observedStorage id row found same
    exact right.observedStorage id middle middleRow middleSame

theorem Grows.slotOf {before after : WorldState} (grows : Grows before after) {id : StorageId}
    {place : Address × U256} (found : before.slotOf id = some place) :
    after.slotOf id = some place := by
  simp only [WorldState.slotOf, Option.bind_eq_bind, Option.bind_eq_some_iff] at found ⊢
  obtain ⟨key, keyEq, address, addressEq, placeEq⟩ := found
  exact ⟨key, grows.storageKey id key keyEq, address,
    grows.accountKey key.account address addressEq, placeEq⟩

/-- What an entry needs to be undone. -/
def EntryValid (self : WorldState) : Entry → Prop
  | .account undo => self.ObservedAccount undo.account
  | .storage undo => self.ObservedStorage undo.storage
  | .accountStorageDirty id => (self.world.accounts.key id).isSome
  | .warmAccount id => (self.world.accounts.key id).isSome
  | .warmStorage id => (self.slotOf id).isSome
  | .deferredWarmAccount entry => (self.deferredWarmth.accounts.key entry).isSome
  | .deferredWarmStorage entry => (self.deferredWarmth.storage.key entry).isSome
  | .transientStorage _ _ => True
  | .introducedCode => True

theorem ObservedAccount.key {self : WorldState} {id : AccountId}
    (observed : self.ObservedAccount id) : (self.world.accounts.key id).isSome := by
  obtain ⟨row, found, -⟩ := observed
  rw [← Table.row_isSome_iff, found]
  rfl

theorem Grows.entryValid {before after : WorldState} (grows : Grows before after) {entry : Entry}
    (valid : before.EntryValid entry) : after.EntryValid entry := by
  cases entry with
  | account undo => exact grows.observedAccount _ valid
  | storage undo =>
      obtain ⟨known, row, found, same⟩ := valid
      obtain ⟨place, placeEq⟩ := Option.isSome_iff_exists.mp known
      refine ⟨?_, grows.observedStorage _ row found same⟩
      rw [grows.slotOf placeEq]
      rfl
  | accountStorageDirty id =>
      obtain ⟨address, found⟩ := Option.isSome_iff_exists.mp valid
      exact Option.isSome_iff_exists.mpr ⟨address, grows.accountKey id address found⟩
  | warmAccount id =>
      obtain ⟨address, found⟩ := Option.isSome_iff_exists.mp valid
      exact Option.isSome_iff_exists.mpr ⟨address, grows.accountKey id address found⟩
  | warmStorage id =>
      obtain ⟨place, found⟩ := Option.isSome_iff_exists.mp valid
      exact Option.isSome_iff_exists.mpr ⟨place, grows.slotOf found⟩
  | deferredWarmAccount entry =>
      obtain ⟨address, found⟩ := Option.isSome_iff_exists.mp valid
      exact Option.isSome_iff_exists.mpr ⟨address, grows.deferredAccountKey entry address found⟩
  | deferredWarmStorage entry =>
      obtain ⟨key, found⟩ := Option.isSome_iff_exists.mp valid
      exact Option.isSome_iff_exists.mpr ⟨key, grows.deferredStorageKey entry key found⟩
  | transientStorage key previous => trivial
  | introducedCode => trivial

/-- A valid entry restores the same cells in every later state. -/
theorem Grows.entryPatch {before after : WorldState} (grows : Grows before after) {entry : Entry}
    (valid : before.EntryValid entry) : after.entryPatch entry = before.entryPatch entry := by
  cases entry with
  | account undo =>
      obtain ⟨address, found⟩ := Option.isSome_iff_exists.mp (ObservedAccount.key valid)
      simp only [WorldState.entryPatch, found, grows.accountKey _ _ found]
  | storage undo =>
      obtain ⟨place, found⟩ := Option.isSome_iff_exists.mp valid.1
      simp only [WorldState.entryPatch, found, grows.slotOf found]
  | accountStorageDirty id =>
      obtain ⟨address, found⟩ := Option.isSome_iff_exists.mp valid
      simp only [WorldState.entryPatch, found, grows.accountKey _ _ found]
  | warmAccount id =>
      obtain ⟨address, found⟩ := Option.isSome_iff_exists.mp valid
      simp only [WorldState.entryPatch, found, grows.accountKey _ _ found]
  | warmStorage id =>
      obtain ⟨place, found⟩ := Option.isSome_iff_exists.mp valid
      simp only [WorldState.entryPatch, found, grows.slotOf found]
  | deferredWarmAccount entry =>
      obtain ⟨address, found⟩ := Option.isSome_iff_exists.mp valid
      simp only [WorldState.entryPatch, found, grows.deferredAccountKey _ _ found]
  | deferredWarmStorage entry =>
      obtain ⟨key, found⟩ := Option.isSome_iff_exists.mp valid
      simp only [WorldState.entryPatch, found, grows.deferredStorageKey _ _ found]
  | transientStorage key previous => rfl
  | introducedCode => rfl

/-- The log follows the journal. -/
theorem Grows.log {before after : WorldState} (grows : Grows before after)
    (valid : ∀ entry ∈ before.journal, before.EntryValid entry) {entries : Journal}
    (journal : after.journal = entries ++ before.journal) :
    after.log = entries.map after.entryPatch ++ before.log := by
  rw [WorldState.log, journal, List.map_append, WorldState.log]
  congr 1
  apply List.map_congr_left
  intro entry member
  exact grows.entryPatch (valid entry member)

end WorldState

end EvmZig.State
