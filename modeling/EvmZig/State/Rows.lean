import EvmZig.State.Quiet

/-!
# Assigning to rows

An assignment to one account row changes the cells of its address only, and
likewise for a slot.
-/

set_option autoImplicit false

namespace EvmZig.State

open Lib Zig

/-- The cells of an account row. -/
def Cell.OfAccount (address : Address) : Cell → Prop
  | .account other => other = address
  | .storageDirty other => other = address
  | .accountEffect other => other = address
  | .accountWarm other => other = address
  | _ => False

/-- The cells of a storage row. -/
def Cell.OfSlot (address : Address) (slot : U256) : Cell → Prop
  | .slot other otherSlot => (other, otherSlot) = (address, slot)
  | .slotEffect other otherSlot => (other, otherSlot) = (address, slot)
  | .slotWarm other otherSlot => (other, otherSlot) = (address, slot)
  | _ => False

namespace WorldState

variable {env : Env} {strict : Prop} {base : Nat} {scope : Generation} {before after self : WorldState}

/-! ## Account rows -/

/-- `after` differs from `before` in the row behind `id`, and maybe in fields no cell reads. -/
structure AccountSet (before after : WorldState) (id : AccountId) (row row' : AccountRow) :
    Prop where
  held : before.world.accounts.row id = some row
  accounts : after.world.accounts = before.world.accounts.set id row'
  storage : after.world.storage = before.world.storage
  deferred : after.deferredWarmth = before.deferredWarmth
  transient : after.transientStorage = before.transientStorage
  lifetime : after.lifetime = before.lifetime

theorem updateAccount_of_row {id : AccountId} {row : AccountRow}
    (held : self.world.accounts.row id = some row) (update : AccountRow → AccountRow) :
    self.updateAccount id update =
      { self with world := { self.world with
          accounts := self.world.accounts.set id (update row) } } := by
  rw [updateAccount, World.updateAccount, held]

theorem accounts_updateAccount {id : AccountId} {row : AccountRow}
    (held : self.world.accounts.row id = some row) (update : AccountRow → AccountRow) :
    (self.updateAccount id update).world.accounts = self.world.accounts.set id (update row) := by
  rw [updateAccount_of_row held]

theorem key_updateAccount (id other : AccountId) (update : AccountRow → AccountRow) :
    (self.updateAccount id update).world.accounts.key other = self.world.accounts.key other := by
  cases held : self.world.accounts.row id with
  | none => rw [updateAccount, World.updateAccount, held]
  | some row => rw [accounts_updateAccount held, Table.key_set]

namespace AccountSet

variable {id : AccountId} {row row' : AccountRow}

theorem row_same (set : AccountSet before after id row row') :
    after.world.accounts.row id = some row' := by
  obtain ⟨address, key⟩ := Table.key_eq_some_of_row set.held
  rw [set.accounts]
  exact Table.row_set_same key row'

theorem row_other (set : AccountSet before after id row row') {other : AccountId}
    (differs : other ≠ id) :
    after.world.accounts.row other = before.world.accounts.row other := by
  rw [set.accounts]
  exact Table.row_set_other _ differs row'

theorem key_eq (set : AccountSet before after id row row') (other : AccountId) :
    after.world.accounts.key other = before.world.accounts.key other := by
  rw [set.accounts, Table.key_set]

theorem slotOf_eq (set : AccountSet before after id row row') (place : StorageId) :
    after.slotOf place = before.slotOf place := by
  unfold slotOf
  rw [set.storage]
  cases before.world.storage.key place with
  | none => rfl
  | some key => simp only [Option.bind_eq_bind, Option.bind_some, set.key_eq]

theorem grows (set : AccountSet before after id row row')
    (observed : row.observation.transaction = before.lifetime.transaction →
      row'.observation.transaction = before.lifetime.transaction) : Grows before after where
  accountKey other address found := by rw [set.key_eq, found]
  storageKey other key found := by rw [set.storage, found]
  deferredAccountKey entry address found := by rw [set.deferred, found]
  deferredStorageKey entry key found := by rw [set.deferred, found]
  observedAccount other seen := by
    obtain ⟨held, heldRow, same⟩ := seen
    by_cases here : other = id
    · subst here
      rw [set.held] at heldRow
      cases heldRow
      refine ⟨row', set.row_same, ?_⟩
      rw [set.lifetime]
      exact observed same
    · refine ⟨held, ?_, ?_⟩
      · rw [set.row_other here, heldRow]
      · rw [set.lifetime, same]
  observedStorage other held heldRow same := by
    refine ⟨held, ?_, ?_⟩
    · rw [set.storage, heldRow]
    · rw [set.lifetime, same]

theorem at_same (set : AccountSet before after id row row') {address : Address}
    (key : before.world.accounts.key id = some address) :
    after.accountAt env address = row' :=
  accountAt_of_row (by rw [set.key_eq, key]) set.row_same

theorem at_other (set : AccountSet before after id row row') {address other : Address}
    (key : before.world.accounts.key id = some address) (differs : other ≠ address) :
    after.accountAt env other = before.accountAt env other := by
  rw [accountAt, accountAt, set.accounts, Table.value_set_other key differs]

theorem storageAt_eq (set : AccountSet before after id row row') (address : Address)
    (slot : U256) : after.storageAt env address slot = before.storageAt env address slot := by
  rw [storageAt, storageAt, set.accounts, set.storage, Table.find_set]

/-- Cells of other addresses, and of slots, keep their values. -/
theorem view_other (set : AccountSet before after id row row') {address : Address}
    (key : before.world.accounts.key id = some address)
    (accountEffects : ∀ other, other ≠ address →
      after.accountEffect (before.accountAt env other).observation =
        before.accountEffect (before.accountAt env other).observation)
    (storageEffects : after.observedStorage = before.observedStorage)
    {cell : Cell} (elsewhere : ¬cell.OfAccount address) :
    after.view env cell = before.view env cell := by
  cases cell with
  | account other =>
      have differs : other ≠ address := fun same => elsewhere same
      simp only [view, set.at_other key differs]
  | storageDirty other =>
      have differs : other ≠ address := fun same => elsewhere same
      simp only [view, set.at_other key differs]
  | accountEffect other =>
      have differs : other ≠ address := fun same => elsewhere same
      simp only [view, set.at_other key differs, accountEffects other differs]
  | slot other slot => simp only [view, set.storageAt_eq]
  | slotEffect other slot =>
      simp only [view, set.storageAt_eq, storageEffect, set.lifetime, storageEffects]
  | accountWarm other =>
      have differs : other ≠ address := fun same => elsewhere same
      simp only [view, set.at_other key differs, set.lifetime]
  | slotWarm other slot => simp only [view, set.storageAt_eq, set.lifetime]
  | deferredAccount other => simp only [view, set.deferred]
  | deferredSlot other slot => simp only [view, set.deferred]
  | transient other slot => simp only [view, transientValue, set.transient]

theorem stamps (set : AccountSet before after id row row') (clock : after.clock = before.clock)
    (warm : row'.warmTransaction ≤ before.clock)
    (observation : row'.observation.transaction ≤ before.clock) (held : RowStamps before) :
    RowStamps after where
  account other otherRow found := by
    rw [clock]
    rw [set.accounts] at found
    rcases Table.row_of_set set.held found with ⟨rfl, rfl⟩ | found
    · exact ⟨warm, observation⟩
    · exact held.account other otherRow found
  storage other otherRow found := by
    rw [clock]
    rw [set.storage] at found
    exact held.storage other otherRow found
  owner other key found := by
    rw [set.storage] at found
    rw [set.key_eq]
    exact held.owner other key found

/-- The row keeps its handle, and the records keep their owners. -/
theorem handles (set : AccountSet before after id row row')
    (handle : row'.observation = row.observation)
    (owners : after.observedAccounts.map (·.account) = before.observedAccounts.map (·.account))
    (storageOwners : after.observedStorage = before.observedStorage) (held : Handles before) :
    Handles after where
  account other otherRow found same := by
    rw [← List.getElem?_map, owners, List.getElem?_map]
    rw [set.lifetime] at same
    rw [set.accounts] at found
    rcases Table.row_of_set set.held found with ⟨rfl, rfl⟩ | found
    · rw [handle] at same ⊢
      exact held.account other row set.held same
    · exact held.account other otherRow found same
  storage other otherRow found same := by
    rw [set.storage] at found
    rw [set.lifetime] at same
    rw [storageOwners]
    exact held.storage other otherRow found same

end AccountSet

/-! ## Storage rows -/

structure StorageSet (before after : WorldState) (id : StorageId) (row row' : StorageRow) :
    Prop where
  held : before.world.storage.row id = some row
  storage : after.world.storage = before.world.storage.set id row'
  accounts : after.world.accounts = before.world.accounts
  deferred : after.deferredWarmth = before.deferredWarmth
  transient : after.transientStorage = before.transientStorage
  lifetime : after.lifetime = before.lifetime

theorem updateStorage_of_row {id : StorageId} {row : StorageRow}
    (held : self.world.storage.row id = some row) (update : StorageRow → StorageRow) :
    self.updateStorage id update =
      { self with world := { self.world with
          storage := self.world.storage.set id (update row) } } := by
  rw [updateStorage, World.updateStorage, held]

theorem storage_updateStorage {id : StorageId} {row : StorageRow}
    (held : self.world.storage.row id = some row) (update : StorageRow → StorageRow) :
    (self.updateStorage id update).world.storage = self.world.storage.set id (update row) := by
  rw [updateStorage_of_row held]

theorem accounts_updateStorage (id : StorageId) (update : StorageRow → StorageRow) :
    (self.updateStorage id update).world.accounts = self.world.accounts := by
  rw [updateStorage, World.updateStorage]
  split <;> rfl

namespace StorageSet

variable {id : StorageId} {row row' : StorageRow}

theorem row_same (set : StorageSet before after id row row') :
    after.world.storage.row id = some row' := by
  obtain ⟨key, keyEq⟩ := Table.key_eq_some_of_row set.held
  rw [set.storage]
  exact Table.row_set_same keyEq row'

theorem row_other (set : StorageSet before after id row row') {other : StorageId}
    (differs : other ≠ id) :
    after.world.storage.row other = before.world.storage.row other := by
  rw [set.storage]
  exact Table.row_set_other _ differs row'

theorem key_eq (set : StorageSet before after id row row') (other : StorageId) :
    after.world.storage.key other = before.world.storage.key other := by
  rw [set.storage, Table.key_set]

theorem slotOf_eq (set : StorageSet before after id row row') (other : StorageId) :
    after.slotOf other = before.slotOf other := by
  unfold slotOf
  rw [set.key_eq, set.accounts]

theorem grows (set : StorageSet before after id row row')
    (observed : row.observation.transaction = before.lifetime.transaction →
      row'.observation.transaction = before.lifetime.transaction) : Grows before after where
  accountKey other address found := by rw [set.accounts, found]
  storageKey other key found := by rw [set.key_eq, found]
  deferredAccountKey entry address found := by rw [set.deferred, found]
  deferredStorageKey entry key found := by rw [set.deferred, found]
  observedAccount other seen := by
    obtain ⟨held, heldRow, same⟩ := seen
    refine ⟨held, ?_, ?_⟩
    · rw [set.accounts, heldRow]
    · rw [set.lifetime, same]
  observedStorage other held heldRow same := by
    by_cases here : other = id
    · subst here
      rw [set.held] at heldRow
      cases heldRow
      refine ⟨row', set.row_same, ?_⟩
      rw [set.lifetime]
      exact observed same
    · refine ⟨held, ?_, ?_⟩
      · rw [set.row_other here, heldRow]
      · rw [set.lifetime, same]

theorem accountAt_eq (set : StorageSet before after id row row') (address : Address) :
    after.accountAt env address = before.accountAt env address := by
  rw [accountAt, accountAt, set.accounts]

theorem at_same (set : StorageSet before after id row row') {address : Address} {slot : U256}
    (place : before.slotOf id = some (address, slot)) :
    after.storageAt env address slot = row' :=
  storageAt_of_row (by rw [set.slotOf_eq, place]) set.row_same

theorem at_other (set : StorageSet before after id row row') {address other : Address}
    {slot otherSlot : U256} (place : before.slotOf id = some (address, slot))
    (differs : (other, otherSlot) ≠ (address, slot)) :
    after.storageAt env other otherSlot = before.storageAt env other otherSlot := by
  obtain ⟨account, keyEq, addressEq⟩ := slotOf_eq_some.mp place
  rw [storageAt, storageAt, set.accounts]
  cases held : before.world.accounts.find other with
  | none => rfl
  | some otherAccount =>
      rw [Option.bind_some, Option.bind_some, set.storage, Table.value_set_other keyEq]
      intro same
      cases same
      have otherKey := Table.find_eq_some.mp held
      rw [addressEq] at otherKey
      cases otherKey
      exact differs rfl

theorem view_other (set : StorageSet before after id row row') {address : Address} {slot : U256}
    (place : before.slotOf id = some (address, slot))
    (storageEffects : ∀ other otherSlot, (other, otherSlot) ≠ (address, slot) →
      after.storageEffect (before.storageAt env other otherSlot).observation =
        before.storageEffect (before.storageAt env other otherSlot).observation)
    (accountEffects : after.observedAccounts = before.observedAccounts)
    {cell : Cell} (elsewhere : ¬cell.OfSlot address slot) :
    after.view env cell = before.view env cell := by
  cases cell with
  | account other => simp only [view, set.accountAt_eq]
  | storageDirty other => simp only [view, set.accountAt_eq]
  | accountEffect other =>
      simp only [view, set.accountAt_eq, accountEffect, set.lifetime, accountEffects]
  | slot other otherSlot =>
      have differs : (other, otherSlot) ≠ (address, slot) := fun same => elsewhere same
      simp only [view, set.at_other place differs]
  | slotEffect other otherSlot =>
      have differs : (other, otherSlot) ≠ (address, slot) := fun same => elsewhere same
      simp only [view, set.at_other place differs, storageEffects other otherSlot differs]
  | accountWarm other => simp only [view, set.accountAt_eq, set.lifetime]
  | slotWarm other otherSlot =>
      have differs : (other, otherSlot) ≠ (address, slot) := fun same => elsewhere same
      simp only [view, set.at_other place differs, set.lifetime]
  | deferredAccount other => simp only [view, set.deferred]
  | deferredSlot other otherSlot => simp only [view, set.deferred]
  | transient other otherSlot => simp only [view, transientValue, set.transient]

theorem stamps (set : StorageSet before after id row row') (clock : after.clock = before.clock)
    (warm : row'.warmTransaction ≤ before.clock)
    (observation : row'.observation.transaction ≤ before.clock) (held : RowStamps before) :
    RowStamps after where
  account other otherRow found := by
    rw [clock]
    rw [set.accounts] at found
    exact held.account other otherRow found
  storage other otherRow found := by
    rw [clock]
    rw [set.storage] at found
    rcases Table.row_of_set set.held found with ⟨rfl, rfl⟩ | found
    · exact ⟨warm, observation⟩
    · exact held.storage other otherRow found
  owner other key found := by
    rw [set.key_eq] at found
    rw [set.accounts]
    exact held.owner other key found

theorem handles (set : StorageSet before after id row row')
    (handle : row'.observation = row.observation)
    (owners : after.observedStorage.map (·.storage) = before.observedStorage.map (·.storage))
    (accountOwners : after.observedAccounts = before.observedAccounts) (held : Handles before) :
    Handles after where
  account other otherRow found same := by
    rw [set.accounts] at found
    rw [set.lifetime] at same
    rw [accountOwners]
    exact held.account other otherRow found same
  storage other otherRow found same := by
    rw [← List.getElem?_map, owners, List.getElem?_map]
    rw [set.lifetime] at same
    rw [set.storage] at found
    rcases Table.row_of_set set.held found with ⟨rfl, rfl⟩ | found
    · rw [handle] at same ⊢
      exact held.storage other row set.held same
    · exact held.storage other otherRow found same

end StorageSet


/-! ## Rows after an update -/

theorem row_of_updateAccount {id other : AccountId} {update : AccountRow → AccountRow}
    {row : AccountRow} (held : (self.updateAccount id update).world.accounts.row other = some row) :
    ∃ old, self.world.accounts.row other = some old ∧ (row = old ∨ row = update old) := by
  cases found : self.world.accounts.row id with
  | none =>
      rw [updateAccount, World.updateAccount, found] at held
      exact ⟨row, held, .inl rfl⟩
  | some old =>
      rw [accounts_updateAccount found] at held
      rcases Table.row_of_set found held with ⟨rfl, same⟩ | kept
      · exact ⟨old, found, .inr same⟩
      · exact ⟨row, kept, .inl rfl⟩

theorem row_of_updateStorage {id other : StorageId} {update : StorageRow → StorageRow}
    {row : StorageRow} (held : (self.updateStorage id update).world.storage.row other = some row) :
    ∃ old, self.world.storage.row other = some old ∧ (row = old ∨ row = update old) := by
  cases found : self.world.storage.row id with
  | none =>
      rw [updateStorage, World.updateStorage, found] at held
      exact ⟨row, held, .inl rfl⟩
  | some old =>
      rw [storage_updateStorage found] at held
      rcases Table.row_of_set found held with ⟨rfl, same⟩ | kept
      · exact ⟨old, found, .inr same⟩
      · exact ⟨row, kept, .inl rfl⟩

end WorldState

end EvmZig.State
