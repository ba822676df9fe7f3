import EvmZig.State.Between
import EvmZig.State.Aged

/-!
# Slots and wipes

A slot is written under the incarnation its account's storage has, and wiping
only takes that incarnation forward.  In every reachable state a slot is
therefore no newer than its account's storage, so one more wipe hides all of it.
-/

set_option autoImplicit false

namespace EvmZig.State

open Lib Zig

namespace WorldState

variable {env : Env} {licence : Licence} {self after last : WorldState}

/-! ## Rows -/

/-- Every slot has an account, and is no newer than the account's storage. -/
structure Reached (state : WorldState) : Prop where
  owner : ∀ id key, state.world.storage.key id = some key →
    (state.world.accounts.key key.account).isSome
  bound : ∀ id key row account, state.world.storage.key id = some key →
    state.world.storage.row id = some row → state.world.accounts.row key.account = some account →
    row.storageIncarnation ≤ account.storageIncarnation

namespace Reached

theorem of_tables (reached : Reached self) (accounts : after.world.accounts = self.world.accounts)
    (storage : after.world.storage = self.world.storage) : Reached after := by
  obtain ⟨owner, bound⟩ := reached
  rw [← accounts, ← storage] at owner bound
  exact ⟨owner, bound⟩

/-- An account row is assigned to, and its storage does not go back. -/
theorem updatedAccount (reached : Reached self) {id : AccountId} {update : AccountRow → AccountRow}
    (accounts : after.world.accounts = (self.updateAccount id update).world.accounts)
    (storage : after.world.storage = self.world.storage)
    (later : ∀ row, self.world.accounts.row id = some row →
      row.storageIncarnation ≤ (update row).storageIncarnation) : Reached after := by
  constructor
  · intro slot key found
    rw [storage] at found
    rw [accounts, key_updateAccount]
    exact reached.owner slot key found
  · intro slot key row account found held owned
    rw [storage] at found held
    rw [accounts] at owned
    cases original : self.world.accounts.row id with
    | none =>
        rw [updateAccount, World.updateAccount, original] at owned
        exact reached.bound slot key row account found held owned
    | some old =>
        obtain ⟨address, place⟩ := Table.key_eq_some_of_row original
        rw [accounts_updateAccount original] at owned
        by_cases here : key.account = id
        · rw [here, Table.row_set_same place] at owned
          cases owned
          have before := reached.bound slot key row old found held (here ▸ original)
          exact before.trans (later old original)
        · rw [Table.row_set_other _ here] at owned
          exact reached.bound slot key row account found held owned

/-- A slot is assigned to, under its old incarnation or its account's. -/
theorem updatedSlot (reached : Reached self) {id : StorageId} {update : StorageRow → StorageRow}
    (accounts : after.world.accounts = self.world.accounts)
    (storage : after.world.storage = (self.updateStorage id update).world.storage)
    (within : ∀ key row account, self.world.storage.key id = some key →
      self.world.storage.row id = some row → self.world.accounts.row key.account = some account →
      (update row).storageIncarnation ≤ account.storageIncarnation) : Reached after := by
  cases original : self.world.storage.row id with
  | none =>
      apply reached.of_tables accounts
      rw [storage, updateStorage, World.updateStorage, original]
  | some old =>
      obtain ⟨place, keyed⟩ := Table.key_eq_some_of_row original
      rw [storage_updateStorage original] at storage
      constructor
      · intro slot key found
        rw [storage, Table.key_set] at found
        rw [accounts]
        exact reached.owner slot key found
      · intro slot key row account found held owned
        rw [storage, Table.key_set] at found
        rw [storage] at held
        rw [accounts] at owned
        by_cases here : slot = id
        · subst here
          rw [Table.row_set_same keyed] at held
          cases held
          exact within key old account found original owned
        · rw [Table.row_set_other _ here] at held
          exact reached.bound slot key row account found held owned

theorem relabelledAccount (reached : Reached self) {id : AccountId} {update : AccountRow → AccountRow}
    (accounts : after.world.accounts = (self.updateAccount id update).world.accounts)
    (storage : after.world.storage = self.world.storage)
    (same : ∀ row, (update row).storageIncarnation = row.storageIncarnation) : Reached after :=
  reached.updatedAccount accounts storage fun row _ => (same row).ge

theorem relabelledSlot (reached : Reached self) {id : StorageId} {update : StorageRow → StorageRow}
    (accounts : after.world.accounts = self.world.accounts)
    (storage : after.world.storage = (self.updateStorage id update).world.storage)
    (same : ∀ row, (update row).storageIncarnation = row.storageIncarnation) : Reached after := by
  apply reached.updatedSlot accounts storage
  intro key row account found held owned
  rw [same]
  exact reached.bound id key row account found held owned

end Reached

theorem storage_updateAccount (id : AccountId) (update : AccountRow → AccountRow) :
    (self.updateAccount id update).world.storage = self.world.storage := by
  unfold updateAccount World.updateAccount
  split <;> rfl

theorem Incarnation.le_next {incarnation next : Incarnation} (follows : incarnation.next = some next) :
    incarnation ≤ next := by
  unfold Incarnation.next at follows
  split at follows
  · cases follows
    exact Nat.le_succ incarnation
  · cases follows

/-! ## Calls -/

namespace Reached

theorem admittedAccount (reached : Reached self) (address : Address)
    (fresh : self.world.accounts.find address = none) (value : AccountRow) :
    Reached (self.withAccounts (self.world.accounts.admitRow address value fresh)) := by
  constructor
  · intro id key found
    obtain ⟨place, owned⟩ := Option.isSome_iff_exists.mp (reached.owner id key found)
    exact Option.isSome_iff_exists.mpr ⟨place, Table.key_admitRow fresh owned⟩
  · intro id key row account found held owned
    obtain ⟨place, owner⟩ := Option.isSome_iff_exists.mp (reached.owner id key found)
    obtain ⟨old, before⟩ := Table.row_eq_some_of_key owner
    have same : (self.world.accounts.admitRow address value fresh).row key.account = some old :=
      Table.row_admitRow fresh before
    cases same.symm.trans owned
    exact reached.bound id key row account found held before

theorem admittedSlot (reached : Reached self) {key : StorageKey} {address : Address}
    (owner : self.world.accounts.key key.account = some address)
    (fresh : self.world.storage.find key = none) (current : U256) :
    Reached (self.withStorage (self.world.storage.admitRow key { current } fresh)) := by
  constructor
  · intro id other found
    have place : (self.world.storage.admitRow key { current } fresh).key id = some other := found
    rcases Table.key_of_admitRow place with before | ⟨-, rfl⟩
    · exact reached.owner id other before
    · exact Option.isSome_iff_exists.mpr ⟨address, owner⟩
  · intro id other row account found held owned
    have place : (self.world.storage.admitRow key { current } fresh).key id = some other := found
    rcases Table.key_of_admitRow place with before | ⟨rfl, -⟩
    · obtain ⟨old, beforeRow⟩ := Table.row_eq_some_of_key before
      have same : (self.world.storage.admitRow key { current } fresh).row id = some old :=
        Table.row_admitRow fresh beforeRow
      cases same.symm.trans held
      exact reached.bound id other row account before beforeRow owned
    · have last := Table.row_admit_last self.world.storage key { current } fresh
      cases last.symm.trans held
      exact Nat.zero_le _

theorem wroteSlot (reached : Reached self) {resolved : ResolvedStorage} {account : AccountRow}
    {row : StorageRow} (storable : Storable self resolved account row) (effect : StorageEffect)
    (value : U256) : Reached (storeSlot resolved account row effect value self) := by
  have journaled : ∀ state, journalSlotFirst resolved.storage row effect self = state →
      Reached state ∧ state.world.accounts = self.world.accounts ∧
        ∀ id, state.world.storage.key id = self.world.storage.key id := by
    rintro state rfl
    unfold journalSlotFirst
    split
    · have pushed : Reached (self.push (.storage (storageUndo resolved.storage row effect))) :=
        reached.of_tables rfl rfl
      refine ⟨pushed.relabelledSlot (accounts_updateStorage ..) rfl fun _ => rfl,
        accounts_updateStorage .., fun id => ?_⟩
      exact (congrArg (Table.key · id) (storage_updateStorage storable.slotHeld _)).trans
        (Table.key_set ..)
    · exact ⟨reached, rfl, fun _ => rfl⟩
  have dirtied : ∀ (state : WorldState) (needsUndo : Bool), Reached state →
      state.world.accounts = self.world.accounts →
      Reached (markStorageDirty resolved.account needsUndo state) ∧
        (markStorageDirty resolved.account needsUndo state).world.storage = state.world.storage ∧
        ∀ held, (markStorageDirty resolved.account needsUndo state).world.accounts.row
          resolved.account = some held → held.storageIncarnation = account.storageIncarnation := by
    intro state needsUndo reached accounts
    have pushed : Reached (if needsUndo then state.push (.accountStorageDirty resolved.account)
        else state) ∧ (if needsUndo then state.push (.accountStorageDirty resolved.account)
        else state).world = state.world := by
      split
      · exact ⟨reached.of_tables rfl rfl, rfl⟩
      · exact ⟨reached, rfl⟩
    refine ⟨pushed.1.relabelledAccount rfl (storage_updateAccount ..) fun _ => rfl, ?_, ?_⟩
    · exact (storage_updateAccount ..).trans (congrArg World.storage pushed.2)
    · intro held found
      obtain ⟨old, before, same⟩ := row_of_updateAccount found
      rw [pushed.2, accounts, storable.accountHeld] at before
      cases before
      rcases same with rfl | rfl <;> rfl
  obtain ⟨first, accounts, keys⟩ := journaled _ rfl
  obtain ⟨second, storage, incarnation⟩ := dirtied _
    (account.flags.storageDirty = false ∧ account.journaledScope ≠ self.lifetime.scope) first accounts
  refine second.updatedSlot (accounts_updateStorage ..) rfl ?_
  intro key old held found _ owner
  obtain ⟨slot, owned⟩ := storable.owned
  rw [storage, keys, owned] at found
  cases found
  exact (incarnation held owner).ge

/-- Every assignment of a call keeps the slots behind. -/
theorem assignment (reached : Reached self) (step : Assignment env licence self after) :
    Reached after := by
  cases step with
  | admittedAccount address fresh => exact reached.admittedAccount address fresh _
  | admittedSlot owner fresh => exact reached.admittedSlot owner fresh _
  | wroteSlot storable found value => exact reached.wroteSlot storable _ value
  | wiped assignable key allowed next =>
      refine reached.updatedAccount rfl (storage_updateAccount ..) fun row held => ?_
      cases assignable.held.symm.trans held
      exact Incarnation.le_next next
  | observedSlot => exact reached.relabelledSlot (accounts_updateStorage ..) rfl fun _ => rfl
  | cachedOriginal => exact reached.relabelledSlot (accounts_updateStorage ..) rfl fun _ => rfl
  | observedAccount => exact reached.relabelledAccount rfl (storage_updateAccount ..) fun _ => rfl
  | boundCode => exact reached.relabelledAccount rfl (storage_updateAccount ..) fun _ => rfl
  | journaled =>
      exact (reached.of_tables rfl rfl).relabelledAccount rfl (storage_updateAccount ..) fun _ => rfl
  | blockChanged => exact reached.relabelledAccount rfl (storage_updateAccount ..) fun _ => rfl
  | transactionDirty => exact reached.relabelledAccount rfl (storage_updateAccount ..) fun _ => rfl
  | wrote => exact reached.relabelledAccount rfl (storage_updateAccount ..) fun _ => rfl
  | touched => exact reached.relabelledAccount rfl (storage_updateAccount ..) fun _ => rfl
  | enlisted => exact reached.relabelledAccount rfl (storage_updateAccount ..) fun _ => rfl
  | created => exact reached.relabelledAccount rfl (storage_updateAccount ..) fun _ => rfl
  | selfdestructed => exact reached.relabelledAccount rfl (storage_updateAccount ..) fun _ => rfl
  | settledCreation => exact reached.relabelledAccount rfl (storage_updateAccount ..) fun _ => rfl
  | settledDestruction => exact reached.relabelledAccount rfl (storage_updateAccount ..) fun _ => rfl
  | _ => exact reached.of_tables rfl rfl

theorem assigned (reached : Reached self) (steps : Assigned env licence self after) :
    Reached after := by
  induction steps with
  | refl => exact reached
  | tail _ step ih => exact ih.assignment step

theorem changed (reached : Reached self) (steps : Changed env licence self after) :
    Reached after := by
  induction steps with
  | refl => exact reached
  | tail _ step ih =>
      cases step with
      | assigned step => exact ih.assignment step
      | warmedAccount =>
          exact (ih.of_tables rfl rfl).relabelledAccount rfl (storage_updateAccount ..) fun _ => rfl
      | warmedSlot =>
          exact (ih.of_tables rfl rfl).relabelledSlot (accounts_updateStorage ..) rfl fun _ => rfl
      | _ => exact ih.of_tables rfl rfl

end Reached

/-! ## Cells -/

/-- The same of the cells. -/
def Behind (cells : Cells) : Prop :=
  ∀ address slot, (cells (.slot address slot)).storageIncarnation ≤
    (cells (.account address)).storageIncarnation

theorem Behind.of_accepted {cells later : Cells} (behind : Behind cells)
    (same : ∀ cell, Accepted cell → later cell = cells cell) : Behind later := by
  intro address slot
  rw [same (.slot address slot) trivial, same (.account address) trivial]
  exact behind address slot

theorem Reached.behind (reached : Reached self) : Behind (self.view env) := by
  intro address slot
  change (self.storageAt env address slot).storageIncarnation ≤
    (self.accountAt env address).storageIncarnation
  rw [storageAt_eq_row]
  cases found : self.slotIdAt address slot with
  | none => exact Nat.zero_le _
  | some id =>
      obtain ⟨account, key, owner⟩ := slotOf_eq_some.mp (slotOf_slotIdAt found)
      obtain ⟨row, held⟩ := Table.row_eq_some_of_key key
      obtain ⟨accountRow, owned⟩ := Table.row_eq_some_of_key owner
      rw [accountAt_of_row owner owned, Option.bind_some, held]
      exact reached.bound id _ row accountRow key held owned

theorem Behind.reached (behind : Behind (self.view env)) (stamps : RowStamps self) : Reached self := by
  refine ⟨stamps.owner, fun id key row account found held owned => ?_⟩
  obtain ⟨address, owner⟩ := Table.key_eq_some_of_row owned
  have place : self.slotOf id = some (address, key.slot) :=
    slotOf_eq_some.mpr ⟨key.account, found, owner⟩
  have bound : (self.storageAt env address key.slot).storageIncarnation ≤
      (self.accountAt env address).storageIncarnation := behind address key.slot
  rwa [storageAt_of_row place held, accountAt_of_row owner owned] at bound

/-! ## Finalisation -/

/-- Where finalisation fails, it takes back what it did. -/
theorem finalizeLifecycle_failed {base : Nat} {scope : Generation} {rules : FinalizationRules}
    {error : StateError} (inv : Inv env base scope self)
    (ran : finalizeLifecycle env rules self = .fail error after) :
    Running self ∧ ∃ inner, Under env True self inner ∧ Reverted env True self inner after := by
  obtain ⟨running, inner, loop, reverts⟩ := finalizeLifecycle_error ran
  have start : Under env True self (opened self) := Under.start inv running
  have kept : Keeps (calls env True self.journal.length (self.clock + 1)) Running
      (Action.forEach (finalizeAccount env rules) self.lifecycleAccounts) fun _ => Running :=
    forEach_keeps (finalizeAccount_keeps rules) _
  have allowed := kept (opened self) start.inv running
  rw [loop] at allowed
  have under := start.next allowed.1 allowed.2
  obtain ⟨last, ran, reverted⟩ := revertToCheckpoint_run under inv running under.reaches
  rw [reverts] at ran
  cases ran
  exact ⟨running, inner, under, reverted⟩

/-- Where it returns, it has gone through its list. -/
theorem finalizeLifecycle_returned {rules : FinalizationRules}
    (ran : finalizeLifecycle env rules self = .ok () after) :
    Running self ∧ ((self.lifecycleAccounts = [] ∧ after = self) ∨ ∃ inner,
      Action.forEach (finalizeAccount env rules) self.lifecycleAccounts (opened self) = .ok () inner ∧
        after = committed self.lifetime.scope inner) := by
  obtain ⟨running, empty | ⟨inner, loop, commits⟩⟩ := finalizeLifecycle_ok ran
  · exact ⟨running, .inl empty⟩
  · exact ⟨running, .inr ⟨inner, loop, (commitCheckpoint_ran commits).2⟩⟩

theorem finalizeAccounts_steps {rules : FinalizationRules} {ids : List AccountId}
    (running : Running self) (ran : Action.forEach (finalizeAccount env rules) ids self = .ok () after) :
    Assigned env .finalization self after := by
  have allowed := @finalizeAccounts_assigned env rules ids self trivial running
  rw [ran] at allowed
  exact allowed.2.1

theorem Reached.finalized {rules : FinalizationRules} (reached : Reached self)
    (ran : finalizeLifecycle env rules self = .ok () after) : Reached after := by
  obtain ⟨running, ⟨-, rfl⟩ | ⟨inner, loop, rfl⟩⟩ := finalizeLifecycle_returned ran
  · exact reached
  · have opens : Reached (opened self) := reached.of_tables rfl rfl
    exact (opens.assigned (finalizeAccounts_steps running loop)).of_tables rfl rfl

/-- Every call keeps the slots behind. -/
theorem Reached.called {base : Nat} {scope : Generation} {op : Op} (reached : Reached self)
    (inv : Inv env base scope self) (ends : Nested.EndsIn (op.run env self) after) : Reached after := by
  cases op with
  | finalizeLifecycle rules =>
      rcases ends with ⟨⟨⟩, ran⟩ | ⟨error, ran⟩
      · exact reached.finalized ran
      · obtain ⟨-, inner, -, reverted⟩ := finalizeLifecycle_failed inv ran
        have behind : Behind (after.view env) :=
          reached.behind.of_accepted fun cell accepted => reverted.view cell accepted.watched
        exact behind.reached reverted.stamps
  | setTransientStorage address slot value =>
      have write := @setTransientStorage_run env address slot value self
      rcases ends with ⟨⟨⟩, ran⟩ | ⟨error, ran⟩
      · have outcome : setTransientStorage env address slot value self = .ok () after := ran
        rw [outcome] at write
        cases write with
        | same => exact reached
        | wrote => exact reached.of_tables rfl rfl
      · have outcome : setTransientStorage env address slot value self = .fail error after := ran
        rw [outcome] at write
        cases write
        exact reached.of_tables rfl rfl
  | clearTransientStorage =>
      have outcome : Nested.EndsIn (clearTransientStorage self) after := ends
      rcases clearTransientStorage_run self with stuck | ⟨running, clears⟩
      · rw [stuck] at outcome
        rcases outcome with ⟨_, ran⟩ | ⟨_, ran⟩ <;> cases ran
      · rw [clears] at outcome
        rcases outcome with ⟨_, ran⟩ | ⟨_, ran⟩
        · cases ran
          exact reached.of_tables rfl rfl
        · cases ran
  | _ =>
      cases Op.run_called rfl ends with
      | changed steps => exact reached.changed steps
      | settled final => cases final
      | abandoned final => cases final

end WorldState

end EvmZig.State
