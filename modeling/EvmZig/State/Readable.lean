import EvmZig.State.Attempts

/-!
# What a caller can read

Values are read by address and slot.  An address without a row has the value a
read would admit it with; `readAccount_value` and `getStorage_value` say that
this is what the calls return.
-/

set_option autoImplicit false

namespace EvmZig.State

open Lib Zig

namespace WorldState

variable (env : Env)

/-- The current value of an account. -/
def accountValue (self : WorldState) (address : Address) : Option Account :=
  (self.accountAt env address).current

/-- The effective value of a slot: zero where its incarnation is not the account's. -/
def storageValue (self : WorldState) (address : Address) (slot : U256) : U256 :=
  effectiveValue (self.accountAt env address) (self.storageAt env address slot)

/-- `accountWarm`. -/
def accountWarm (self : WorldState) (id : AccountId) : Bool :=
  match self.world.accounts.row id with
  | some row =>
      if row.warmTransaction = self.lifetime.transaction then true
      else
        match self.world.accounts.key id with
        | some address => self.deferredAccountWarm env address
        | none => false
  | none => false

def isAccountWarm (self : WorldState) (address : Address) : Bool :=
  match self.findAccount address with
  | some id => self.accountWarm env id
  | none => self.deferredAccountWarm env address

/-- `storageWarm`. -/
def storageWarm (self : WorldState) (id : StorageId) : Bool :=
  match self.world.storage.row id with
  | some row =>
      if row.warmTransaction = self.lifetime.transaction then true
      else
        match self.slotOf id with
        | some place => self.deferredStorageWarm env place.1 place.2
        | none => false
  | none => false

def isStorageWarm (self : WorldState) (address : Address) (slot : U256) : Bool :=
  match self.findAccount address with
  | some account =>
      match self.findStorage account slot with
      | some id => self.storageWarm env id
      | none => self.deferredStorageWarm env address slot
  | none => self.deferredStorageWarm env address slot

/-- The effect an observation view shows for the account. -/
def accountEffectOf (self : WorldState) (address : Address) : AccountEffect :=
  self.accountEffect (self.accountAt env address).observation

def storageEffectOf (self : WorldState) (address : Address) (slot : U256) : StorageEffect :=
  self.storageEffect (self.storageAt env address slot).observation

/-! ## Reads return the values -/

section Reads

variable {env : Env} {strict : Prop} {base : Nat} {scope : Generation} {before after self : WorldState}

/-! ## Warmth in terms of cells -/

theorem deferredAccountWarm_eq (address : Address) :
    self.deferredAccountWarm env address =
      (env.growsOnTouch && self.view env (.deferredAccount address)) := by
  rw [deferredAccountWarm]
  cases env.growsOnTouch <;> rfl

theorem deferredStorageWarm_eq (address : Address) (slot : U256) :
    self.deferredStorageWarm env address slot =
      (env.growsOnTouch && self.view env (.deferredSlot address slot)) := by
  rw [deferredStorageWarm]
  cases env.growsOnTouch <;> rfl

theorem isAccountWarm_eq (transaction : self.lifetime.transaction ≠ 0) (address : Address) :
    self.isAccountWarm env address = (self.view env (.accountWarm address) ||
      (env.growsOnTouch && self.view env (.deferredAccount address))) := by
  rw [← deferredAccountWarm_eq, isAccountWarm]
  simp only [view]
  cases found : self.findAccount address with
  | none =>
      rw [accountAt_of_missing found]
      have cold : (AccountRow.admitted (env.parentAccount address)).warmTransaction ≠
          self.lifetime.transaction := Ne.symm transaction
      rw [decide_eq_false cold, Bool.false_or]
  | some id =>
      have key := Table.find_eq_some.mp found
      obtain ⟨row, held⟩ := Table.row_eq_some_of_key key
      rw [accountAt_of_row key held]
      simp only [accountWarm, held, key]
      by_cases warm : row.warmTransaction = self.lifetime.transaction <;> simp [warm]

theorem isStorageWarm_eq (transaction : self.lifetime.transaction ≠ 0) (address : Address)
    (slot : U256) :
    self.isStorageWarm env address slot = (self.view env (.slotWarm address slot) ||
      (env.growsOnTouch && self.view env (.deferredSlot address slot))) := by
  rw [← deferredStorageWarm_eq, isStorageWarm]
  simp only [view]
  have cold : (0 : Generation) ≠ self.lifetime.transaction := Ne.symm transaction
  cases found : self.findAccount address with
  | none =>
      have missing : self.slotIdAt address slot = none := by
        rw [slotIdAt, show self.world.accounts.find address = none from found]
        rfl
      rw [storageAt_eq_row, missing]
      simp [cold]
  | some account =>
      have accountKey := Table.find_eq_some.mp found
      dsimp only
      cases foundSlot : self.findStorage account slot with
      | none =>
          have missing : self.slotIdAt address slot = none := by
            rw [slotIdAt, show self.world.accounts.find address = some account from found]
            exact foundSlot
          rw [storageAt_eq_row, missing]
          simp [cold]
      | some id =>
          have key := Table.find_eq_some.mp foundSlot
          have place : self.slotOf id = some (address, slot) :=
            slotOf_eq_some.mpr ⟨account, key, accountKey⟩
          obtain ⟨row, held⟩ := Table.row_eq_some_of_key key
          rw [storageAt_of_row place held]
          simp only [storageWarm, held, place]
          by_cases warm : row.warmTransaction = self.lifetime.transaction <;> simp [warm]

end Reads

/-! ## Agreement of two states -/

section Agreement

variable (before after : WorldState)

/-- The accepted branch is the same: values, change lists by key, and introduced code. -/
structure SameBranch : Prop where
  account : ∀ address, after.accountValue env address = before.accountValue env address
  storage : ∀ address slot, after.storageValue env address slot = before.storageValue env address slot
  changes : after.blockChangedAccounts.map after.world.accounts.key =
    before.blockChangedAccounts.map before.world.accounts.key
  wipes : after.blockStorageWipes.map after.world.accounts.key =
    before.blockStorageWipes.map before.world.accounts.key
  dirty : after.dirtyStorage.map after.slotOf = before.dirtyStorage.map before.slotOf
  introduced : after.blockIntroducedCodes = before.blockIntroducedCodes
  code : after.code = before.code

/-- Every value a caller can read inside a session is the same. -/
structure SameReads : Prop where
  account : ∀ address, after.accountValue env address = before.accountValue env address
  flags : ∀ address, (after.accountAt env address).flags = (before.accountAt env address).flags
  storage : ∀ address slot, after.storageValue env address slot = before.storageValue env address slot
  code : ∀ hash, after.code.lookup hash = before.code.lookup hash
  transient : ∀ address slot, after.transientValue address slot = before.transientValue address slot
  accountWarm : ∀ address, after.isAccountWarm env address = before.isAccountWarm env address
  storageWarm : ∀ address slot,
    after.isStorageWarm env address slot = before.isStorageWarm env address slot
  accountEffect : ∀ address, after.accountEffectOf env address = before.accountEffectOf env address
  storageEffect : ∀ address slot,
    after.storageEffectOf env address slot = before.storageEffectOf env address slot
  changedAccounts : after.changedAccounts = before.changedAccounts
  changedStorage : after.changedStorage = before.changedStorage
  /-- Entries a revert left behind are dropped when the attempt is sealed. -/
  wipes : compact (after.rowMark after.wipedNow) after.transactionStorageWipes =
    compact (before.rowMark before.wipedNow) before.transactionStorageWipes
  logs : after.logs = before.logs
  journal : after.journal.length = before.journal.length

variable {env} {before after : WorldState} {outer state : WorldState}

theorem accountValue_eq (self : WorldState) (address : Address) :
    self.accountValue env address = (self.view env (.account address)).current := rfl

theorem storageValue_eq (self : WorldState) (address : Address) (slot : U256) :
    self.storageValue env address slot =
      if (self.view env (.slot address slot)).storageIncarnation ≠
          (self.view env (.account address)).storageIncarnation then 0
      else (self.view env (.slot address slot)).current := rfl

theorem flags_eq (self : WorldState) (address : Address) :
    (self.accountAt env address).flags =
      { (self.view env (.account address)).flags with
        storageDirty := self.view env (.storageDirty address) } := rfl

/-- Rows found through a list of marked accounts are rows of both states. -/
theorem map_accountKey {items : List AccountId} {marked : AccountCell → Bool}
    (exact : Exact (fun id => before.accountMark env marked id = true) items)
    (accountKey : ∀ id address, before.world.accounts.key id = some address →
      after.world.accounts.key id = some address) :
    items.map after.world.accounts.key = items.map before.world.accounts.key := by
  apply List.map_congr_left
  intro id member
  have isMarked := (exact.mem id).mp member
  rw [accountMark] at isMarked
  cases found : before.world.accounts.key id with
  | none =>
      rw [found] at isMarked
      cases isMarked
  | some address => exact accountKey id address found

theorem map_slotOf {items : List StorageId} {marked : SlotCell → Bool}
    (exact : Exact (fun id => before.slotMark env marked id = true) items)
    (accountKey : ∀ id address, before.world.accounts.key id = some address →
      after.world.accounts.key id = some address)
    (storageKey : ∀ id key, before.world.storage.key id = some key →
      after.world.storage.key id = some key) :
    items.map after.slotOf = items.map before.slotOf := by
  apply List.map_congr_left
  intro id member
  have isMarked := (exact.mem id).mp member
  rw [slotMark] at isMarked
  cases found : before.slotOf id with
  | none =>
      rw [found] at isMarked
      cases isMarked
  | some place =>
      obtain ⟨account, key, address⟩ := slotOf_eq_some.mp found
      exact slotOf_eq_some.mpr ⟨account, storageKey id _ key, accountKey account _ address⟩

theorem SameBranch.of_cells (idle : Idle env before)
    (cells : ∀ cell, Accepted cell → after.view env cell = before.view env cell)
    (changes : after.blockChangedAccounts = before.blockChangedAccounts)
    (wipes : after.blockStorageWipes = before.blockStorageWipes)
    (dirty : after.dirtyStorage = before.dirtyStorage)
    (introduced : after.blockIntroducedCodes = before.blockIntroducedCodes)
    (code : after.code = before.code)
    (accountKey : ∀ id address, before.world.accounts.key id = some address →
      after.world.accounts.key id = some address)
    (storageKey : ∀ id key, before.world.storage.key id = some key →
      after.world.storage.key id = some key) : SameBranch env before after where
  account address := by
    rw [accountValue_eq, cells (.account address) trivial, ← accountValue_eq]
  storage address slot := by
    rw [storageValue_eq, cells (.account address) trivial, cells (.slot address slot) trivial,
      ← storageValue_eq]
  changes := by
    rw [changes]
    exact map_accountKey idle.changes accountKey
  wipes := by
    rw [wipes]
    exact map_accountKey idle.wipes accountKey
  dirty := by
    rw [dirty]
    exact map_slotOf idle.dirty accountKey storageKey
  introduced := introduced
  code := code

theorem Discarded.sameBranch {start : WorldState} (discarded : Discarded env start state after)
    (idle : Idle env start) : SameBranch env start after :=
  SameBranch.of_cells idle discarded.cells discarded.blockChangedAccounts
    discarded.blockStorageWipes discarded.dirtyStorage discarded.blockIntroducedCodes
    discarded.code discarded.accountKey discarded.storageKey

/-- What a revert gives back, read by a caller. -/
theorem Reverted.sameReads {base : Nat} {scope : Generation}
    (reverted : Reverted env True outer state after) (under : Under env True outer state)
    (inv : Inv env base scope outer) (running : Running outer) : SameReads env outer after := by
  have active := inv.active running
  have cells : after.view env = outer.view env := by
    funext cell
    apply reverted.view
    cases cell <;> trivial
  have transaction : after.lifetime.transaction ≠ 0 := by
    rw [reverted.lifetime]
    exact active.transaction
  exact {
    account := fun address => by
      rw [accountValue_eq, cells, ← accountValue_eq]
    flags := fun address => by
      rw [flags_eq, cells, ← flags_eq]
    storage := fun address slot => by
      rw [storageValue_eq, cells, ← storageValue_eq]
    code := fun hash => by
      rw [reverted.code]
    transient := fun address slot => congrFun cells (.transient address slot)
    accountWarm := fun address => by
      rw [isAccountWarm_eq transaction, cells, ← isAccountWarm_eq active.transaction]
    storageWarm := fun address slot => by
      rw [isStorageWarm_eq transaction, cells, ← isStorageWarm_eq active.transaction]
    accountEffect := fun address => congrFun cells (.accountEffect address)
    storageEffect := fun address slot => congrFun cells (.slotEffect address slot)
    changedAccounts := reverted.changedAccounts
    changedStorage := reverted.changedStorage
    wipes := by
      have outerMark : ∀ id, outer.accountMark env (wipedMark outer.lifetime.transaction) id =
          outer.rowMark outer.wipedNow id := fun id => accountMark_eq_rowMark (fun _ => rfl) id
      have marks : after.rowMark after.wipedNow = outer.rowMark outer.wipedNow := by
        funext id
        have afterMark : after.accountMark env (wipedMark after.lifetime.transaction) id =
            after.rowMark after.wipedNow id := accountMark_eq_rowMark (fun _ => rfl) id
        rw [← outerMark, ← afterMark, reverted.lifetime, reverted.accountMark under]
        intro current
        exact decide_eq_false (Ne.symm active.transaction)
      obtain ⟨extra, extraEq⟩ := under.follows.lists.transactionStorageWipes
      have listEq : after.transactionStorageWipes = outer.transactionStorageWipes ++ extra := by
        rw [reverted.transactionStorageWipes, ← extraEq]
        rfl
      rw [marks, listEq]
      apply compact_append
      intro id _ isMarked
      apply active.lists.transactionWipes.listed
      rw [outerMark]
      exact isMarked
    logs := reverted.logs trivial
    journal := by
      rw [reverted.journal] }

end Agreement

end WorldState

end EvmZig.State
