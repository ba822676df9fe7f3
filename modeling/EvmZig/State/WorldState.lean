import EvmZig.State.World

/-!
# Attempts, scopes and rollback (`src/state/world_state.zig`)

Every change of a row is preceded by the undo entry that restores it, once per
scope; a scope is closed by keeping its entries or by unwinding them.  Block
lists only grow inside an attempt and are compacted when it is retained.
-/

set_option autoImplicit false

namespace EvmZig.State

open Lib Zig

namespace WorldState

variable (env : Env)

/-! ## Assertions -/

def SessionActive (self : WorldState) : Prop := self.scopeDepth ≠ 0

instance (self : WorldState) : Decidable self.SessionActive :=
  inferInstanceAs (Decidable (_ ≠ _))

def assertSession : Method Unit := do
  Action.assert fun self => self.transactionActive = true
  Action.assert fun self => self.SessionActive

def assertMutable : Method Unit := do
  Action.assert fun self => self.transactionActive = true
  Action.assert fun self => self.sealed = false
  Action.assert fun self => self.attemptOpen = true

def assertCurrent (attempt : Generation) : Method Unit := do
  Action.assert fun self => self.transactionActive = true
  Action.assert fun self => self.lifetime.transaction = attempt

def assertCheckpoint (checkpoint : Checkpoint) : Method Unit := do
  assertSession
  Action.assert fun self => checkpoint.scope = self.lifetime.scope
  Action.assert fun self => checkpoint.journalLen ≤ self.journal.length
  Action.assert fun self => checkpoint.changedAccountsLen ≤ self.changedAccounts.length
  Action.assert fun self => checkpoint.changedStorageLen ≤ self.changedStorage.length
  Action.assert fun self => self.logs.Reaches checkpoint.logs

/-- `attemptOpen`, with its assertion. -/
def isAttemptOpen : Method Bool := do
  Action.assert fun self => self.attemptOpen = (self.transactionActive && !self.sealed)
  Action.read (·.attemptOpen)

/-! ## The journal -/

def push (entry : Entry) (self : WorldState) : WorldState :=
  { self with journal := entry :: self.journal }

/-- The observation record behind an account row. -/
def accountObservation (id : AccountId) : Method AccountObservationRow := do
  let row ← accountRow id
  let self ← Action.get
  match self.observedAccounts[row.observation.index]? with
  | some observed => return observed
  | none => Action.illegal

def storageObservation (id : StorageId) : Method StorageObservationRow := do
  let row ← storageRow id
  let self ← Action.get
  match self.observedStorage[row.observation.index]? with
  | some observed => return observed
  | none => Action.illegal

/-- Assign to the effect of the observation record at `index`. -/
def setAccountEffect (index : Nat) (update : AccountEffect → AccountEffect) (self : WorldState) :
    WorldState :=
  { self with observedAccounts := self.observedAccounts.modify index fun observed =>
      { observed with effect := update observed.effect } }

def setStorageEffect (index : Nat) (update : StorageEffect → StorageEffect) (self : WorldState) :
    WorldState :=
  { self with observedStorage := self.observedStorage.modify index fun observed =>
      { observed with effect := update observed.effect } }

/-- `self.observed_accounts.items[row.observation.index].effect = ..`. -/
def updateAccountEffect (id : AccountId) (update : AccountEffect → AccountEffect) :
    Method Unit := do
  let row ← accountRow id
  let _ ← accountObservation id
  Action.modify (setAccountEffect row.observation.index update)

def updateStorageEffect (id : StorageId) (update : StorageEffect → StorageEffect) :
    Method Unit := do
  let row ← storageRow id
  let _ ← storageObservation id
  Action.modify (setStorageEffect row.observation.index update)

/-- `appendAccountUndo`. -/
def appendAccountUndo (id : AccountId) : Method Unit := do
  let row ← accountRow id
  let observed ← accountObservation id
  Action.modify fun self => (self.push (.account {
    account := id
    current := row.current
    codeRef := row.codeRef
    flags := row.flags
    journaledScope := row.journaledScope
    storageIncarnation := row.storageIncarnation
    wipedTransaction := row.wipedTransaction
    dirtyTransaction := row.dirtyTransaction
    effect := observed.effect })).updateAccount id fun row =>
      { row with journaledScope := self.lifetime.scope }

/-- `appendStorageUndo`. -/
def appendStorageUndo (id : StorageId) : Method Unit := do
  let row ← storageRow id
  let observed ← storageObservation id
  Action.modify fun self => (self.push (.storage {
    storage := id
    current := row.current
    flags := row.flags
    journaledScope := row.journaledScope
    storageIncarnation := row.storageIncarnation
    transactionUndo := row.transactionUndo
    effect := observed.effect })).updateStorage id fun row =>
      { row with
        transactionUndo :=
          if row.transactionUndo.transaction ≠ self.lifetime.transaction then
            { transaction := self.lifetime.transaction
              index := self.journal.storageUndos.length }
          else row.transactionUndo
        journaledScope := self.lifetime.scope }

/-! ## Observations -/

/-- Merge into the observation record at `index`. -/
def mergeAccountObservation (index : Nat) (observation : AccountObservation) (self : WorldState) :
    WorldState :=
  { self with observedAccounts := self.observedAccounts.modify index fun observed =>
      { observed with observation := observed.observation.merge observation } }

/-- `observeAccountFirst` once its room is reserved. -/
def recordAccountObservation (id : AccountId) (row : AccountRow)
    (observation : AccountObservation) (self : WorldState) : WorldState :=
  { (self.updateAccount id fun row =>
      { row with observation := {
          transaction := self.lifetime.transaction
          index := self.observedAccounts.length } }) with
    observedAccounts := self.observedAccounts ++ [{
      account := id
      original := row.current
      originalStorageIncarnation := row.storageIncarnation
      observation }] }

def observeAccount (id : AccountId) (observation : AccountObservation) : Method Unit := do
  assertMutable
  let row ← accountRow id
  let self ← Action.get
  if row.observation.transaction = self.lifetime.transaction then
    let _ ← accountObservation id
    Action.modify (mergeAccountObservation row.observation.index observation)
  else
    reserve env
    Action.modify (recordAccountObservation id row observation)

/-- `effectiveValue`. -/
def effectiveValue (account : AccountRow) (row : StorageRow) : U256 :=
  if row.storageIncarnation ≠ account.storageIncarnation then 0 else row.current

structure ResolvedStorage where
  account : AccountId
  storage : StorageId

def resolvedValue (resolved : ResolvedStorage) : Method U256 := do
  let account ← accountRow resolved.account
  let row ← storageRow resolved.storage
  return effectiveValue account row

def effectiveStorage (id : StorageId) : Method U256 := do
  let key ← storageKey id
  resolvedValue { account := key.account, storage := id }

/-- The slot value and incarnation before the first write of the attempt. -/
def storageBeforeAttempt (row : StorageRow) : Method (U256 × Incarnation) := do
  let self ← Action.get
  if row.transactionUndo.transaction = self.lifetime.transaction then
    match self.journal.storageUndos[row.transactionUndo.index]? with
    | some undo => return (undo.current, undo.storageIncarnation)
    | none => Action.illegal
  else return (row.current, row.storageIncarnation)

/-- The account's storage incarnation before the attempt. -/
def incarnationBeforeAttempt (id : AccountId) : Method Incarnation := do
  let account ← accountRow id
  let self ← Action.get
  if account.observation.transaction = self.lifetime.transaction then
    (·.originalStorageIncarnation) <$> accountObservation id
  else return account.storageIncarnation

def acceptedStorageValue (id : StorageId) : Method U256 := do
  let self ← Action.get
  if !self.transactionActive then effectiveStorage id
  else
    let key ← storageKey id
    let accountIncarnation ← incarnationBeforeAttempt key.account
    let row ← storageRow id
    let before ← storageBeforeAttempt row
    return if before.2 = accountIncarnation then before.1 else 0

def mergeStorageObservation (index : Nat) (observation : StorageObservation) (self : WorldState) :
    WorldState :=
  { self with observedStorage := self.observedStorage.modify index fun observed =>
      { observed with observation := observed.observation.merge observation } }

/-- `observeStorageFirst` once its room is reserved and the original is known. -/
def recordStorageObservation (id : StorageId) (original : U256)
    (observation : StorageObservation) (self : WorldState) : WorldState :=
  { (self.updateStorage id fun row =>
      { row with observation := {
          transaction := self.lifetime.transaction
          index := self.observedStorage.length } }) with
    observedStorage := self.observedStorage ++ [{ storage := id, original, observation }] }

def observeStorage (resolved : ResolvedStorage) (observation : StorageObservation) :
    Method Unit := do
  assertMutable
  let row ← storageRow resolved.storage
  let self ← Action.get
  if row.observation.transaction = self.lifetime.transaction then
    let _ ← storageObservation resolved.storage
    Action.modify (mergeStorageObservation row.observation.index observation)
  else
    reserve env
    let original ← acceptedStorageValue resolved.storage
    Action.modify (recordStorageObservation resolved.storage original observation)

/-! ## Mutations -/

/-- List the account among the block's changes. -/
def markBlockChanged (id : AccountId) (self : WorldState) : WorldState :=
  { (self.updateAccount id fun row => { row with flags := { row.flags with blockChanged := true } }) with
    blockChangedAccounts := self.blockChangedAccounts ++ [id] }

/-- List the account among the attempt's changes. -/
def markTransactionDirty (id : AccountId) (self : WorldState) : WorldState :=
  { (self.updateAccount id fun row => { row with dirtyTransaction := self.lifetime.transaction }) with
    changedAccounts := self.changedAccounts ++ [id] }

def prepareAccountMutation (id : AccountId) : Method Unit := do
  let row ← accountRow id
  Action.assert fun self => row.observation.transaction = self.lifetime.transaction
  let self ← Action.get
  let needsUndo := row.journaledScope ≠ self.lifetime.scope
  let firstBlockChange := row.flags.blockChanged = false
  let firstTransactionDirty := row.dirtyTransaction ≠ self.lifetime.transaction
  Action.when needsUndo (do reserve env; reserve env)
  Action.when firstBlockChange (reserve env)
  Action.when firstTransactionDirty (reserve env)
  Action.when needsUndo (appendAccountUndo id)
  Action.when firstBlockChange (Action.modify (markBlockChanged id))
  Action.when firstTransactionDirty (Action.modify (markTransactionDirty id))

def prepareLifecycleMutation (id : AccountId) : Method Unit := do
  let row ← accountRow id
  let self ← Action.get
  let firstLifecycle := row.lifecycleTransaction ≠ self.lifetime.transaction
  Action.when firstLifecycle (reserve env)
  prepareAccountMutation env id
  Action.when firstLifecycle (do
    Action.modify (updateAccount id fun row =>
      { row with lifecycleTransaction := self.lifetime.transaction })
    Action.modify fun self => { self with lifecycleAccounts := self.lifecycleAccounts ++ [id] })

def recordAccountEffect (previous current : Option Account) (effect : AccountEffect) :
    AccountEffect :=
  match current with
  | none => { effect with accountDeleted := previous.isSome }
  | some value =>
      match previous with
      | some old =>
          { effect with
            balanceWritten := effect.balanceWritten || old.balance ≠ value.balance
            nonceWritten := effect.nonceWritten || old.nonce ≠ value.nonce
            codeWritten := effect.codeWritten || old.codeHash ≠ value.codeHash }
      | none =>
          { effect with
            balanceWritten := value.balance ≠ 0
            nonceWritten := value.nonce ≠ 0
            codeWritten := value.codeHash ≠ keccak256Empty }

def writeAccount (id : AccountId) (value : Option Account) : Method Unit := do
  assertMutable
  observeAccount env id { accessed := true, semanticAccess := true, valueRead := true }
  prepareAccountMutation env id
  let row ← accountRow id
  let self ← Action.get
  let previous := row.current
  Action.modify (updateAccount id fun row =>
    { row with
      codeRef :=
        if accountCodeHash previous ≠ accountCodeHash value then
          self.code.bind (accountCodeHash value)
        else row.codeRef
      current := value })
  updateAccountEffect id (recordAccountEffect previous value)

/-- Wipe the storage of the row, and list it among the wipes where it is new. -/
def markStorageWiped (id : AccountId) (firstBlockWipe firstTransactionWipe : Bool)
    (incarnation : Incarnation) (self : WorldState) : WorldState :=
  { (self.updateAccount id fun row =>
      { row with
        flags := { row.flags with storageDirty := true, storageWiped := true }
        storageIncarnation := incarnation
        wipedTransaction := self.lifetime.transaction }) with
    blockStorageWipes :=
      if firstBlockWipe then self.blockStorageWipes ++ [id] else self.blockStorageWipes
    transactionStorageWipes :=
      if firstTransactionWipe then self.transactionStorageWipes ++ [id]
      else self.transactionStorageWipes }

def wipeStorage (id : AccountId) : Method Unit := do
  observeAccount env id { accessed := true, semanticAccess := true }
  let original ← accountRow id
  let self ← Action.get
  let firstBlockWipe := original.flags.storageWiped = false
  let firstTransactionWipe := original.wipedTransaction ≠ self.lifetime.transaction
  Action.when firstBlockWipe (reserve env)
  Action.when firstTransactionWipe (reserve env)
  prepareAccountMutation env id
  let row ← accountRow id
  let incarnation ← row.storageIncarnation.next
  Action.modify (markStorageWiped id firstBlockWipe firstTransactionWipe incarnation)

/-- Journal the transition of the account's storage-dirty flag and make it. -/
def markStorageDirty (id : AccountId) (needsUndo : Bool) (self : WorldState) : WorldState :=
  (if needsUndo then self.push (.accountStorageDirty id) else self).updateAccount id fun row =>
    { row with flags := { row.flags with storageDirty := true } }

/-- List the slot among the block's and the attempt's changes where it is new, and write it. -/
def assignStorage (id : StorageId) (firstDirty firstTransactionWrite : Bool) (value : U256)
    (incarnation : Incarnation) (self : WorldState) : WorldState :=
  { self.updateStorage id fun row =>
      { row with
        flags := { row.flags with blockDirty := true }
        current := value
        storageIncarnation := incarnation } with
    dirtyStorage := if firstDirty then self.dirtyStorage ++ [id] else self.dirtyStorage
    changedStorage :=
      if firstTransactionWrite then self.changedStorage ++ [id] else self.changedStorage }

def writeResolvedStorage (resolved : ResolvedStorage) (value : U256) : Method Unit := do
  let account ← accountRow resolved.account
  let row ← storageRow resolved.storage
  Action.assert fun self => row.observation.transaction = self.lifetime.transaction
  let self ← Action.get
  let needsUndo := row.journaledScope ≠ self.lifetime.scope
  let firstDirty := row.flags.blockDirty = false
  let firstTransactionWrite := row.transactionUndo.transaction ≠ self.lifetime.transaction
  let needsAccountFlagUndo :=
    account.flags.storageDirty = false ∧ account.journaledScope ≠ self.lifetime.scope
  Action.when (needsUndo ∨ needsAccountFlagUndo) (reserve env)
  Action.when needsUndo (reserve env)
  Action.when firstDirty (reserve env)
  Action.when firstTransactionWrite (reserve env)
  Action.when needsUndo (appendStorageUndo resolved.storage)
  Action.modify (markStorageDirty resolved.account needsAccountFlagUndo)
  Action.modify (assignStorage resolved.storage firstDirty firstTransactionWrite value
    account.storageIncarnation)
  updateStorageEffect resolved.storage fun _ => { written := true }

/-! ## Rollback -/

/-- Restore what the newest entry saved. -/
def undoEntry (entry : Entry) : Method Unit :=
  match entry with
  | .account undo => do
      Action.modify (updateAccount undo.account fun row =>
        { row with
          current := undo.current
          codeRef := undo.codeRef
          flags := undo.flags
          journaledScope := undo.journaledScope
          storageIncarnation := undo.storageIncarnation
          wipedTransaction := undo.wipedTransaction
          dirtyTransaction := undo.dirtyTransaction })
      updateAccountEffect undo.account fun _ => undo.effect
  | .storage undo => do
      Action.modify (updateStorage undo.storage fun row =>
        { row with
          current := undo.current
          flags := undo.flags
          journaledScope := undo.journaledScope
          storageIncarnation := undo.storageIncarnation
          transactionUndo := undo.transactionUndo })
      updateStorageEffect undo.storage fun _ => undo.effect
  | .accountStorageDirty id => do
      let _ ← accountRow id
      Action.modify (updateAccount id fun row =>
        { row with flags := { row.flags with storageDirty := false } })
  | .warmAccount id => do
      let _ ← accountRow id
      Action.modify (updateAccount id fun row => { row with warmTransaction := 0 })
  | .warmStorage id => do
      let _ ← storageRow id
      Action.modify (updateStorage id fun row => { row with warmTransaction := 0 })
  | .deferredWarmAccount entry => do
      Action.assert fun self => entry < self.deferredWarmth.accounts.count
      Action.modify fun self =>
        { self with deferredWarmth := { self.deferredWarmth with
            accounts := self.deferredWarmth.accounts.set entry false } }
  | .deferredWarmStorage entry => do
      Action.assert fun self => entry < self.deferredWarmth.storage.count
      Action.modify fun self =>
        { self with deferredWarmth := { self.deferredWarmth with
            storage := self.deferredWarmth.storage.set entry false } }
  | .transientStorage key previous =>
      Action.modify fun self =>
        { self with transientStorage := self.transientStorage.put key previous }
  | .introducedCode => do
      let self ← Action.get
      match self.blockIntroducedCodes.getLast? with
      | none => Action.illegal
      | some blockId =>
          Action.assert fun self => blockId + 1 = self.code.introducedLen
          Action.modify fun self =>
            { self with
              blockIntroducedCodes := self.blockIntroducedCodes.dropLast
              code := self.code.truncateIntroduced blockId }

/-- Pop and undo entries; `count` is how many of them are left to pop. -/
def popEntries : Nat → Method Unit
  | 0 => pure ()
  | count + 1 => do
      let self ← Action.get
      match self.journal with
      | [] => Action.illegal
      | entry :: older =>
          Action.modify fun self => { self with journal := older }
          undoEntry entry
          popEntries count

def revertJournalTo (targetLen : Nat) : Method Unit := do
  let self ← Action.get
  popEntries (self.journal.length - targetLen)

/-! ## Scopes -/

/-- `tick`. -/
def tick : Method Generation := do
  Action.assert fun self => self.clock < u32Max
  Action.modify fun self => { self with clock := self.clock + 1 }
  Action.read (·.clock)

def openRoot : Method Unit := do
  let scope ← tick
  Action.modify fun self => { self with lifetime := { self.lifetime with scope, root := scope } }

def openSession : Method Unit := do
  assertMutable
  Action.assert fun self => self.scopeDepth = 0
  openRoot
  Action.modify fun self => { self with scopeDepth := 1 }

def closeSession : Method Unit := do
  assertSession
  Action.assert fun self => self.scopeDepth = 1
  openRoot
  Action.modify fun self => { self with scopeDepth := 0 }

def checkpoint : Method Checkpoint := do
  assertSession
  Action.assert fun self => self.scopeDepth < u32Max
  let parent ← Action.read (·.lifetime.scope)
  let scope ← tick
  Action.modify fun self =>
    { self with
      scopeDepth := self.scopeDepth + 1
      lifetime := { self.lifetime with scope } }
  let self ← Action.get
  return {
    scope
    parentScope := parent
    journalLen := self.journal.length
    changedAccountsLen := self.changedAccounts.length
    changedStorageLen := self.changedStorage.length
    logs := self.logs.checkpoint }

def commitCheckpoint (checkpoint : Checkpoint) : Method Unit := do
  assertCheckpoint checkpoint
  Action.modify fun self =>
    { self with
      lifetime := { self.lifetime with scope := checkpoint.parentScope }
      scopeDepth := self.scopeDepth - 1 }

def revertToCheckpoint (checkpoint : Checkpoint) : Method Unit := do
  assertCheckpoint checkpoint
  Action.modify fun self => { self with transactionScopeReverted := true }
  revertJournalTo checkpoint.journalLen
  Action.modify fun self =>
    { self with
      changedAccounts := self.changedAccounts.take checkpoint.changedAccountsLen
      changedStorage := self.changedStorage.take checkpoint.changedStorageLen
      logs := self.logs.truncate checkpoint.logs
      lifetime := { self.lifetime with scope := checkpoint.parentScope }
      scopeDepth := self.scopeDepth - 1 }

/-! ## Attempts -/

/-- `beginAttempt` and `beginObservedAttempt`. -/
def beginAttemptMode (observe : Bool) : Method Generation := do
  Action.assert fun self => self.transactionActive = false
  Action.assert fun self => self.journal = []
  let transaction ← tick
  Action.modify fun self =>
    { self with
      lifetime := { self.lifetime with transaction }
      observedAttempt := observe
      sealed := false
      transactionActive := true
      attemptOpen := true }
  openRoot
  Action.assert fun self => self.lifecycleAccounts = []
  Action.modify fun self =>
    { self with
      acceptedLen := {
        blockChangedAccounts := self.blockChangedAccounts.length
        blockStorageWipes := self.blockStorageWipes.length
        dirtyStorage := self.dirtyStorage.length
        blockIntroducedCodes := self.blockIntroducedCodes.length }
      changedAccounts := []
      changedStorage := []
      transactionStorageWipes := []
      observedAccounts := []
      observedStorage := []
      logs := {}
      retainedLogs := {} }
  Action.assert fun self => self.transientStorage.count = 0
  return transaction

/-- `finishTransaction`. -/
def finishTransaction (self : WorldState) : WorldState :=
  { self with
    deferredWarmth := ⟨Table.empty, Table.empty⟩
    transactionScopeReverted := false
    transientStorage := Table.empty
    changedAccounts := []
    changedStorage := []
    transactionStorageWipes := []
    lifecycleAccounts := []
    observedAccounts := []
    observedStorage := []
    logs := {}
    journal := []
    transactionActive := false
    observedAttempt := false
    sealed := false
    attemptOpen := false
    lifetime := { self.lifetime with scope := 0, root := 0 }
    scopeDepth := 0 }

/-- The loop of `compactTransactionStorageChanges`: keep the slots whose incarnation is current. -/
def liveSlots : List StorageId → Method (List StorageId)
  | [] => pure []
  | id :: ids => do
      let row ← storageRow id
      let key ← storageKey id
      let account ← accountRow key.account
      let kept ← liveSlots ids
      return if row.storageIncarnation ≠ account.storageIncarnation then kept else id :: kept

def compactTransactionStorageChanges : Method Unit := do
  let self ← Action.get
  let kept ← liveSlots self.changedStorage
  Action.modify fun self => { self with changedStorage := kept }

/-- A compaction pass over account ids: keep the rows that still carry the mark
and consume it, so that a repeat is dropped. -/
def consumeAccounts (marked : WorldState → AccountRow → Bool) (clear : AccountRow → AccountRow) :
    List AccountId → Method (List AccountId)
  | [] => pure []
  | id :: ids => do
      let row ← accountRow id
      let self ← Action.get
      if !marked self row then consumeAccounts marked clear ids
      else
        Action.modify (updateAccount id clear)
        let kept ← consumeAccounts marked clear ids
        return id :: kept

/-- Give the mark back to the rows that were kept. -/
def restoreAccounts (mark : WorldState → AccountRow → AccountRow) (kept : List AccountId) :
    Method Unit :=
  Action.forEach (fun id => do
    let _ ← accountRow id
    Action.modify fun self => self.updateAccount id (mark self)) kept

def compactTransactionStorageWipes : Method Unit := do
  let self ← Action.get
  let kept ← consumeAccounts
    (fun self row => row.wipedTransaction = self.lifetime.transaction)
    (fun row => { row with wipedTransaction := 0 }) self.transactionStorageWipes
  restoreAccounts (fun self row => { row with wipedTransaction := self.lifetime.transaction }) kept
  Action.modify fun self => { self with transactionStorageWipes := kept }

def compactAcceptedAccountChanges : Method Unit := do
  let self ← Action.get
  let start := self.acceptedLen.blockChangedAccounts
  let kept ← consumeAccounts (fun _ row => row.flags.blockChanged)
    (fun row => { row with flags := { row.flags with blockChanged := false } })
    (self.blockChangedAccounts.drop start)
  restoreAccounts
    (fun _ row => { row with flags := { row.flags with blockChanged := true } }) kept
  Action.modify fun self =>
    { self with blockChangedAccounts := self.blockChangedAccounts.take start ++ kept }

def compactAcceptedStorageWipes : Method Unit := do
  let self ← Action.get
  let start := self.acceptedLen.blockStorageWipes
  let kept ← consumeAccounts (fun _ row => row.flags.storageWiped)
    (fun row => { row with flags := { row.flags with storageWiped := false } })
    (self.blockStorageWipes.drop start)
  restoreAccounts
    (fun _ row => { row with flags := { row.flags with storageWiped := true } }) kept
  Action.modify fun self =>
    { self with blockStorageWipes := self.blockStorageWipes.take start ++ kept }

/-- The scan of `compactAcceptedStorageChanges`. -/
def consumeStorage (deduplicate : Bool) : List StorageId → Method (List StorageId)
  | [] => pure []
  | id :: ids => do
      let row ← storageRow id
      if !row.flags.blockDirty then consumeStorage deduplicate ids
      else
        Action.when (deduplicate = true) (Action.modify (updateStorage id fun row =>
          { row with flags := { row.flags with blockDirty := false } }))
        let key ← storageKey id
        let account ← accountRow key.account
        if row.storageIncarnation ≠ account.storageIncarnation then
          Action.modify (updateStorage id fun row =>
            { row with flags := { row.flags with blockDirty := false } })
          consumeStorage deduplicate ids
        else
          let kept ← consumeStorage deduplicate ids
          return id :: kept

def compactAcceptedStorageChanges : Method Unit := do
  let self ← Action.get
  let deduplicate := self.transactionScopeReverted
  let start := if self.transactionStorageWipes ≠ [] then 0 else self.acceptedLen.dirtyStorage
  let kept ← consumeStorage deduplicate (self.dirtyStorage.drop start)
  Action.when (deduplicate = true) (Action.forEach (fun id => do
    let _ ← storageRow id
    Action.modify (updateStorage id fun row =>
      { row with flags := { row.flags with blockDirty := true } })) kept)
  Action.modify fun self => { self with dirtyStorage := self.dirtyStorage.take start ++ kept }

def sealAttempt (attempt : Generation) : Method Unit := do
  assertCurrent attempt
  Action.assert fun self => self.sealed = false
  Action.assert fun self => ¬self.SessionActive
  let self ← Action.get
  Action.forEach (fun id => do
    let row ← accountRow id
    Action.assert fun _ => row.flags.created = false ∧ row.flags.selfdestructed = false)
    self.lifecycleAccounts
  compactTransactionStorageChanges
  Action.when (self.transactionScopeReverted = true) compactTransactionStorageWipes
  Action.modify fun self => { self with sealed := true, attemptOpen := false }

def retainAttempt (attempt : Generation) : Method Unit := do
  assertCurrent attempt
  Action.assert fun self => self.sealed = true
  Action.assert fun self => ¬self.SessionActive
  Action.modify fun self => { self with logs := self.retainedLogs, retainedLogs := self.logs }
  let self ← Action.get
  Action.when (self.transactionScopeReverted = true) compactAcceptedAccountChanges
  Action.when (self.transactionScopeReverted = true) compactAcceptedStorageWipes
  Action.when (self.transactionScopeReverted = true ∨ self.transactionStorageWipes ≠ [])
    compactAcceptedStorageChanges
  Action.modify finishTransaction

def discardAttempt (attempt : Generation) : Method Unit := do
  assertCurrent attempt
  Action.assert fun self => ¬self.SessionActive
  revertJournalTo 0
  Action.modify fun self =>
    { self with
      blockChangedAccounts := self.blockChangedAccounts.take self.acceptedLen.blockChangedAccounts
      blockStorageWipes := self.blockStorageWipes.take self.acceptedLen.blockStorageWipes
      dirtyStorage := self.dirtyStorage.take self.acceptedLen.dirtyStorage
      blockIntroducedCodes :=
        self.blockIntroducedCodes.take self.acceptedLen.blockIntroducedCodes }
  Action.modify finishTransaction

def discardAccepted : Method Unit := do
  Action.assert fun self => self.transactionActive = false
  Action.modify fun self =>
    { self with
      code := self.code.truncateIntroduced 0
      world := self.world.resetRows env
      blockChangedAccounts := []
      blockStorageWipes := []
      dirtyStorage := []
      blockIntroducedCodes := []
      retainedLogs := {}
      worldEpoch := self.worldEpoch + 1
      clock := 0 }

/-- `initWithCodeStore` over a world whose rows have just been reset. -/
def init (parentCode : List ParentCode) : WorldState where
  world := World.resetRows ⟨Table.empty, Table.empty, []⟩ env
  code := { parent := parentCode, introduced := Table.empty }

end WorldState

end EvmZig.State
