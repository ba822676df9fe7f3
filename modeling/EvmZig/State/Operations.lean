import EvmZig.State.WorldState

/-!
# State operations (`src/state/world_state.zig`)

Reads, writes, warmth, transient storage, logs and lifecycle.  `Op` lists the
calls a caller can make inside an attempt.
-/

set_option autoImplicit false

namespace EvmZig.State

open Lib Zig

namespace WorldState

variable (env : Env)

/-! ## Accounts -/

def readAccount (address : Address) (observation : AccountObservation) :
    Method (Option Account) := do
  let id ← requireAccount env address
  let isOpen ← isAttemptOpen
  Action.when (isOpen = true) (observeAccount env id observation)
  let row ← accountRow id
  return row.current

def getAccount (address : Address) : Method (Option Account) :=
  readAccount env address { accessed := true, valueRead := true }

def accountExists (address : Address) : Method Bool := do
  let account ← readAccount env address { accessed := true, existenceRead := true }
  return account.isSome

def getBalance (address : Address) : Method U256 := do
  let account ← readAccount env address { accessed := true, valueRead := true }
  return match account with
    | some account => account.balance
    | none => 0

def getNonce (address : Address) : Method U64 := do
  let account ← readAccount env address { accessed := true, valueRead := true }
  return match account with
    | some account => account.nonce
    | none => 0

/-- `getCodeHash`, before the conversion to a word. -/
def getCodeHash (address : Address) : Method (Option CodeHash) := do
  let account ← readAccount env address { accessed := true, valueRead := true }
  return account.map (·.codeHash)

def accountHasCode (address : Address) : Method Bool := do
  let account ← readAccount env address { accessed := true, valueRead := true }
  return match account with
    | some account => account.codeHash ≠ keccak256Empty
    | none => false

/-- `cachedCode(hash) orelse lookup(hash) orelse loadCode(hash)`. -/
def findCode (codeHash : CodeHash) : Method CodeView := do
  let self ← Action.get
  match self.world.cachedCode env codeHash with
  | some view => return view
  | none =>
      match ← self.code.lookup codeHash with
      | some view => return view
      | none => loadCode env codeHash

def bindCode (id : AccountId) : Method CodeView := do
  let row ← accountRow id
  let self ← Action.get
  let codeHash := accountCodeHash row.current
  match self.code.bindParent codeHash with
  | some ref =>
      Action.modify (updateAccount id fun row => { row with codeRef := ref })
      match ← self.code.view ref with
      | some view => return view
      | none => Action.illegal
  | none =>
      let view ← findCode env codeHash
      Action.assert fun _ => view.codeHash = codeHash
      return view

def getCodeView (address : Address) : Method CodeView := do
  let id ← requireAccount env address
  let isOpen ← isAttemptOpen
  Action.when (isOpen = true) (observeAccount env id { accessed := true, codeRead := true })
  let row ← accountRow id
  let self ← Action.get
  match ← self.code.view row.codeRef with
  | some view => return view
  | none => bindCode env id

def setBalance (address : Address) (balance : U256) : Method Unit := do
  let id ← requireAccount env address
  let row ← accountRow id
  let account := row.current.getD {}
  if row.current.isSome = true ∧ account.balance = balance then return ()
  else writeAccount env id (some { account with balance })

def addBalance (address : Address) (value : U256) : Method Unit := do
  if value = 0 then return ()
  else
    let balance ← getBalance env address
    if fits : balance.val + value.val < 2 ^ 256 then
      setBalance env address ⟨balance.val + value.val, fits⟩
    else Action.fail .balanceOverflow

def subtractBalance (address : Address) (value : U256) : Method Bool := do
  if value = 0 then return true
  else
    let balance ← getBalance env address
    if balance < value then return false
    else
      setBalance env address (balance - value)
      return true

def setNonce (address : Address) (nonce : U64) : Method Unit := do
  let id ← requireAccount env address
  let row ← accountRow id
  let account := row.current.getD {}
  if row.current.isSome = true ∧ account.nonce = nonce then return ()
  else writeAccount env id (some { account with nonce })

/-- `worldParentCode`. -/
def worldParentCode (bytes : Bytes) : Method (Option CodeView) := do
  if env.cachesParentCode = false then return none
  else if bytes.length = 0 then return none
  else
    let self ← Action.get
    match self.world.cachedCode env (env.keccak256 bytes) with
    | none => return none
    | some view =>
        Action.assert fun _ => view.bytes = bytes
        return some view

/-- The code an account row takes without a new entry in the store, or the hash to enter. -/
def resolveCode (bytes : Bytes) : Method (CodeStore.CacheResult ⊕ CodeHash) := do
  match ← worldParentCode env bytes with
  | some view => return .inl { view, ref := .missing, newlyIntroduced := none }
  | none =>
      let self ← Action.get
      match ← self.code.lookahead env.keccak256 bytes with
      | .known result => return .inl result
      | .collision => Action.fail .codeHashCollision
      | .fresh hash => return .inr hash

/-- Append fresh code to the store. -/
def admitCode (hash : CodeHash) (bytes : Bytes) : Method CodeStore.CacheResult := fun self =>
  match fresh : self.code.introduced.find hash with
  | some _ => .illegal
  | none =>
      let id := self.code.introduced.count
      let ref := CodeRef.index (self.code.parent.length + id)
      .ok { view := { codeHash := hash, bytes, ref }, ref, newlyIntroduced := some id }
        { self with code := { self.code with
            introduced := self.code.introduced.admitRow hash bytes fresh } }

/-- The end of `cacheIntroduced`: enter fresh code into the store. -/
def enterIntroduced (hash : CodeHash) (bytes : Bytes) : Method CodeStore.CacheResult := do
  let self ← Action.get
  if self.code.parent.length + self.code.introduced.count = CodeRef.maxIndexed then
    Action.fail .resourceLimitExceeded
  else
    reserve env
    reserve env
    admitCode hash bytes

/-- The write of `setCode` once the code is known. -/
def assignCode (id : AccountId) (cached : CodeStore.CacheResult) : Method Unit := do
  let row ← accountRow id
  let previous := row.current
  let account : Account := { previous.getD {} with codeHash := cached.view.codeHash }
  Action.modify (updateAccount id fun row =>
    { row with current := some account, codeRef := cached.ref })
  updateAccountEffect id (recordAccountEffect previous (some account))

/-- The part of `setCode` under its `errdefer`. -/
def introduceCode (id : AccountId) (cached : CodeStore.CacheResult) (introduced : Nat) :
    Method Unit := do
  reserve env
  reserve env
  prepareAccountMutation env id
  Action.modify fun self =>
    { self with
      blockIntroducedCodes := self.blockIntroducedCodes ++ [introduced]
      journal := .introducedCode :: self.journal }
  assignCode id cached

def setCode (address : Address) (bytes : Bytes) : Method Unit := do
  let id ← requireAccount env address
  observeAccount env id { accessed := true, semanticAccess := true, valueRead := true }
  let introducedLen ← Action.read (·.code.introducedLen)
  match ← resolveCode env bytes with
  | .inl cached =>
      prepareAccountMutation env id
      assignCode id cached
  | .inr hash =>
      let cached ← enterIntroduced env hash bytes
      match cached.newlyIntroduced with
      | none => Action.illegal
      | some introduced =>
          Action.errdefer
            (fun self => { self with code := self.code.truncateIntroduced introducedLen })
            (introduceCode env id cached introduced)

def clearCode (address : Address) : Method Unit := setCode env address []

def touchAccount (address : Address) : Method Unit := do
  let id ← requireAccount env address
  observeAccount env id { accessed := true }
  let row ← accountRow id
  if row.flags.touched then return ()
  else
    prepareAccountMutation env id
    Action.modify (updateAccount id fun row =>
      { row with
        current := some (row.current.getD {})
        flags := { row.flags with touched := true } })

/-! ## Warmth -/

def deferredAccountWarm (self : WorldState) (address : Address) : Bool :=
  if env.growsOnTouch then (self.deferredWarmth.accounts.value address).getD false else false

def deferredStorageWarm (self : WorldState) (address : Address) (slot : U256) : Bool :=
  if env.growsOnTouch then (self.deferredWarmth.storage.value { address, slot }).getD false
  else false

def warmAccountId (id : AccountId) : Method Bool := do
  assertSession
  let row ← accountRow id
  let self ← Action.get
  if row.warmTransaction = self.lifetime.transaction then return false
  else
    let address ← accountAddress id
    let wasWarm := self.deferredAccountWarm env address
    reserve env
    Action.modify fun self => (self.push (.warmAccount id)).updateAccount id fun row =>
      { row with warmTransaction := self.lifetime.transaction }
    return !wasWarm

def warmStorageId (id : StorageId) : Method Bool := do
  assertSession
  let row ← storageRow id
  let self ← Action.get
  if row.warmTransaction = self.lifetime.transaction then return false
  else
    let key ← storageKey id
    let address ← accountAddress key.account
    let wasWarm := self.deferredStorageWarm env address key.slot
    reserve env
    Action.modify fun self => (self.push (.warmStorage id)).updateStorage id fun row =>
      { row with warmTransaction := self.lifetime.transaction }
    return !wasWarm

/-- Make the key warm and journal the entry it is kept in. -/
def deferAccountWarm (address : Address) : Method Bool := do
  assertSession
  let self ← Action.get
  if self.deferredAccountWarm env address then return false
  else
    reserve env
    reserve env
    Action.modify fun self =>
      { self with deferredWarmth := { self.deferredWarmth with
          accounts := self.deferredWarmth.accounts.put address true } }
    let self ← Action.get
    let entry ← self.deferredWarmth.accounts.find address
    Action.modify (push (.deferredWarmAccount entry))
    return true

def deferStorageWarm (address : Address) (slot : U256) : Method Bool := do
  assertSession
  let self ← Action.get
  if self.deferredStorageWarm env address slot then return false
  else
    reserve env
    reserve env
    Action.modify fun self =>
      { self with deferredWarmth := { self.deferredWarmth with
          storage := self.deferredWarmth.storage.put { address, slot } true } }
    let self ← Action.get
    let entry ← self.deferredWarmth.storage.find { address, slot }
    Action.modify (push (.deferredWarmStorage entry))
    return true

def accessAccount (address : Address) : Method AccessStatus := do
  let id ← requireAccount env address
  observeAccount env id { accessed := true, semanticAccess := true }
  let cold ← warmAccountId env id
  return if cold then .cold else .warm

def observeAccountAccess (address : Address) : Method Unit := do
  let id ← requireAccount env address
  observeAccount env id { accessed := true, semanticAccess := true }

def warmAccount (address : Address) : Method Unit := do
  match ← resolveAccount env address .optionalWarmOnly with
  | some id =>
      let _ ← warmAccountId env id
      return ()
  | none =>
      if env.growsOnTouch then
        let _ ← deferAccountWarm env address
        return ()
      else return ()

def warmStorageAddress (address : Address) (slot : U256) : Method (Option Bool) := do
  match ← resolveAccount env address .optionalWarmOnly with
  | none =>
      if env.growsOnTouch then some <$> deferStorageWarm env address slot else return none
  | some account =>
      match ← resolveStorage env account slot .optionalWarmOnly with
      | none =>
          if env.growsOnTouch then
            let held ← accountAddress account
            some <$> deferStorageWarm env held slot
          else return none
      | some id => some <$> warmStorageId env id

def warmStorage (address : Address) (slot : U256) : Method Unit := do
  let _ ← warmStorageAddress env address slot
  return ()

def accessStorage (address : Address) (slot : U256) : Method AccessStatus := do
  match ← warmStorageAddress env address slot with
  | none => return .cold
  | some wasCold => return if wasCold then .cold else .warm

/-! ## Storage -/

/-- `resolveStorageKey(address, key, .required_observed).?`. -/
def requireStorage (address : Address) (slot : U256) : Method ResolvedStorage := do
  let account ← requireAccount env address
  match ← resolveStorage env account slot .requiredObserved with
  | some storage => return { account, storage }
  | none => Action.illegal

def readResolvedStorage (resolved : ResolvedStorage) : Method U256 := do
  observeStorage env resolved { accessed := true, valueRead := true }
  resolvedValue resolved

def executionOriginal (resolved : ResolvedStorage) (current : U256) : Method U256 := do
  let account ← accountRow resolved.account
  if account.flags.created then return 0
  else
    let row ← storageRow resolved.storage
    let self ← Action.get
    if row.executionOriginalRoot ≠ self.lifetime.root then
      Action.assert fun self => self.lifetime.root ≠ 0
      Action.modify (updateStorage resolved.storage fun row =>
        { row with
          executionOriginal := current
          executionOriginalRoot := self.lifetime.root })
      return current
    else return row.executionOriginal

def setResolvedStorage (resolved : ResolvedStorage) (value : U256) : Method StorageStatus := do
  observeStorage env resolved { accessed := true, valueRead := true }
  let current ← resolvedValue resolved
  let original ← executionOriginal resolved current
  if current = value then return .assigned
  else
    writeResolvedStorage env resolved value
    return storageStatus original current value

def accessResolvedStorage (resolved : ResolvedStorage) : Method AccessStatus := do
  let cold ← warmStorageId env resolved.storage
  return if cold then .cold else .warm

def getStorage (address : Address) (slot : U256) : Method U256 := do
  let resolved ← requireStorage env address slot
  let isOpen ← isAttemptOpen
  if isOpen = false then resolvedValue resolved
  else
    observeAccount env resolved.account { accessed := true }
    readResolvedStorage env resolved

def loadStorage (address : Address) (slot : U256) : Method (U256 × AccessStatus) := do
  let resolved ← requireStorage env address slot
  observeAccount env resolved.account { accessed := true }
  let accessStatus ← accessResolvedStorage env resolved
  let value ← readResolvedStorage env resolved
  return (value, accessStatus)

def setStorage (address : Address) (slot value : U256) : Method StorageStatus := do
  let resolved ← requireStorage env address slot
  observeAccount env resolved.account { accessed := true }
  setResolvedStorage env resolved value

def storeStorage (address : Address) (slot value : U256) :
    Method (StorageStatus × AccessStatus) := do
  let resolved ← requireStorage env address slot
  observeAccount env resolved.account { accessed := true }
  let accessStatus ← accessResolvedStorage env resolved
  let storageStatus ← setResolvedStorage env resolved value
  return (storageStatus, accessStatus)

/-! ## Transient storage and logs -/

def transientValue (self : WorldState) (address : Address) (slot : U256) : U256 :=
  (self.transientStorage.value { address, slot }).getD 0

def getTransientStorage (address : Address) (slot : U256) : Method U256 := do
  assertSession
  Action.read (·.transientValue address slot)

def setTransientStorage (address : Address) (slot value : U256) : Method Unit := do
  assertSession
  let self ← Action.get
  let previousEntry := self.transientStorage.value { address, slot }
  let previous := previousEntry.getD 0
  if previous = value then return ()
  else
    Action.when (previousEntry = none) (reserve env)
    reserve env
    reserve env
    Action.modify fun self =>
      { self with
        journal := .transientStorage { address, slot } previous :: self.journal
        transientStorage := self.transientStorage.put { address, slot } value }

def clearTransientStorage : Method Unit := do
  assertSession
  Action.modify fun self => { self with transientStorage := Table.empty }

def emitLog (log : HostLog) : Method Unit := do
  assertSession
  if log.topics.length > LogBuffer.maxTopics then Action.fail .tooManyLogTopics
  else
    Action.assert fun self => self.logs.rows.length < u32Max
    reserve env
    reserve env
    reserve env
    Action.modify fun self => { self with logs := self.logs.append log }

def clearLogs : Method Unit :=
  Action.modify fun self =>
    if self.transactionActive then { self with logs := {} } else { self with retainedLogs := {} }

/-! ## Lifecycle -/

/-- `has_open_checkpoint`. -/
def HasOpenCheckpoint (self : WorldState) : Prop := 1 < self.scopeDepth

instance (self : WorldState) : Decidable self.HasOpenCheckpoint :=
  inferInstanceAs (Decidable (_ < _))

def initializeContract (address : Address) (initialNonce : U64) : Method Unit := do
  assertSession
  Action.assert fun self => self.HasOpenCheckpoint
  let id ← requireAccount env address
  let row ← accountRow id
  writeAccount env id
    (some { row.current.getD {} with nonce := initialNonce, codeHash := keccak256Empty })
  wipeStorage env id
  prepareLifecycleMutation env id
  Action.modify (updateAccount id fun row =>
    { row with flags := { row.flags with created := true } })
  updateAccountEffect id fun effect => { effect with createdContract := true }

def createdInTransaction (self : WorldState) (address : Address) : Bool :=
  match self.findAccount address with
  | none => false
  | some id =>
      self.transactionActive && ((self.world.accounts.row id).map (·.flags.created)).getD false

def wasSelfdestructed (self : WorldState) (address : Address) : Bool :=
  match self.findAccount address with
  | none => false
  | some id =>
      self.transactionActive &&
        ((self.world.accounts.row id).map (·.flags.selfdestructed)).getD false

def markSelfdestructed (address : Address) : Method Unit := do
  let id ← requireAccount env address
  let row ← accountRow id
  if row.flags.selfdestructed then return ()
  else
    observeAccount env id { accessed := true, semanticAccess := true }
    prepareLifecycleMutation env id
    Action.modify (updateAccount id fun row =>
      { row with flags := { row.flags with selfdestructed := true } })
    updateAccountEffect id fun effect => { effect with selfdestruct := true }

structure SelfDestructResult where
  transferredValue : U256
  previouslyMarked : Bool

/-- The value transfer of `applySelfDestruct`. -/
def transferRemaining (source beneficiary : Address) (balance : U256)
    (policy : SelfDestructPolicy) (touchZeroBeneficiary : Bool) : Method Unit :=
  if 0 < balance then do
    Action.when (source ≠ beneficiary) (addBalance env beneficiary balance)
    Action.when (policy.clearBalance = true) (setBalance env source 0)
  else
    Action.when (source ≠ beneficiary ∧ touchZeroBeneficiary = true)
      (touchAccount env beneficiary)

def applySelfDestruct (source beneficiary : Address) (policy : SelfDestructPolicy)
    (touchZeroBeneficiary : Bool) : Method SelfDestructResult := do
  assertSession
  Action.assert fun self => self.HasOpenCheckpoint
  let balance ← getBalance env source
  let previouslyMarked ← Action.read (·.wasSelfdestructed source)
  transferRemaining env source beneficiary balance policy touchZeroBeneficiary
  Action.when (policy.markSelfdestructed = true) (markSelfdestructed env source)
  return {
    transferredValue := if source = beneficiary then 0 else balance
    previouslyMarked }

/-- `reset_account`, else `delete_account`. -/
def resetOrDelete (id : AccountId) (policy : SelfDestructFinalization) : Method Unit := do
  if policy.resetAccount then
    let row ← accountRow id
    let account : Account := { row.current.getD {} with nonce := 0, codeHash := keccak256Empty }
    writeAccount env id (if account.balance = 0 then none else some account)
  else Action.when (policy.deleteAccount = true) (writeAccount env id none)

/-- One round of the loop of `finalizeLifecycle` on a self-destructed account. -/
def finalizeSelfdestructed (id : AccountId) (policy : SelfDestructFinalization) :
    Method Unit := do
  Action.when (policy.clearStorage = true) (do
    wipeStorage env id
    updateAccountEffect id fun effect => { effect with storageWiped := true })
  resetOrDelete env id policy
  prepareAccountMutation env id
  Action.modify (updateAccount id fun row =>
    { row with flags := { row.flags with created := false, selfdestructed := false } })

/-- One round of the loop of `finalizeLifecycle`. -/
def finalizeAccount (rules : FinalizationRules) (id : AccountId) : Method Unit := do
  let row ← accountRow id
  if row.flags.created = false ∧ row.flags.selfdestructed = false then return ()
  else if row.flags.selfdestructed = false then
    prepareAccountMutation env id
    Action.modify (updateAccount id fun row =>
      { row with flags := { row.flags with created := false } })
  else
    finalizeSelfdestructed env id
      (if row.flags.created then rules.createdAccount else rules.existingAccount)

/-- `errdefer self.revertToCheckpoint(..)` around the loop, then the commit. -/
def closing (held : Checkpoint) (body : Method Unit) : Method Unit := fun self =>
  match body self with
  | .ok _ after => commitCheckpoint held after
  | .fail error after =>
      match revertToCheckpoint held after with
      | .ok _ reverted => .fail error reverted
      | .fail _ _ => .illegal
      | .illegal => .illegal
  | .illegal => .illegal

def underCheckpoint (body : Method Unit) : Method Unit := do
  let held ← checkpoint
  closing held body

def finalizeLifecycle (rules : FinalizationRules) : Method Unit := do
  assertSession
  let listed ← Action.read (·.lifecycleAccounts)
  if listed = [] then return ()
  else underCheckpoint (Action.forEach (finalizeAccount env rules) listed)

/-! ## Calls -/

/-- A call on the state inside an attempt. -/
inductive Op where
  | getAccount (address : Address)
  | accountExists (address : Address)
  | getBalance (address : Address)
  | getNonce (address : Address)
  | getCodeHash (address : Address)
  | accountHasCode (address : Address)
  | getCodeView (address : Address)
  | setBalance (address : Address) (balance : U256)
  | addBalance (address : Address) (value : U256)
  | subtractBalance (address : Address) (value : U256)
  | setNonce (address : Address) (nonce : U64)
  | setCode (address : Address) (bytes : Bytes)
  | clearCode (address : Address)
  | touchAccount (address : Address)
  | accessAccount (address : Address)
  | observeAccountAccess (address : Address)
  | warmAccount (address : Address)
  | warmStorage (address : Address) (slot : U256)
  | accessStorage (address : Address) (slot : U256)
  | getStorage (address : Address) (slot : U256)
  | loadStorage (address : Address) (slot : U256)
  | setStorage (address : Address) (slot value : U256)
  | storeStorage (address : Address) (slot value : U256)
  | getTransientStorage (address : Address) (slot : U256)
  | setTransientStorage (address : Address) (slot value : U256)
  | emitLog (log : HostLog)
  | initializeContract (address : Address) (initialNonce : U64)
  | applySelfDestruct (source beneficiary : Address) (policy : SelfDestructPolicy)
      (touchZeroBeneficiary : Bool)
  | finalizeLifecycle (rules : FinalizationRules)
  | clearTransientStorage
  | clearLogs

/-- The calls whose effect is not meant to be undone. -/
def Op.clears : Op → Bool
  | .clearTransientStorage => true
  | .clearLogs => true
  | _ => false

/-- Run a call and forget its result. -/
def Op.run (op : Op) : Method Unit :=
  match op with
  | .getAccount address => discard (WorldState.getAccount env address)
  | .accountExists address => discard (WorldState.accountExists env address)
  | .getBalance address => discard (WorldState.getBalance env address)
  | .getNonce address => discard (WorldState.getNonce env address)
  | .getCodeHash address => discard (WorldState.getCodeHash env address)
  | .accountHasCode address => discard (WorldState.accountHasCode env address)
  | .getCodeView address => discard (WorldState.getCodeView env address)
  | .setBalance address balance => WorldState.setBalance env address balance
  | .addBalance address value => WorldState.addBalance env address value
  | .subtractBalance address value => discard (WorldState.subtractBalance env address value)
  | .setNonce address nonce => WorldState.setNonce env address nonce
  | .setCode address bytes => WorldState.setCode env address bytes
  | .clearCode address => WorldState.clearCode env address
  | .touchAccount address => WorldState.touchAccount env address
  | .accessAccount address => discard (WorldState.accessAccount env address)
  | .observeAccountAccess address => WorldState.observeAccountAccess env address
  | .warmAccount address => WorldState.warmAccount env address
  | .warmStorage address slot => WorldState.warmStorage env address slot
  | .accessStorage address slot => discard (WorldState.accessStorage env address slot)
  | .getStorage address slot => discard (WorldState.getStorage env address slot)
  | .loadStorage address slot => discard (WorldState.loadStorage env address slot)
  | .setStorage address slot value => discard (WorldState.setStorage env address slot value)
  | .storeStorage address slot value => discard (WorldState.storeStorage env address slot value)
  | .getTransientStorage address slot => discard (WorldState.getTransientStorage address slot)
  | .setTransientStorage address slot value =>
      WorldState.setTransientStorage env address slot value
  | .emitLog log => WorldState.emitLog env log
  | .initializeContract address nonce => WorldState.initializeContract env address nonce
  | .applySelfDestruct source beneficiary policy touch =>
      discard (WorldState.applySelfDestruct env source beneficiary policy touch)
  | .finalizeLifecycle rules => WorldState.finalizeLifecycle env rules
  | .clearTransientStorage => WorldState.clearTransientStorage
  | .clearLogs => WorldState.clearLogs

end WorldState

end EvmZig.State
