import EvmZig.State.LogBuffer
import EvmZig.State.CodeStore

/-!
# Worlds and the state record (`src/state/OpenWorld.zig`, `src/eth/bal/ClosedWorld.zig`)

An open world admits a row on first required access and loads its parent
value; a closed world holds every declared row from the start and refuses any
other key.  What lies outside the state is an `Env`: the hash, the parent
state, and, for each request to the allocator or the reader in turn, whether
it is granted.
-/

set_option autoImplicit false

namespace EvmZig.State

open Lib Zig

/-- The answers of a `Reader`. -/
structure Reader where
  loadAccount : Address → Option Account
  loadCode : CodeHash → Bytes
  loadCodeValidatesHash : Bool
  getStorage : Address → U256 → U256

/-- `trie.Account`. -/
structure ParentAccount where
  nonce : U64
  balance : U256
  storageRoot : Hash
  codeHash : CodeHash
  deriving DecidableEq

/-- `ParentState.AccountParent`. -/
inductive AccountParent where
  | absent
  | present (parent : ParentAccount)
  deriving DecidableEq

inductive Parent where
  | openWorld (reader : Option Reader) (retainsEmptyAccounts : Bool)
  | closedWorld (accounts : Table Address AccountParent) (storage : Table StorageKey U256)

structure Env where
  keccak256 : Bytes → CodeHash
  parent : Parent
  grants : Nat → Bool

/-- `OpenWorld.normalize`. -/
def normalize (retainsEmptyAccounts : Bool) (account : Account) : Option Account :=
  if !retainsEmptyAccounts && account.isEip161Empty then none else some account

/-- `ClosedWorld.accountExecutionValue`. -/
def accountExecutionValue (record : AccountParent) : Option Account :=
  match record with
  | .absent => none
  | .present parent =>
      let account : Account :=
        { nonce := parent.nonce, balance := parent.balance, codeHash := parent.codeHash }
      if account.isEip161Empty then none else some account

namespace Env

/-- `options.grows_on_touch`. -/
def growsOnTouch (env : Env) : Bool :=
  match env.parent with
  | .openWorld _ _ => true
  | .closedWorld _ _ => false

/-- `options.caches_parent_code`. -/
def cachesParentCode (env : Env) : Bool :=
  match env.parent with
  | .openWorld _ _ => true
  | .closedWorld _ _ => false

/-- The account value a row is admitted with. -/
def parentAccount (env : Env) (address : Address) : Option Account :=
  match env.parent with
  | .openWorld reader retains => do
      let account ← (← reader).loadAccount address
      normalize retains account
  | .closedWorld accounts _ => (accounts.value address).bind accountExecutionValue

/-- The slot value a row is admitted with. -/
def parentStorage (env : Env) (address : Address) (slot : U256) : U256 :=
  match env.parent with
  | .openWorld reader _ =>
      match reader with
      | some reader => reader.getStorage address slot
      | none => 0
  | .closedWorld accounts storage =>
      match accounts.find address with
      | some account => (storage.value { account, slot }).getD 0
      | none => 0

end Env

structure World where
  accounts : Table Address AccountRow
  storage : Table StorageKey StorageRow
  /-- `CodeCache.entries`. -/
  code : List (CodeHash × Bytes)

/-- `Journal.AccountUndo`. -/
structure AccountUndo where
  account : AccountId
  current : Option Account
  codeRef : CodeRef
  flags : AccountFlags
  journaledScope : Generation
  storageIncarnation : Incarnation
  wipedTransaction : Generation
  dirtyTransaction : Generation
  effect : AccountEffect

/-- `Journal.StorageUndo`. -/
structure StorageUndo where
  storage : StorageId
  current : U256
  flags : StorageFlags
  journaledScope : Generation
  storageIncarnation : Incarnation
  transactionUndo : TransactionUndoHandle
  effect : StorageEffect

/-- `Journal.Entry`, with the undo record in place of its index. -/
inductive Entry where
  | account (undo : AccountUndo)
  | storage (undo : StorageUndo)
  | accountStorageDirty (account : AccountId)
  | warmAccount (account : AccountId)
  | warmStorage (storage : StorageId)
  | deferredWarmAccount (entry : Nat)
  | deferredWarmStorage (entry : Nat)
  | transientStorage (key : TransientKey) (previous : U256)
  | introducedCode

/-- `Journal`, newest entry first. -/
abbrev Journal : Type := List Entry

/-- `journal.storage.items`, oldest first. -/
def Journal.storageUndos (journal : Journal) : List StorageUndo :=
  (journal.filterMap fun entry =>
    match entry with
    | .storage undo => some undo
    | _ => none).reverse

structure DeferredWarmth where
  accounts : Table Address Bool
  storage : Table TransientKey Bool

structure Lifetimes where
  transaction : Generation := 0
  scope : Generation := 0
  root : Generation := 0
  deriving DecidableEq

structure AcceptedLen where
  blockChangedAccounts : Nat := 0
  blockStorageWipes : Nat := 0
  dirtyStorage : Nat := 0
  blockIntroducedCodes : Nat := 0
  deriving DecidableEq

structure WorldState where
  world : World
  code : CodeStore
  transientStorage : Table TransientKey U256 := Table.empty
  deferredWarmth : DeferredWarmth := ⟨Table.empty, Table.empty⟩
  logs : LogBuffer := {}
  retainedLogs : LogBuffer := {}
  blockChangedAccounts : List AccountId := []
  blockStorageWipes : List AccountId := []
  dirtyStorage : List StorageId := []
  changedAccounts : List AccountId := []
  changedStorage : List StorageId := []
  transactionStorageWipes : List AccountId := []
  lifecycleAccounts : List AccountId := []
  blockIntroducedCodes : List Nat := []
  observedAccounts : List AccountObservationRow := []
  observedStorage : List StorageObservationRow := []
  journal : Journal := []
  clock : Nat := 0
  lifetime : Lifetimes := {}
  worldEpoch : Nat := 0
  observedAttempt : Bool := false
  sealed : Bool := false
  attemptOpen : Bool := false
  scopeDepth : Nat := 0
  transactionActive : Bool := false
  transactionScopeReverted : Bool := false
  acceptedLen : AcceptedLen := {}
  /-- Requests made so far to the allocator and the reader. -/
  requests : Nat := 0

/-- `state.Checkpoint`. -/
structure Checkpoint where
  scope : Generation
  parentScope : Generation
  journalLen : Nat
  changedAccountsLen : Nat
  changedStorageLen : Nat
  logs : LogCheckpoint
  deriving DecidableEq

abbrev Method (α : Type) : Type := Action WorldState StateError α

namespace World

/-- Assign to the row behind an id. -/
def updateAccount (world : World) (id : AccountId) (update : AccountRow → AccountRow) : World :=
  match world.accounts.row id with
  | some row => { world with accounts := world.accounts.set id (update row) }
  | none => world

def updateStorage (world : World) (id : StorageId) (update : StorageRow → StorageRow) : World :=
  match world.storage.row id with
  | some row => { world with storage := world.storage.set id (update row) }
  | none => world

/-- `resetRows`: an open world drops its rows, a closed one readmits them. -/
def resetRows (world : World) (env : Env) : World :=
  match env.parent with
  | .openWorld _ _ => { world with accounts := Table.empty, storage := Table.empty }
  | .closedWorld accounts storage =>
      { world with
        accounts := accounts.mapRows fun _ record => .admitted (accountExecutionValue record)
        storage := storage.mapRows fun _ value => { current := value } }

/-- `cachedCode`; only an open world caches parent code. -/
def cachedCode (world : World) (env : Env) (codeHash : CodeHash) : Option CodeView :=
  if env.cachesParentCode then
    (world.code.lookup codeHash).map fun bytes => { codeHash, bytes, ref := .missing }
  else none

end World

namespace WorldState

variable (env : Env)

/-- One request to the allocator or the reader. -/
def request (error : StateError) : Method Unit := fun self =>
  let asked := { self with requests := self.requests + 1 }
  if env.grants self.requests then .ok () asked else .fail error asked

/-- `reserve`, `ensureUnusedCapacity` and any other fallible growth. -/
def reserve : Method Unit := request env .outOfMemory

def accountRow (id : AccountId) : Method AccountRow := fun self =>
  match self.world.accounts.row id with
  | some row => .ok row self
  | none => .illegal

def storageRow (id : StorageId) : Method StorageRow := fun self =>
  match self.world.storage.row id with
  | some row => .ok row self
  | none => .illegal

def accountAddress (id : AccountId) : Method Address := fun self =>
  match self.world.accounts.key id with
  | some address => .ok address self
  | none => .illegal

/-- `storageAccount` and `storageSlot`. -/
def storageKey (id : StorageId) : Method StorageKey := fun self =>
  match self.world.storage.key id with
  | some key => .ok key self
  | none => .illegal

def updateAccount (id : AccountId) (update : AccountRow → AccountRow) (self : WorldState) :
    WorldState :=
  { self with world := self.world.updateAccount id update }

def updateStorage (id : StorageId) (update : StorageRow → StorageRow) (self : WorldState) :
    WorldState :=
  { self with world := self.world.updateStorage id update }

def findAccount (self : WorldState) (address : Address) : Option AccountId :=
  self.world.accounts.find address

def findStorage (self : WorldState) (account : AccountId) (slot : U256) : Option StorageId :=
  self.world.storage.find { account, slot }

def withAccounts (self : WorldState) (accounts : Table Address AccountRow) : WorldState :=
  { self with world := { self.world with accounts } }

def withStorage (self : WorldState) (storage : Table StorageKey StorageRow) : WorldState :=
  { self with world := { self.world with storage } }

@[simp] theorem withAccounts_accounts (self : WorldState) (accounts : Table Address AccountRow) :
    (self.withAccounts accounts).world.accounts = accounts := rfl

@[simp] theorem withAccounts_storage (self : WorldState) (accounts : Table Address AccountRow) :
    (self.withAccounts accounts).world.storage = self.world.storage := rfl

@[simp] theorem withStorage_accounts (self : WorldState) (storage : Table StorageKey StorageRow) :
    (self.withStorage storage).world.accounts = self.world.accounts := rfl

@[simp] theorem withStorage_storage (self : WorldState) (storage : Table StorageKey StorageRow) :
    (self.withStorage storage).world.storage = storage := rfl

/-- Add an account row; the key must be new. -/
def insertAccount (address : Address) (current : Option Account) : Method AccountId := fun self =>
  match fresh : self.world.accounts.find address with
  | some _ => .illegal
  | none =>
      .ok self.world.accounts.count
        (self.withAccounts (self.world.accounts.admitRow address (.admitted current) fresh))

def insertStorage (key : StorageKey) (value : U256) : Method StorageId := fun self =>
  match fresh : self.world.storage.find key with
  | some _ => .illegal
  | none =>
      .ok self.world.storage.count
        (self.withStorage (self.world.storage.admitRow key { current := value } fresh))

/-- `OpenWorld.admitAccount`. -/
def admitAccount (address : Address) : Method AccountId := do
  match env.parent with
  | .openWorld (some reader) retains =>
      request env .reader
      let current := (reader.loadAccount address).bind (normalize retains)
      reserve env
      insertAccount address current
  | _ =>
      reserve env
      insertAccount address none

/-- `OpenWorld.admitStorage`. -/
def admitStorage (key : StorageKey) : Method StorageId := do
  match env.parent with
  | .openWorld (some reader) _ =>
      let address ← accountAddress key.account
      request env .reader
      reserve env
      insertStorage key (reader.getStorage address key.slot)
  | _ =>
      reserve env
      insertStorage key 0

def resolveAccount (address : Address) (policy : ResolutionPolicy) :
    Method (Option AccountId) := do
  let self ← Action.get
  match self.findAccount address with
  | some id => return some id
  | none =>
      match policy with
      | .optionalWarmOnly => return none
      | .requiredObserved =>
          if env.growsOnTouch then some <$> admitAccount env address
          else Action.fail .undeclaredAccount

def resolveStorage (account : AccountId) (slot : U256) (policy : ResolutionPolicy) :
    Method (Option StorageId) := do
  let self ← Action.get
  match self.findStorage account slot with
  | some id => return some id
  | none =>
      match policy with
      | .optionalWarmOnly => return none
      | .requiredObserved =>
          if env.growsOnTouch then some <$> admitStorage env { account, slot }
          else Action.fail .undeclaredStorage

/-- `resolveAccount(address, .required_observed).?`. -/
def requireAccount (address : Address) : Method AccountId := do
  match ← resolveAccount env address .requiredObserved with
  | some id => return id
  | none => Action.illegal

/-- `OpenWorld.cacheCode`, after its hash assertion. -/
def cacheCode (codeHash : CodeHash) (bytes : Bytes) : Method Bytes := do
  Action.assert fun _ => env.keccak256 bytes = codeHash
  if codeHash = keccak256Empty then return []
  else
    let self ← Action.get
    match self.world.code.lookup codeHash with
    | some held => return held
    | none =>
        reserve env
        Action.modify fun self =>
          { self with world := { self.world with code := self.world.code ++ [(codeHash, bytes)] } }
        return bytes

def loadCode (codeHash : CodeHash) : Method CodeView := do
  match env.parent with
  | .closedWorld _ _ => Action.fail .invalidWitness
  | .openWorld reader _ =>
      if codeHash = keccak256Empty then
        return { codeHash, bytes := [], ref := .missing }
      else
        let self ← Action.get
        match self.world.cachedCode env codeHash with
        | some view => return view
        | none =>
            match reader with
            | none => Action.fail .codeUnavailable
            | some reader =>
                request env .reader
                let bytes := reader.loadCode codeHash
                if !reader.loadCodeValidatesHash && env.keccak256 bytes ≠ codeHash then
                  Action.fail .codeHashMismatch
                else
                  let held ← cacheCode env codeHash bytes
                  return { codeHash, bytes := held, ref := .missing }

end WorldState

end EvmZig.State
