import EvmZig.Primitives
import EvmZig.Zig.Checked
import EvmZig.Lib.Table

/-!
# State vocabulary (`src/state.zig`, `src/state/Account.zig`, row types of `src/state/world_state.zig`)

Rows, stamps, observations and effects.  A `Generation` is a clock value, zero
for `none`; an `Incarnation` counts storage wipes, zero for `parent`.
-/

set_option autoImplicit false

namespace EvmZig.State

open Lib

abbrev Bytes : Type := List UInt8

abbrev CodeHash : Type := Hash

/-- `crypto.keccak256_empty`. -/
def keccak256Empty : CodeHash :=
  ⟨[0xc5, 0xd2, 0x46, 0x01, 0x86, 0xf7, 0x23, 0x3c, 0x92, 0x7e, 0x7d, 0xb2, 0xdc, 0xc7, 0x03, 0xc0,
    0xe5, 0x00, 0xb6, 0x53, 0xca, 0x82, 0x27, 0x3b, 0x7b, 0xfa, 0xd8, 0x04, 0x5d, 0x85, 0xa4, 0x70],
    rfl⟩

structure Account where
  nonce : U64 := 0
  balance : U256 := 0
  codeHash : CodeHash := keccak256Empty
  deriving DecidableEq

def Account.isEip161Empty (account : Account) : Bool :=
  account.nonce = 0 && account.balance = 0 && account.codeHash = keccak256Empty

def accountCodeHash (value : Option Account) : CodeHash :=
  match value with
  | some account => account.codeHash
  | none => keccak256Empty

/-- `CodeRef`: an index into parent and introduced code, or one of two reserved values. -/
inductive CodeRef where
  | missing
  | empty
  | index (index : Nat)
  deriving DecidableEq

/-- `CodeRef.max_indexed`. -/
def CodeRef.maxIndexed : Nat := 2 ^ 32 - 2

structure CodeView where
  codeHash : CodeHash
  bytes : Bytes
  ref : CodeRef
  deriving DecidableEq

inductive ResolutionPolicy where
  | requiredObserved
  | optionalWarmOnly
  deriving DecidableEq

structure AccountFlags where
  blockChanged : Bool := false
  storageDirty : Bool := false
  storageWiped : Bool := false
  touched : Bool := false
  created : Bool := false
  selfdestructed : Bool := false
  deriving DecidableEq

structure StorageFlags where
  blockDirty : Bool := false
  deriving DecidableEq

abbrev Generation : Type := Nat

abbrev Incarnation : Type := Nat

/-- `std.math.maxInt(u32)`. -/
def u32Max : Nat := 2 ^ 32 - 1

/-- `Incarnation.next`, trapping on overflow. -/
def Incarnation.next (incarnation : Incarnation) : Option Incarnation :=
  if incarnation < u32Max then some (incarnation + 1) else none

structure ObservationHandle where
  transaction : Generation := 0
  index : Nat := 0
  deriving DecidableEq

structure TransactionUndoHandle where
  transaction : Generation := 0
  index : Nat := 0
  deriving DecidableEq

structure AccountRow where
  current : Option Account
  codeRef : CodeRef
  flags : AccountFlags := {}
  lifecycleTransaction : Generation := 0
  journaledScope : Generation := 0
  warmTransaction : Generation := 0
  observation : ObservationHandle := {}
  dirtyTransaction : Generation := 0
  storageIncarnation : Incarnation := 0
  wipedTransaction : Generation := 0
  deriving DecidableEq

def AccountRow.admitted (current : Option Account) : AccountRow where
  current := current
  codeRef := if accountCodeHash current = keccak256Empty then .empty else .missing

structure StorageRow where
  current : U256
  executionOriginal : U256 := 0
  flags : StorageFlags := {}
  journaledScope : Generation := 0
  warmTransaction : Generation := 0
  observation : ObservationHandle := {}
  executionOriginalRoot : Generation := 0
  transactionUndo : TransactionUndoHandle := {}
  storageIncarnation : Incarnation := 0
  deriving DecidableEq

abbrev AccountId : Type := Nat

abbrev StorageId : Type := Nat

structure StorageKey where
  account : AccountId
  slot : U256
  deriving DecidableEq

/-- `TransientKey`; also the key of deferred storage warmth. -/
structure TransientKey where
  address : Address
  slot : U256
  deriving DecidableEq

structure AccountObservation where
  accessed : Bool := false
  semanticAccess : Bool := false
  existenceRead : Bool := false
  valueRead : Bool := false
  codeRead : Bool := false
  deriving DecidableEq

def AccountObservation.merge (self other : AccountObservation) : AccountObservation where
  accessed := self.accessed || other.accessed
  semanticAccess := self.semanticAccess || other.semanticAccess
  existenceRead := self.existenceRead || other.existenceRead
  valueRead := self.valueRead || other.valueRead
  codeRead := self.codeRead || other.codeRead

structure StorageObservation where
  accessed : Bool := false
  valueRead : Bool := false
  deriving DecidableEq

def StorageObservation.merge (self other : StorageObservation) : StorageObservation where
  accessed := self.accessed || other.accessed
  valueRead := self.valueRead || other.valueRead

structure AccountEffect where
  balanceWritten : Bool := false
  nonceWritten : Bool := false
  codeWritten : Bool := false
  accountDeleted : Bool := false
  createdContract : Bool := false
  selfdestruct : Bool := false
  storageWiped : Bool := false
  deriving DecidableEq

structure StorageEffect where
  written : Bool := false
  deriving DecidableEq

structure AccountObservationRow where
  account : AccountId
  original : Option Account
  originalStorageIncarnation : Incarnation
  observation : AccountObservation
  effect : AccountEffect := {}
  deriving DecidableEq

structure StorageObservationRow where
  storage : StorageId
  original : U256
  observation : StorageObservation
  effect : StorageEffect := {}
  deriving DecidableEq

inductive AccessStatus where
  | cold
  | warm
  deriving DecidableEq

inductive StorageStatus where
  | assigned
  | added
  | deleted
  | modified
  | deletedAdded
  | modifiedDeleted
  | deletedRestored
  | addedDeleted
  | modifiedRestored
  deriving DecidableEq

/-- `storage.status`. -/
def storageStatus (original current next : U256) : StorageStatus :=
  if current = next then .assigned
  else if original = current then
    if original = 0 then .added
    else if next = 0 then .deleted
    else .modified
  else if original ≠ 0 then
    if current = 0 then
      if next = original then .deletedRestored else .deletedAdded
    else if next = 0 then .modifiedDeleted
    else if next = original then .modifiedRestored
    else .assigned
  else if next = 0 then .addedDeleted
  else .assigned

/-- `execution.SelfDestructPolicy`. -/
structure SelfDestructPolicy where
  clearBalance : Bool
  markSelfdestructed : Bool
  deriving DecidableEq

/-- `execution.SelfDestructFinalization`. -/
structure SelfDestructFinalization where
  deleteAccount : Bool := false
  clearStorage : Bool := false
  resetAccount : Bool := false
  deriving DecidableEq

structure FinalizationRules where
  existingAccount : SelfDestructFinalization := {}
  createdAccount : SelfDestructFinalization := {}
  deriving DecidableEq

inductive StateError where
  | outOfMemory
  | reader
  | codeUnavailable
  | codeHashMismatch
  | undeclaredAccount
  | undeclaredStorage
  | invalidWitness
  | codeHashCollision
  | resourceLimitExceeded
  | balanceOverflow
  | tooManyLogTopics
  deriving DecidableEq

end EvmZig.State
