import EvmZig.Bal.Validate
import EvmZig.Bal.ShardFold
import EvmZig.Lib.BinarySearch

/-!
# The claim plan (`eth/bal/ClaimPlan.zig`)

Dense ids for the accounts and storage slots of a validated access list, in
the order of the list, and the same ids again in the order of their hashed
keys.  The hash is any function of the key bytes.
-/

set_option autoImplicit false

namespace EvmZig.Bal

open Zig

abbrev AccountId : Type := Nat

abbrev StorageId : Type := Nat

structure Range where
  start : Nat
  len : Nat
  deriving DecidableEq, Repr

def Range.stop (range : Range) : Nat := range.start + range.len

inductive InitError
  | resourceLimitExceeded
  | trieKeyCollision
  deriving DecidableEq, Repr

/-- `std.math.maxInt(u32)`. -/
def maxId : Nat := 2 ^ 32 - 1

structure ClaimPlan where
  accountAddresses : List AddressWord := []
  accountStorageRanges : List Range := []
  accountTrieKeys : List Hash := []
  storageAccounts : List AccountId := []
  storageSlots : List U256 := []
  storageTrieKeys : List Hash := []
  accountTrieOrder : List AccountId := []
  storageTrieOrder : List StorageId := []
  deriving DecidableEq, Repr

/-- The storage keys of one account: its changed slots merged with its reads. -/
def mergeSlots : List SlotChanges → List U256 → List U256
  | change :: changes, read :: reads =>
      if change.slot < read then change.slot :: mergeSlots changes (read :: reads)
      else read :: mergeSlots (change :: changes) reads
  | change :: changes, [] => change.slot :: mergeSlots changes []
  | [], read :: reads => read :: mergeSlots [] reads
  | [], [] => []
  termination_by changes reads => changes.length + reads.length

/-- One of the two orders by trie key; both ids are inside the key column. -/
def trieLessThan (trieKeys : List Hash) (left right : Nat) : Bool :=
  match trieKeys[left]?, trieKeys[right]? with
  | some leftKey, some rightKey => memOrder leftKey.val rightKey.val == .lt
  | _, _ => false

def rejectTrieKeyCollisions (trieKeys : List Hash) (order : List Nat) : Checked InitError Unit :=
  if (order.tail.zip order).any fun pair => trieKeys[pair.2]? == trieKeys[pair.1]? then
    .fail .trieKeyCollision
  else .ok ()

section Init

variable (keccak256 : List UInt8 → Hash)

def hashedAddressKey (address : Address) : Hash := keccak256 address.val

def hashedStorageKey (slot : U256) : Hash := keccak256 (beBytes 32 slot.val)

/-- One round of the merge loop: the columns at `storage_index`. -/
def addSlot (storageCount : Nat) (id : AccountId) (plan : ClaimPlan) (slot : U256) :
    Option ClaimPlan := do
  assert (plan.storageSlots.length < storageCount)
  return { plan with
    storageAccounts := plan.storageAccounts ++ [id]
    storageSlots := plan.storageSlots ++ [slot]
    storageTrieKeys := plan.storageTrieKeys ++ [hashedStorageKey keccak256 slot]
    storageTrieOrder := plan.storageTrieOrder ++ [plan.storageSlots.length] }

/-- One round of the loop over the accounts, with its order assertion. -/
def addAccount (storageCount : Nat) (plan : ClaimPlan) (account : AccountChanges) :
    Option ClaimPlan := do
  let id := plan.accountAddresses.length
  let storageStart := plan.storageSlots.length
  let plan ← (mergeSlots account.storageChanges account.storageReads).foldlM
    (addSlot keccak256 storageCount id) plan
  let word := AddressWord.fromAddress account.address
  assert (∀ previous ∈ plan.accountAddresses.getLast?, previous.order word = .lt)
  return { plan with
    accountAddresses := plan.accountAddresses ++ [word]
    accountTrieKeys := plan.accountTrieKeys ++ [hashedAddressKey keccak256 account.address]
    accountStorageRanges := plan.accountStorageRanges ++
      [⟨storageStart, plan.storageSlots.length - storageStart⟩]
    accountTrieOrder := plan.accountTrieOrder ++ [id] }

/-- Sort the ids of one range in place. -/
def sortRange (plan : ClaimPlan) (range : Range) : Checked InitError ClaimPlan := do
  let window := (plan.storageTrieOrder.drop range.start).take range.len
  let sorted := sortBy (trieLessThan plan.storageTrieKeys) window
  rejectTrieKeyCollisions plan.storageTrieKeys sorted
  return { plan with
    storageTrieOrder := plan.storageTrieOrder.take range.start ++ sorted ++
      plan.storageTrieOrder.drop range.stop }

def sortAccounts (plan : ClaimPlan) : Checked InitError ClaimPlan := do
  let sorted := sortBy (trieLessThan plan.accountTrieKeys) plan.accountTrieOrder
  rejectTrieKeyCollisions plan.accountTrieKeys sorted
  return { plan with accountTrieOrder := sorted }

/-- The checks before anything is allocated; the count of storage keys. -/
def storageCountOf (blockAccessList : List AccountChanges) : Checked InitError Nat := do
  let counts ← Checked.ofOption (count blockAccessList)
  match addUsize counts.storageReadKeys counts.storageWriteKeys with
  | none => .fail .resourceLimitExceeded
  | some storageCount =>
      if blockAccessList.length > maxId ∨ storageCount > maxId then .fail .resourceLimitExceeded
      else .ok storageCount

def initAssumeValidated (blockAccessList : List AccountChanges) : Checked InitError ClaimPlan := do
  let storageCount ← storageCountOf blockAccessList
  let plan ← Checked.ofOption (blockAccessList.foldlM (addAccount keccak256 storageCount) {})
  Checked.ofOption (assert (plan.storageSlots.length = storageCount))
  let plan ← sortAccounts plan
  plan.accountStorageRanges.foldlM sortRange plan

end Init

namespace ClaimPlan

def accountCount (plan : ClaimPlan) : Nat := plan.accountAddresses.length

def storageCount (plan : ClaimPlan) : Nat := plan.storageSlots.length

/-- An id past the column is illegal. -/
def accountStorageRange (plan : ClaimPlan) (id : AccountId) : Option Range :=
  plan.accountStorageRanges[id]?

def storageWindow (plan : ClaimPlan) (id : AccountId) : Option (List U256) := do
  let range ← plan.accountStorageRange id
  return (plan.storageSlots.drop range.start).take range.len

def storageTrieWindow (plan : ClaimPlan) (id : AccountId) : Option (List StorageId) := do
  let range ← plan.accountStorageRange id
  return (plan.storageTrieOrder.drop range.start).take range.len

def accountIdWord (plan : ClaimPlan) (target : AddressWord) : Option AccountId :=
  Lib.binarySearch (fun item => target.order item) plan.accountAddresses

/-- `none` outside is an account id past the column. -/
def storageId (plan : ClaimPlan) (account : AccountId) (slot : U256) :
    Option (Option StorageId) := do
  let range ← plan.accountStorageRange account
  let window := (plan.storageSlots.drop range.start).take range.len
  return (Lib.binarySearch (fun item => compare slot item) window).map fun offset =>
    range.start + offset

end ClaimPlan

end EvmZig.Bal
