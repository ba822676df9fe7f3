import EvmZig.Primitives

/-!
# Block-level access lists (`eth/bal/model.zig`)

The model rows, their validation, the reflection codec of the rows and the
length-memoised encoder.  The memo tables are the lists that the sizing walk
builds and the writing walk consumes by index.
-/

set_option autoImplicit false

namespace EvmZig.Bal

open Zig Rlp

/-! ## Rows -/

structure StorageChange where
  blockAccessIndex : BlockAccessIndex
  newValue : U256
  deriving DecidableEq, Repr

structure BalanceChange where
  blockAccessIndex : BlockAccessIndex
  postBalance : U256
  deriving DecidableEq, Repr

structure NonceChange where
  blockAccessIndex : BlockAccessIndex
  newNonce : U64
  deriving DecidableEq, Repr

structure CodeChange where
  blockAccessIndex : BlockAccessIndex
  newCode : Slice
  deriving DecidableEq, Repr

structure SlotChanges where
  slot : U256
  changes : List StorageChange
  deriving DecidableEq, Repr

structure AccountChanges where
  address : Address
  storageChanges : List SlotChanges
  storageReads : List U256
  balanceChanges : List BalanceChange
  nonceChanges : List NonceChange
  codeChanges : List CodeChange
  deriving DecidableEq, Repr

/-! ## Counts -/

structure Counts where
  accounts : Nat := 0
  storageReadKeys : Nat := 0
  storageWriteKeys : Nat := 0
  storageWriteChanges : Nat := 0
  balanceChanges : Nat := 0
  nonceChanges : Nat := 0
  codeChanges : Nat := 0
  codeBytes : Nat := 0
  maxBlockAccessIndex : Option BlockAccessIndex := none
  deriving DecidableEq, Repr

def Counts.blockAccessItems (counts : Counts) : Option Nat := do
  addUsize (← addUsize counts.accounts counts.storageReadKeys) counts.storageWriteKeys

def updateMaxIndex (counts : Counts) (blockAccessIndex : BlockAccessIndex) : Counts :=
  match counts.maxBlockAccessIndex with
  | some current =>
      if current < blockAccessIndex then
        { counts with maxBlockAccessIndex := some blockAccessIndex }
      else counts
  | none => { counts with maxBlockAccessIndex := some blockAccessIndex }

def countSlot (counts : Counts) (slot : SlotChanges) : Option Counts := do
  let changes ← addUsize counts.storageWriteChanges slot.changes.length
  return (slot.changes.map StorageChange.blockAccessIndex).foldl updateMaxIndex
    { counts with storageWriteChanges := changes }

def countCode (counts : Counts) (change : CodeChange) : Option Counts := do
  let bytes ← addUsize counts.codeBytes change.newCode.len
  return updateMaxIndex { counts with codeBytes := bytes } change.blockAccessIndex

def countAccount (counts : Counts) (account : AccountChanges) : Option Counts := do
  let reads ← addUsize counts.storageReadKeys account.storageReads.length
  let writes ← addUsize counts.storageWriteKeys account.storageChanges.length
  let counts ← account.storageChanges.foldlM countSlot
    { counts with storageReadKeys := reads, storageWriteKeys := writes }
  let balances ← addUsize counts.balanceChanges account.balanceChanges.length
  let counts := (account.balanceChanges.map BalanceChange.blockAccessIndex).foldl updateMaxIndex
    { counts with balanceChanges := balances }
  let nonces ← addUsize counts.nonceChanges account.nonceChanges.length
  let counts := (account.nonceChanges.map NonceChange.blockAccessIndex).foldl updateMaxIndex
    { counts with nonceChanges := nonces }
  let codes ← addUsize counts.codeChanges account.codeChanges.length
  account.codeChanges.foldlM countCode { counts with codeChanges := codes }

def count (accounts : List AccountChanges) : Option Counts :=
  accounts.foldlM countAccount { accounts := accounts.length }

/-! ## Reflection codecs

Sizes are `@sizeOf` of the rows, with `u256` aligned to 16 bytes. -/

def storageChangeCodec : Codec StorageChange :=
  Codec.struct 48 (.cons (.uint 32) (.cons (.uint 256) .nil))
    (fun change => (change.blockAccessIndex, change.newValue, ()))
    (fun fields => ⟨fields.1, fields.2.1⟩)

def balanceChangeCodec : Codec BalanceChange :=
  Codec.struct 48 (.cons (.uint 32) (.cons (.uint 256) .nil))
    (fun change => (change.blockAccessIndex, change.postBalance, ()))
    (fun fields => ⟨fields.1, fields.2.1⟩)

def nonceChangeCodec : Codec NonceChange :=
  Codec.struct 16 (.cons (.uint 32) (.cons (.uint 64) .nil))
    (fun change => (change.blockAccessIndex, change.newNonce, ()))
    (fun fields => ⟨fields.1, fields.2.1⟩)

def codeChangeCodec : Codec CodeChange :=
  Codec.struct 24 (.cons (.uint 32) (.cons .bytes .nil))
    (fun change => (change.blockAccessIndex, change.newCode, ()))
    (fun fields => ⟨fields.1, fields.2.1⟩)

def slotChangesCodec : Codec SlotChanges :=
  Codec.struct 48 (.cons (.uint 256) (.cons (.listOf storageChangeCodec) .nil))
    (fun slot => (slot.slot, slot.changes, ()))
    (fun fields => ⟨fields.1, fields.2.1⟩)

def addressCodec : Codec Address := Codec.fixedBytes 20 (by decide)

def accountChangesCodec : Codec AccountChanges :=
  Codec.struct 104
    (.cons addressCodec
      (.cons (.listOf slotChangesCodec)
        (.cons (.listOf (.uint 256))
          (.cons (.listOf balanceChangeCodec)
            (.cons (.listOf nonceChangeCodec)
              (.cons (.listOf codeChangeCodec) .nil))))))
    (fun account => (account.address, account.storageChanges, account.storageReads,
      account.balanceChanges, account.nonceChanges, account.codeChanges, ()))
    (fun fields => ⟨fields.1, fields.2.1, fields.2.2.1, fields.2.2.2.1, fields.2.2.2.2.1,
      fields.2.2.2.2.2.1⟩)

/-- The codec of `BlockAccessList`. -/
def blockAccessListCodec : Codec (List AccountChanges) := .listOf accountChangesCodec

/-! ## The length-memoised encoder -/

structure AccountLens where
  storageChanges : Nat
  storageReads : Nat
  balanceChanges : Nat
  nonceChanges : Nat
  codeChanges : Nat
  payload : Nat
  deriving DecidableEq, Repr

structure SlotLens where
  changes : Nat
  payload : Nat
  deriving DecidableEq, Repr

/-- The memo tables, with the slot table filled up to `slot_index`. -/
structure Memo where
  accountLens : List AccountLens
  slotLens : List SlotLens
  topPayload : Nat
  deriving DecidableEq, Repr

/-- `left * right` on `usize`. -/
def mulUsize (left right : Nat) : Option Nat :=
  if left * right ≤ usizeMax then some (left * right) else none

def changePayloadLen {α : Type} (codec : Codec α) (changeIndex : BlockAccessIndex) (value : α) :
    Checked EncodeError Nat := do
  addUsize (← (Codec.uint 32).encodedLen changeIndex) (← codec.encodedLen value)

/-- The loops `for (rows) |row| payload += try entryLen(row)`. -/
def payloadLoop {α : Type} (entryLen : α → Checked EncodeError Nat) :
    List α → Nat → Checked EncodeError Nat
  | [], payload => .ok payload
  | row :: rows, payload => do
      payloadLoop entryLen rows (← addUsize payload (← entryLen row))

def storageChangeLen (change : StorageChange) : Checked EncodeError Nat := do
  listEncodedLen (← changePayloadLen (.uint 256) change.blockAccessIndex change.newValue)

def balanceChangeLen (change : BalanceChange) : Checked EncodeError Nat := do
  listEncodedLen (← changePayloadLen (.uint 256) change.blockAccessIndex change.postBalance)

def nonceChangeLen (change : NonceChange) : Checked EncodeError Nat := do
  listEncodedLen (← changePayloadLen (.uint 64) change.blockAccessIndex change.newNonce)

def codeChangeLen (change : CodeChange) : Checked EncodeError Nat := do
  listEncodedLen (← changePayloadLen .bytes change.blockAccessIndex change.newCode)

/-- The sizing walk over the slots of one account. -/
def sizeSlots (slotCount : Nat) :
    List SlotChanges → Nat → List SlotLens → Checked EncodeError (Nat × List SlotLens)
  | [], payload, slotLens => .ok (payload, slotLens)
  | slot :: slots, payload, slotLens => do
      let changesPayload ← payloadLoop storageChangeLen slot.changes 0
      let slotPayload ← addUsize (← (Codec.uint 256).encodedLen slot.slot)
        (← listEncodedLen changesPayload)
      -- `slot_lens[slot_index] = ..`
      assert (slotLens.length < slotCount)
      let payload ← addUsize payload (← listEncodedLen slotPayload)
      sizeSlots slotCount slots payload (slotLens ++ [⟨changesPayload, slotPayload⟩])

def sizeAccount (slotCount : Nat) (account : AccountChanges) (slotLens : List SlotLens) :
    Checked EncodeError (AccountLens × List SlotLens) := do
  let (storageChangesPayload, slotLens) ← sizeSlots slotCount account.storageChanges 0 slotLens
  let storageReadsPayload ← payloadLoop (Codec.uint 256).encodedLen account.storageReads 0
  let balancePayload ← payloadLoop balanceChangeLen account.balanceChanges 0
  let noncePayload ← payloadLoop nonceChangeLen account.nonceChanges 0
  let codePayload ← payloadLoop codeChangeLen account.codeChanges 0
  let payload ← addUsize (← addressCodec.encodedLen account.address)
    (← listEncodedLen storageChangesPayload)
  let payload ← addUsize payload (← listEncodedLen storageReadsPayload)
  let payload ← addUsize payload (← listEncodedLen balancePayload)
  let payload ← addUsize payload (← listEncodedLen noncePayload)
  let payload ← addUsize payload (← listEncodedLen codePayload)
  return (⟨storageChangesPayload, storageReadsPayload, balancePayload, noncePayload, codePayload,
    payload⟩, slotLens)

/-- The sizing walk over `accounts`, from the memo of the accounts before. -/
def sizeAccounts (slotCount : Nat) : List AccountChanges → Memo → Checked EncodeError Memo
  | [], memo => .ok memo
  | account :: accounts, memo => do
      let (lens, slotLens) ← sizeAccount slotCount account memo.slotLens
      let topPayload ← addUsize memo.topPayload (← listEncodedLen lens.payload)
      sizeAccounts slotCount accounts ⟨memo.accountLens ++ [lens], slotLens, topPayload⟩

/-- The loops `for (rows) |row| try encodeRow(row)`. -/
def encodeEach {α : Type} (encodeRow : α → Action Encoder EncodeError Unit) :
    List α → Action Encoder EncodeError Unit
  | [] => pure ()
  | row :: rows => do
      encodeRow row
      encodeEach encodeRow rows

def encodeStorageChange (change : StorageChange) : Action Encoder EncodeError Unit := do
  Encoder.listPrefix (← changePayloadLen (.uint 256) change.blockAccessIndex change.newValue)
  Encoder.uint 32 change.blockAccessIndex.val
  Encoder.uint 256 change.newValue.val

def encodeBalanceChange (change : BalanceChange) : Action Encoder EncodeError Unit := do
  Encoder.listPrefix (← changePayloadLen (.uint 256) change.blockAccessIndex change.postBalance)
  Encoder.uint 32 change.blockAccessIndex.val
  Encoder.uint 256 change.postBalance.val

def encodeNonceChange (change : NonceChange) : Action Encoder EncodeError Unit := do
  Encoder.listPrefix (← changePayloadLen (.uint 64) change.blockAccessIndex change.newNonce)
  Encoder.uint 32 change.blockAccessIndex.val
  Encoder.uint 64 change.newNonce.val

def encodeCodeChange (change : CodeChange) : Action Encoder EncodeError Unit := do
  Encoder.listPrefix (← changePayloadLen .bytes change.blockAccessIndex change.newCode)
  Encoder.uint 32 change.blockAccessIndex.val
  Encoder.bytes change.newCode

/-- The writing walk over slots; the result is the next `slot_index`. -/
def encodeSlots (slotLens : List SlotLens) :
    List SlotChanges → Nat → Action Encoder EncodeError Nat
  | [], slotIndex => pure slotIndex
  | slot :: slots, slotIndex => do
      let memo ← slotLens[slotIndex]?
      Encoder.listPrefix memo.payload
      Encoder.uint 256 slot.slot.val
      Encoder.listPrefix memo.changes
      encodeEach encodeStorageChange slot.changes
      encodeSlots slotLens slots (slotIndex + 1)

def encodeAccount (slotLens : List SlotLens) (account : AccountChanges) (lens : AccountLens)
    (slotIndex : Nat) : Action Encoder EncodeError Nat := do
  Encoder.listPrefix lens.payload
  Encoder.bytes (account.address.slice (by decide))
  Encoder.listPrefix lens.storageChanges
  let slotIndex ← encodeSlots slotLens account.storageChanges slotIndex
  Encoder.listPrefix lens.storageReads
  encodeEach (fun slot : U256 => Encoder.uint 256 slot.val) account.storageReads
  Encoder.listPrefix lens.balanceChanges
  encodeEach encodeBalanceChange account.balanceChanges
  Encoder.listPrefix lens.nonceChanges
  encodeEach encodeNonceChange account.nonceChanges
  Encoder.listPrefix lens.codeChanges
  encodeEach encodeCodeChange account.codeChanges
  return slotIndex

def encodeAccounts (slotLens : List SlotLens) :
    List (AccountChanges × AccountLens) → Nat → Action Encoder EncodeError Nat
  | [], slotIndex => pure slotIndex
  | (account, lens) :: rest, slotIndex => do
      encodeAccounts slotLens rest (← encodeAccount slotLens account lens slotIndex)

/-- The writing walk over the whole list. -/
def encodeList (memo : Memo) (accounts : List AccountChanges) : Action Encoder EncodeError Nat := do
  Encoder.listPrefix memo.topPayload
  encodeAccounts memo.slotLens (accounts.zip memo.accountLens) 0

/-- `@sizeOf(AccountLens)` and `@sizeOf(SlotLens)`. -/
def accountLensSize : Nat := 48

def slotLensSize : Nat := 16

def encodeAlloc (accounts : List AccountChanges) : Checked EncodeError Slice := do
  let counts ← count accounts
  let accountMemoBytes ← mulUsize accounts.length accountLensSize
  let _ ← addUsize accountMemoBytes (← mulUsize counts.storageWriteKeys slotLensSize)
  let memo ← sizeAccounts counts.storageWriteKeys accounts ⟨[], [], 0⟩
  assert (memo.slotLens.length = counts.storageWriteKeys)
  let outLen ← listEncodedLen memo.topPayload
  if fits : outLen ≤ usizeMax then
    match encodeList memo accounts (Encoder.init outLen fits) with
    | .ok _ encoder => do
        assert (encoder.written.length = outLen)
        bufferSlice encoder.written
    | .fail error _ => .fail error
    | .illegal => .illegal
  else .illegal

/-! ## Lists in memory -/

/-- Bytes that the rows and codes of an account take where nothing is shared. -/
def AccountChanges.residentBytes (account : AccountChanges) : Nat :=
  accountChangesCodec.sizeOf +
    (account.storageChanges.map fun slot =>
      slotChangesCodec.sizeOf + storageChangeCodec.sizeOf * slot.changes.length).sum +
    (Codec.uint 256).sizeOf * account.storageReads.length +
    balanceChangeCodec.sizeOf * account.balanceChanges.length +
    nonceChangeCodec.sizeOf * account.nonceChanges.length +
    (account.codeChanges.map fun change => codeChangeCodec.sizeOf + change.newCode.len).sum

def residentBytes (accounts : List AccountChanges) : Nat :=
  (accounts.map AccountChanges.residentBytes).sum

/-- `BlockAccessList`: rows and codes that lie in memory. -/
structure BlockAccessList where
  accounts : List AccountChanges
  resident : residentBytes accounts ≤ usizeMax

/-! ## Decoding -/

def maxRlpDepth : Nat := 6

/-- The largest row of the decoded tables. -/
def maxAggregateValueSize : Nat :=
  [accountChangesCodec.sizeOf, slotChangesCodec.sizeOf, storageChangeCodec.sizeOf,
    balanceChangeCodec.sizeOf, nonceChangeCodec.sizeOf, codeChangeCodec.sizeOf,
    (Codec.uint 256).sizeOf].foldl max 0

def saturatingAdd (left right : Nat) : Nat := min (left + right) usizeMax

def saturatingMul (left right : Nat) : Nat := min (left * right) usizeMax

def inputDecodeLimits (encodedLen : Nat) : Limits where
  maxDepth := maxRlpDepth
  maxItems := encodedLen
  maxAllocatedBytes := saturatingMul encodedLen (maxAggregateValueSize + 1)

/-- The copies themselves leave the codes as they are. -/
def copyCodes : List CodeChange → Budget → Checked DecodeError Budget
  | [], budget => .ok budget
  | change :: changes, budget => do
      budget.ensureAllocation change.newCode.len
      copyCodes changes (← budget.commitAllocation change.newCode.len)

def copyCodeBytes : List AccountChanges → Budget → Checked DecodeError Budget
  | [], budget => .ok budget
  | account :: accounts, budget => do
      copyCodeBytes accounts (← copyCodes account.codeChanges budget)

def decodeWithBudget (encoded : Slice) (budget : Budget) :
    Checked DecodeError (List AccountChanges × Budget) := do
  let (accounts, budget) ← decodeAllocWithBudgetAs blockAccessListCodec encoded budget
  return (accounts, ← copyCodeBytes accounts budget)

def decode (encoded : Slice) : Checked DecodeError (List AccountChanges) := do
  let (accounts, _) ← decodeWithBudget encoded (Budget.init (inputDecodeLimits encoded.len))
  return accounts

end EvmZig.Bal
