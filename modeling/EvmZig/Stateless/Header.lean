import EvmZig.Bal.Codec
import EvmZig.Rlp.Emitter
import EvmZig.Transaction.Spec
import Mathlib.Algebra.Group.Action.Defs
import Mathlib.Algebra.Order.BigOperators.Group.List

/-!
# Execution headers (`src/eth/header.zig`)

A header carries every field of every fork.  Those a fork introduced are
optional, and `validate` asks that exactly the fields of the revision are
present.  The encoding of a header is the list of its present fields in wire
order.
-/

set_option autoImplicit false

namespace EvmZig.Stateless

open Zig Rlp
open Bal (addressCodec addressLaw uint64Law uint256Law)

export Transaction (Revision)

/-- `Revision.isImpl`, by declaration order. -/
def isImpl (revision fork : Revision) : Bool := decide (fork.ctorIdx ≤ revision.ctorIdx)

def emptyOmmersHash : Hash :=
  ⟨[0x1d, 0xcc, 0x4d, 0xe8, 0xde, 0xc7, 0x5d, 0x7a,
    0xab, 0x85, 0xb5, 0x67, 0xb6, 0xcc, 0xd4, 0x1a,
    0xd3, 0x12, 0x45, 0x1b, 0x94, 0x8a, 0x74, 0x13,
    0xf0, 0xa1, 0x42, 0xfd, 0x40, 0xd4, 0x93, 0x47], rfl⟩

/-- `@splat(0)`. -/
def splatZero (len : Nat) : Codec.FixedArray len := ⟨List.replicate len 0, List.length_replicate⟩

def posNonce : Codec.FixedArray 8 := splatZero 8

/-- `header.Error`. -/
inductive HeaderError where
  | outOfMemory
  | extraDataTooLong
  | headerSurfaceMismatch
  deriving DecidableEq, Repr

structure ExecutionHeader where
  parentHash : Hash
  ommersHash : Hash := emptyOmmersHash
  coinbase : Address
  stateRoot : Hash
  transactionsRoot : Hash
  receiptsRoot : Hash
  logsBloom : Codec.FixedArray 256
  difficulty : U256 := 0
  number : U64
  gasLimit : U64
  gasUsed : U64
  timestamp : U64
  extraData : Slice
  prevRandao : Hash
  nonce : Codec.FixedArray 8 := posNonce
  baseFeePerGas : Option U256 := none
  withdrawalsRoot : Option Hash := none
  blobGasUsed : Option U64 := none
  excessBlobGas : Option U64 := none
  parentBeaconBlockRoot : Option Hash := none
  requestsHash : Option Hash := none
  blockAccessListHash : Option Hash := none
  slotNumber : Option U64 := none

def hashCodec : Codec Hash := .fixedBytes 32 (by decide)

def hashLaw : LawfulCodec hashCodec := .fixedBytes 32 (by decide)

def bloomCodec : Codec (Codec.FixedArray 256) := .fixedBytes 256 (by decide)

def bloomLaw : LawfulCodec bloomCodec := .fixedBytes 256 (by decide)

def nonceCodec : Codec (Codec.FixedArray 8) := .fixedBytes 8 (by decide)

def nonceLaw : LawfulCodec nonceCodec := .fixedBytes 8 (by decide)

/-- Field tuple of `SharedHeader`. -/
abbrev SharedHeader : Type :=
  Hash × Hash × Address × Hash × Hash × Hash × Codec.FixedArray 256 × U256 × U64 × U64 × U64 ×
    U64 × Slice × Hash × Codec.FixedArray 8 × Unit

def sharedFields : Fields SharedHeader :=
  .cons hashCodec (.cons hashCodec (.cons addressCodec (.cons hashCodec (.cons hashCodec
    (.cons hashCodec (.cons bloomCodec (.cons (.uint 256) (.cons (.uint 64) (.cons (.uint 64)
      (.cons (.uint 64) (.cons (.uint 64) (.cons .bytes (.cons hashCodec
        (.cons nonceCodec .nil))))))))))))))

def sharedLaw : LawfulFields sharedFields :=
  .cons hashLaw (.cons hashLaw (.cons addressLaw (.cons hashLaw (.cons hashLaw
    (.cons hashLaw (.cons bloomLaw (.cons uint256Law (.cons uint64Law (.cons uint64Law
      (.cons uint64Law (.cons uint64Law (.cons .bytes (.cons hashLaw
        (.cons nonceLaw .nil))))))))))))))

namespace ExecutionHeader

/-- The fields `encodeFields(SharedHeader, header)` reads, by name. -/
def shared (header : ExecutionHeader) : SharedHeader :=
  (header.parentHash, header.ommersHash, header.coinbase, header.stateRoot,
    header.transactionsRoot, header.receiptsRoot, header.logsBloom, header.difficulty,
    header.number, header.gasLimit, header.gasUsed, header.timestamp, header.extraData,
    header.prevRandao, header.nonce, ())

def validate (header : ExecutionHeader) (revision : Revision) : Checked HeaderError Unit := do
  if 32 < header.extraData.len then
    Checked.fail .extraDataTooLong
  let hasBaseFee := isImpl revision .london
  let hasWithdrawals := isImpl revision .shanghai
  let hasBlob := isImpl revision .cancun
  let hasRequests := isImpl revision .prague
  let hasAmsterdam := isImpl revision .amsterdam
  if header.baseFeePerGas.isSome ≠ hasBaseFee ∨
      header.withdrawalsRoot.isSome ≠ hasWithdrawals ∨
      header.blobGasUsed.isSome ≠ hasBlob ∨
      header.excessBlobGas.isSome ≠ hasBlob ∨
      header.parentBeaconBlockRoot.isSome ≠ hasBlob ∨
      header.requestsHash.isSome ≠ hasRequests ∨
      header.blockAccessListHash.isSome ≠ hasAmsterdam ∨
      header.slotNumber.isSome ≠ hasAmsterdam then
    Checked.fail .headerSurfaceMismatch

end ExecutionHeader

def emitHeader : Emitter ExecutionHeader := fun _ fields header => do
  fields.encodeFields sharedFields header.shared
  fields.encodePresent (.uint 256) header.baseFeePerGas
  fields.encodePresent hashCodec header.withdrawalsRoot
  fields.encodePresent (.uint 64) header.blobGasUsed
  fields.encodePresent (.uint 64) header.excessBlobGas
  fields.encodePresent hashCodec header.parentBeaconBlockRoot
  fields.encodePresent hashCodec header.requestsHash
  fields.encodePresent hashCodec header.blockAccessListHash
  fields.encodePresent (.uint 64) header.slotNumber

/-- `catch unreachable`. -/
def orUnreachable {ε ε' α : Type} : Checked ε α → Checked ε' α
  | .ok value => .ok value
  | .fail _ => .illegal
  | .illegal => .illegal

namespace ExecutionHeader

def encodeAlloc (header : ExecutionHeader) (revision : Revision) : Checked HeaderError Slice := do
  header.validate revision
  orUnreachable (encodeListAlloc emitHeader header)

def encodedLen (header : ExecutionHeader) (revision : Revision) : Checked HeaderError Nat := do
  header.validate revision
  orUnreachable (encodedListLen emitHeader header)

end ExecutionHeader

/-! ## The canonical header -/

/-- Canonical item of an integer. -/
def scalarItem (value : Nat) : List UInt8 := bytesItem (minimalBytes value)

/-- A field that a header may lack. -/
def presentItem {α : Type} (item : α → List UInt8) (value : Option α) : List (List UInt8) :=
  (value.map item).toList

namespace ExecutionHeader

/-- The items every fork has. -/
def sharedItems (header : ExecutionHeader) : List (List UInt8) :=
  [bytesItem header.parentHash.val, bytesItem header.ommersHash.val,
    bytesItem header.coinbase.val, bytesItem header.stateRoot.val,
    bytesItem header.transactionsRoot.val, bytesItem header.receiptsRoot.val,
    bytesItem header.logsBloom.val, scalarItem header.difficulty.val,
    scalarItem header.number.val, scalarItem header.gasLimit.val, scalarItem header.gasUsed.val,
    scalarItem header.timestamp.val, bytesItem header.extraData.bytes,
    bytesItem header.prevRandao.val, bytesItem header.nonce.val]

/-- The items of the canonical header, in wire order. -/
def items (header : ExecutionHeader) : List (List UInt8) :=
  header.sharedItems ++
  (presentItem (fun value => scalarItem value.val) header.baseFeePerGas ++
  (presentItem (fun value => bytesItem value.val) header.withdrawalsRoot ++
  (presentItem (fun value => scalarItem value.val) header.blobGasUsed ++
  (presentItem (fun value => scalarItem value.val) header.excessBlobGas ++
  (presentItem (fun value => bytesItem value.val) header.parentBeaconBlockRoot ++
  (presentItem (fun value => bytesItem value.val) header.requestsHash ++
  (presentItem (fun value => bytesItem value.val) header.blockAccessListHash ++
  presentItem (fun value => scalarItem value.val) header.slotNumber)))))))

def rlpBytes (header : ExecutionHeader) : List UInt8 := listItem header.items.flatten

/-- The fields are those of `revision` and the extra data is short enough. -/
structure Fits (header : ExecutionHeader) (revision : Revision) : Prop where
  extraData : header.extraData.len ≤ 32
  baseFeePerGas : header.baseFeePerGas.isSome = isImpl revision .london
  withdrawalsRoot : header.withdrawalsRoot.isSome = isImpl revision .shanghai
  blobGasUsed : header.blobGasUsed.isSome = isImpl revision .cancun
  excessBlobGas : header.excessBlobGas.isSome = isImpl revision .cancun
  parentBeaconBlockRoot : header.parentBeaconBlockRoot.isSome = isImpl revision .cancun
  requestsHash : header.requestsHash.isSome = isImpl revision .prague
  blockAccessListHash : header.blockAccessListHash.isSome = isImpl revision .amsterdam
  slotNumber : header.slotNumber.isSome = isImpl revision .amsterdam

theorem validate_fits {header : ExecutionHeader} {revision : Revision}
    (fits : header.Fits revision) : header.validate revision = .ok () := by
  have short : ¬ 32 < header.extraData.len := Nat.not_lt.mpr fits.extraData
  simp [validate, short, fits.baseFeePerGas, fits.withdrawalsRoot, fits.blobGasUsed,
    fits.excessBlobGas, fits.parentBeaconBlockRoot, fits.requestsHash, fits.blockAccessListHash,
    fits.slotNumber]

/-- Every error of `validate` is one of the two it names. -/
theorem validate_cases (header : ExecutionHeader) (revision : Revision) :
    header.Fits revision ∨
      (32 < header.extraData.len ∧ header.validate revision = .fail .extraDataTooLong) ∨
      (header.extraData.len ≤ 32 ∧ ¬ header.Fits revision ∧
        header.validate revision = .fail .headerSurfaceMismatch) := by
  by_cases long : 32 < header.extraData.len
  · refine .inr (.inl ⟨long, ?_⟩)
    simp [validate, long]
  · by_cases fits : header.Fits revision
    · exact .inl fits
    · refine .inr (.inr ⟨Nat.not_lt.mp long, fits, ?_⟩)
      rw [validate, if_neg long]
      simp only [Checked.pure_eq]
      rw [if_pos]
      by_contra surface
      simp only [not_or, ne_eq, not_not] at surface
      obtain ⟨baseFee, withdrawals, blobGas, excessBlob, beacon, requests, list, slot⟩ := surface
      exact fits ⟨Nat.not_lt.mp long, baseFee, withdrawals, blobGas, excessBlob, beacon, requests,
        list, slot⟩

end ExecutionHeader

theorem emits_present {α : Type} {codec : Codec α} (law : LawfulCodec codec)
    {item : α → List UInt8} (value : Option α) (same : ∀ value, law.encode value = item value) :
    Emits (listSizer.encodePresent codec value) (listEncoder.encodePresent codec value)
      (presentItem item value).flatten := by
  have emitted := Emits.encodePresent law value
  cases value with
  | none => exact emitted
  | some value =>
    rw [LawfulCodec.encodePresent, same] at emitted
    simpa [presentItem] using emitted

/-- Both passes of `emitHeader` agree with the canonical fields. -/
theorem emitHeader_emits (header : ExecutionHeader) :
    Emits (emitHeader Nat listSizer header) (emitHeader Encoder listEncoder header)
      header.items.flatten := by
  have baseFee := emits_present uint256Law header.baseFeePerGas fun _ => rfl
  have withdrawals := emits_present hashLaw header.withdrawalsRoot fun _ => rfl
  have blobGas := emits_present uint64Law header.blobGasUsed fun _ => rfl
  have excessBlob := emits_present uint64Law header.excessBlobGas fun _ => rfl
  have beacon := emits_present hashLaw header.parentBeaconBlockRoot fun _ => rfl
  have requests := emits_present hashLaw header.requestsHash fun _ => rfl
  have accessList := emits_present hashLaw header.blockAccessListHash fun _ => rfl
  have slot := emits_present uint64Law header.slotNumber fun _ => rfl
  have shared := Emits.encodeFields sharedLaw header.shared
  have whole := shared.bind (baseFee.bind (withdrawals.bind (blobGas.bind (excessBlob.bind
    (beacon.bind (requests.bind (accessList.bind slot)))))))
  have sharedBytes : sharedLaw.encode header.shared = header.sharedItems.flatten := rfl
  simp only [sharedBytes, ← List.flatten_append] at whole
  exact whole

/-! ## Length of a header -/

theorem bytesItem_length_le {payload : List UInt8} (fits : payload.length ≤ usizeMax) :
    (bytesItem payload).length ≤ payload.length + 9 := by
  have narrow := byteWidth_le_eight fits
  by_cases single : ∃ byte, payload = [byte] ∧ byte < 0x80
  · obtain ⟨byte, rfl, small⟩ := single
    rw [bytesItem_single small]
    omega
  · have general := bytesItem_eq fun byte only small => single ⟨byte, only, small⟩
    rw [general, List.length_append, lengthPrefix_length]
    split <;> omega

theorem scalarItem_length_le {bits : Nat} (value : Fin (2 ^ bits)) (narrow : bits ≤ 256) :
    (scalarItem value.val).length ≤ 41 := by
  have width : byteWidth value.val ≤ 32 := by
    rw [byteWidth_le_iff]
    calc value.val < 2 ^ bits := value.isLt
      _ ≤ 2 ^ 256 := Nat.pow_le_pow_right (by norm_num) narrow
      _ = 256 ^ 32 := by norm_num
  have length := @bytesItem_length_le (minimalBytes value.val) (by
    rw [minimalBytes_length, usizeMax_eq]
    omega)
  rw [minimalBytes_length] at length
  exact length.trans (by omega)

theorem fixedItem_length_le {len : Nat} (value : Codec.FixedArray len) (short : len ≤ 256) :
    (bytesItem value.val).length ≤ 265 := by
  have exact := value.property
  have length := @bytesItem_length_le value.val (by
    rw [exact, usizeMax_eq]
    omega)
  omega

theorem presentItem_count {α : Type} (item : α → List UInt8) (value : Option α) :
    (presentItem item value).length ≤ 1 := by
  cases value <;> simp [presentItem]

theorem mem_presentItem {α : Type} {item : α → List UInt8} {value : Option α}
    {bytes : List UInt8} {bound : Nat} (short : ∀ value, (item value).length ≤ bound)
    (member : bytes ∈ presentItem item value) : bytes.length ≤ bound := by
  cases value with
  | none => cases member
  | some value =>
    obtain rfl : bytes = item value := by simpa [presentItem] using member
    exact short value

namespace ExecutionHeader

theorem items_length (header : ExecutionHeader) : header.items.length ≤ 23 := by
  have baseFee := presentItem_count (fun value => scalarItem value.val) header.baseFeePerGas
  have withdrawals := presentItem_count (fun value => bytesItem value.val) header.withdrawalsRoot
  have blobGas := presentItem_count (fun value => scalarItem value.val) header.blobGasUsed
  have excessBlob := presentItem_count (fun value => scalarItem value.val) header.excessBlobGas
  have beacon := presentItem_count (fun value => bytesItem value.val) header.parentBeaconBlockRoot
  have requests := presentItem_count (fun value => bytesItem value.val) header.requestsHash
  have accessList := presentItem_count (fun value => bytesItem value.val)
    header.blockAccessListHash
  have slot := presentItem_count (fun value => scalarItem value.val) header.slotNumber
  have shared : header.sharedItems.length = 15 := rfl
  simp only [items, List.length_append]
  omega

/-- Only the extra data has no fixed size. -/
theorem item_length {header : ExecutionHeader} (short : header.extraData.len ≤ 32)
    {bytes : List UInt8} (member : bytes ∈ header.items) : bytes.length ≤ 265 := by
  have extra : (bytesItem header.extraData.bytes).length ≤ 265 :=
    (bytesItem_length_le header.extraData.fits).trans (by
      rw [Slice.len] at short
      omega)
  have narrow {bits : Nat} (value : Fin (2 ^ bits)) (fits : bits ≤ 256) :
      (scalarItem value.val).length ≤ 265 := (scalarItem_length_le value fits).trans (by omega)
  simp only [items, List.mem_append] at member
  obtain shared | present := member
  · simp only [sharedItems, List.mem_cons, List.not_mem_nil, or_false] at shared
    obtain rfl | rfl | rfl | rfl | rfl | rfl | rfl | rfl | rfl | rfl | rfl | rfl | rfl | rfl |
      rfl := shared
    case inr.inr.inr.inr.inr.inr.inr.inr.inr.inr.inr.inr.inl => exact extra
    all_goals first
      | exact fixedItem_length_le _ (by omega)
      | exact narrow _ (by omega)
  · obtain member | member | member | member | member | member | member | member := present
    all_goals
      refine mem_presentItem (fun value => ?_) member
      first
      | exact fixedItem_length_le _ (by omega)
      | exact narrow _ (by omega)

theorem payload_length {header : ExecutionHeader} (short : header.extraData.len ≤ 32) :
    header.items.flatten.length ≤ 6095 := by
  have count := header.items_length
  have total : (header.items.map List.length).sum ≤ header.items.length * 265 := by
    have bounded := List.sum_le_card_nsmul (header.items.map List.length) 265 (by
      intro length member
      obtain ⟨bytes, inside, rfl⟩ := List.mem_map.mp member
      exact item_length short inside)
    rwa [List.length_map, smul_eq_mul] at bounded
  rw [List.length_flatten]
  omega

theorem rlpBytes_length {header : ExecutionHeader} (short : header.extraData.len ≤ 32) :
    header.rlpBytes.length ≤ usizeMax := by
  have payload := payload_length short
  have narrow := byteWidth_le_eight (show header.items.flatten.length ≤ usizeMax by
    rw [usizeMax_eq]
    omega)
  rw [rlpBytes, listItem_length, lengthPrefix_length, usizeMax_eq]
  split <;> omega

/-- The length pass never reaches its `unreachable`. -/
theorem encodedLen_eq {header : ExecutionHeader} {revision : Revision}
    (fits : header.Fits revision) :
    header.encodedLen revision = .ok header.rlpBytes.length := by
  rw [encodedLen, validate_fits fits, Checked.ok_bind,
    encodedListLen_eq (emitHeader_emits header)]
  change orUnreachable (lengthResult header.rlpBytes.length) = _
  rw [lengthResult_fits (rlpBytes_length fits.extraData)]
  rfl

end ExecutionHeader

end EvmZig.Stateless
