import EvmZig.Stateless.Header

/-!
# The block size limit (`src/stateless/validate.zig`)

The validator computes the length of the encoded block without encoding it.
Every hash in a header has the same width, so zero hashes stand in for the
roots the validator has not computed yet.
-/

set_option autoImplicit false

namespace EvmZig.Stateless

open Zig Rlp

variable {revision : Revision}
open Bal (addressCodec addressLaw uint64Law)

structure Withdrawal where
  index : U64
  validatorIndex : U64
  address : Address
  amount : U64

/-- `block_stf.TransactionInput`: the original envelope. -/
structure TransactionInput where
  encoded : Slice

/-- `input.Block`, the fields the size check reads. -/
structure Block where
  parentHash : Hash
  feeRecipient : Address
  stateRoot : Hash
  receiptsRoot : Hash
  logsBloom : Codec.FixedArray 256
  prevRandao : U256
  number : U64
  gasLimit : U64
  gasUsed : U64
  timestamp : U64
  extraData : Slice
  baseFeePerGas : U256
  transactions : List TransactionInput := []
  withdrawals : List Withdrawal := []
  blobGasUsed : Option U64 := none
  excessBlobGas : Option U64 := none
  parentBeaconBlockRoot : Option Hash := none
  slotNumber : U64 := 0

/-- `rlp.EncodeError || eth_header.Error`. -/
inductive BlockRlpError where
  | encode (error : EncodeError)
  | header (error : HeaderError)
  deriving DecidableEq, Repr

def withdrawalCodec : Codec Withdrawal :=
  .struct 48 (.cons (.uint 64) (.cons (.uint 64) (.cons addressCodec (.cons (.uint 64) .nil))))
    (fun value => (value.index, value.validatorIndex, value.address, value.amount, ()))
    (fun fields => ⟨fields.1, fields.2.1, fields.2.2.1, fields.2.2.2.1⟩)

def withdrawalLaw : LawfulCodec withdrawalCodec :=
  .struct (.cons uint64Law (.cons uint64Law (.cons addressLaw (.cons uint64Law .nil))))
    (fun _ => rfl) (fun _ => rfl)

/-- `uint256.toBytes32`. -/
def toBytes32 (value : U256) : Hash := ⟨beBytes 32 value.val, beBytes_length 32 value.val⟩

/-- `if (revision.isImpl(fork)) value else null`. -/
def fromFork {α : Type} (revision fork : Revision) (value : α) : Option α :=
  if isImpl revision fork then some value else none

/-- The roots a header commits to and the input does not carry as such. -/
structure Roots where
  transactions : Hash
  withdrawals : Hash
  requests : Hash
  blockAccessList : Hash

def zeroRoots : Roots := ⟨splatZero 32, splatZero 32, splatZero 32, splatZero 32⟩

/-- The header of `block` under `roots`. -/
def Block.header (block : Block) (revision : Revision) (roots : Roots) : ExecutionHeader where
  parentHash := block.parentHash
  coinbase := block.feeRecipient
  stateRoot := block.stateRoot
  transactionsRoot := roots.transactions
  receiptsRoot := block.receiptsRoot
  logsBloom := block.logsBloom
  number := block.number
  gasLimit := block.gasLimit
  gasUsed := block.gasUsed
  timestamp := block.timestamp
  extraData := block.extraData
  prevRandao := toBytes32 block.prevRandao
  baseFeePerGas := fromFork revision .london block.baseFeePerGas
  withdrawalsRoot := fromFork revision .shanghai roots.withdrawals
  blobGasUsed := if isImpl revision .cancun then block.blobGasUsed else none
  excessBlobGas := if isImpl revision .cancun then block.excessBlobGas else none
  parentBeaconBlockRoot := if isImpl revision .cancun then block.parentBeaconBlockRoot else none
  requestsHash := fromFork revision .prague roots.requests
  blockAccessListHash := fromFork revision .amsterdam roots.blockAccessList
  slotNumber := fromFork revision .amsterdam block.slotNumber

/-- Length of one transaction inside the block: a list is counted as it is,
anything else as a byte string. -/
def transactionLen (entry : TransactionInput) : Checked EncodeError Nat :=
  if entry.encoded.len ≠ 0 then do
    let first ← entry.encoded.byteAt 0
    if 0xc0 ≤ first then
      return entry.encoded.len
    Codec.bytes.encodedLen entry.encoded
  else Codec.bytes.encodedLen entry.encoded

/-- The loop over `block.transactions`. -/
def transactionPayloadLen : List TransactionInput → Nat → Checked EncodeError Nat
  | [], payloadLen => .ok payloadLen
  | entry :: rest, payloadLen => do
      let encodedLen ← transactionLen entry
      transactionPayloadLen rest (← checkedAdd payloadLen encodedLen)

/-- `try` on an expression of a narrower error set. -/
def widen {ε ε' α : Type} (convert : ε → ε') : Checked ε α → Checked ε' α
  | .ok value => .ok value
  | .fail error => .fail (convert error)
  | .illegal => .illegal

def blockRlpEncodedLen (revision : Revision) (block : Block) : Checked BlockRlpError Nat := do
  let header := block.header revision zeroRoots
  let transactionsLen ← widen .encode (transactionPayloadLen block.transactions 0)
  let payloadLen ← widen .header (header.encodedLen revision)
  widen .encode do
    let payloadLen ← checkedAdd payloadLen (← listEncodedLen transactionsLen)
    let payloadLen ← checkedAdd payloadLen 1
    let payloadLen ← checkedAdd payloadLen
      (← (Codec.listOf withdrawalCodec).encodedLen block.withdrawals)
    listEncodedLen payloadLen

def blockRlpSizeValid (revision : Revision) (block : Block) (limit : Nat) : Bool :=
  match blockRlpEncodedLen revision block with
  | .ok length => decide (length ≤ limit)
  | _ => false

/-! ## The canonical block -/

/-- A transaction as the network carries it.  A type byte is no list header. -/
inductive Envelope where
  | legacy (payload : List UInt8)
  | typed (kind : UInt8) (isType : kind < 0xc0) (payload : List UInt8)

/-- A legacy transaction is a list; a typed one is its type byte and payload. -/
def Envelope.wire : Envelope → List UInt8
  | .legacy payload => listItem payload
  | .typed kind _ payload => kind :: payload

/-- Inside a block a typed transaction is wrapped as a byte string. -/
def Envelope.item : Envelope → List UInt8
  | .legacy payload => listItem payload
  | .typed kind _ payload => bytesItem (kind :: payload)

def Block.Carries (block : Block) (envelopes : List Envelope) : Prop :=
  block.transactions.map (fun entry => entry.encoded.bytes) = envelopes.map Envelope.wire

def withdrawalItem (withdrawal : Withdrawal) : List UInt8 :=
  listItem [scalarItem withdrawal.index.val, scalarItem withdrawal.validatorIndex.val,
    bytesItem withdrawal.address.val, scalarItem withdrawal.amount.val].flatten

/-- Header, transactions and empty ommers, then the lists of later forks. -/
def blockItem (header : ExecutionHeader) (envelopes : List Envelope)
    (later : List (List UInt8)) : List UInt8 :=
  listItem (header.rlpBytes ++ (listItem (envelopes.flatMap Envelope.item) ++
    (listItem [] ++ later.flatten)))

def withdrawalsItem (withdrawals : List Withdrawal) : List UInt8 :=
  listItem (withdrawals.flatMap withdrawalItem)

/-- The canonical encoding of `block` under its roots: withdrawals came with
Shanghai. -/
def canonicalBlock (revision : Revision) (roots : Roots) (block : Block)
    (envelopes : List Envelope) : List UInt8 :=
  blockItem (block.header revision roots) envelopes
    (if isImpl revision .shanghai then [withdrawalsItem block.withdrawals] else [])

/-- What the header of the block needs of its input. -/
structure Block.HeaderFits (block : Block) (revision : Revision) : Prop where
  extraData : block.extraData.len ≤ 32
  blobGasUsed : isImpl revision .cancun → block.blobGasUsed.isSome
  excessBlobGas : isImpl revision .cancun → block.excessBlobGas.isSome
  parentBeaconBlockRoot : isImpl revision .cancun → block.parentBeaconBlockRoot.isSome

theorem fromFork_isSome {α : Type} (revision fork : Revision) (value : α) :
    (fromFork revision fork value).isSome = isImpl revision fork := by
  unfold fromFork
  cases isImpl revision fork <;> rfl

theorem gated_isSome {α : Type} {implemented : Bool} {value : Option α} :
    (if implemented then value else none).isSome = implemented ↔
      (implemented → value.isSome) := by
  cases implemented <;> simp

theorem Block.header_fits {block : Block} {roots : Roots} :
    (block.header revision roots).Fits revision ↔ block.HeaderFits revision := by
  constructor
  · intro fits
    exact ⟨fits.extraData, gated_isSome.mp fits.blobGasUsed, gated_isSome.mp fits.excessBlobGas,
      gated_isSome.mp fits.parentBeaconBlockRoot⟩
  · intro fits
    exact {
      extraData := fits.extraData
      baseFeePerGas := fromFork_isSome ..
      withdrawalsRoot := fromFork_isSome ..
      blobGasUsed := gated_isSome.mpr fits.blobGasUsed
      excessBlobGas := gated_isSome.mpr fits.excessBlobGas
      parentBeaconBlockRoot := gated_isSome.mpr fits.parentBeaconBlockRoot
      requestsHash := fromFork_isSome ..
      blockAccessListHash := fromFork_isSome ..
      slotNumber := fromFork_isSome .. }

theorem header_fits_zero {block : Block} (fits : block.HeaderFits revision) :
    (block.header revision zeroRoots).Fits revision := Block.header_fits.mpr fits

/-! ## Roots do not change the length -/

theorem hashItem_length (left right : Hash) :
    (bytesItem left.val).length = (bytesItem right.val).length := by
  have exact (hash : Hash) : (bytesItem hash.val).length = 33 := by
    have long := hash.property
    rw [bytesItem_eq fun byte only => by simp [only] at long, List.length_append,
      lengthPrefix_length, long]
    rfl
  rw [exact, exact]

theorem presentItem_lengths (revision fork : Revision) (left right : Hash) :
    (presentItem (fun value => bytesItem value.val) (fromFork revision fork left)).map List.length =
      (presentItem (fun value => bytesItem value.val)
        (fromFork revision fork right)).map List.length := by
  unfold fromFork
  cases isImpl revision fork
  · rfl
  · exact congrArg ([·]) (hashItem_length left right)

theorem Block.header_length (block : Block) (revision : Revision) (left right : Roots) :
    (block.header revision left).rlpBytes.length =
      (block.header revision right).rlpBytes.length := by
  have payload : (block.header revision left).items.flatten.length =
      (block.header revision right).items.flatten.length := by
    have withdrawals := presentItem_lengths revision .shanghai left.withdrawals right.withdrawals
    have requests := presentItem_lengths revision .prague left.requests right.requests
    have accessList := presentItem_lengths revision .amsterdam left.blockAccessList
      right.blockAccessList
    have shared : (block.header revision left).sharedItems.map List.length =
        (block.header revision right).sharedItems.map List.length := by
      simp only [ExecutionHeader.sharedItems, Block.header, List.map_cons, List.map_nil,
        hashItem_length left.transactions right.transactions]
    rw [List.length_flatten, List.length_flatten]
    simp only [ExecutionHeader.items, List.map_append, shared]
    simp only [Block.header, withdrawals, requests, accessList]
  rw [ExecutionHeader.rlpBytes, ExecutionHeader.rlpBytes, listItem_length, listItem_length,
    lengthPrefix_length, lengthPrefix_length, payload]

/-! ## The computed length -/

theorem lengthPrefix_head {payloadLen : Nat} (fits : payloadLen ≤ usizeMax) :
    ∃ first rest, lengthPrefix 0xc0 0xf7 payloadLen = first :: rest ∧ 0xc0 ≤ first := by
  have narrow := byteWidth_le_eight fits
  unfold lengthPrefix
  split
  · next short =>
    refine ⟨_, _, rfl, ?_⟩
    rw [UInt8.le_iff_toNat_le, UInt8.toNat_ofNat']
    change 192 ≤ _
    omega
  · refine ⟨_, _, rfl, ?_⟩
    rw [UInt8.le_iff_toNat_le, UInt8.toNat_ofNat']
    change 192 ≤ _
    omega

/-- The first byte tells the two kinds of envelope apart. -/
theorem transactionLen_eq {entry : TransactionInput} {envelope : Envelope}
    (wire : entry.encoded.bytes = envelope.wire) :
    transactionLen entry = lengthResult envelope.item.length := by
  have wrapped : Codec.bytes.encodedLen entry.encoded =
      lengthResult (bytesItem entry.encoded.bytes).length := bytesEncodedLen_eq entry.encoded
  cases envelope with
  | legacy payload =>
    have fits := entry.encoded.fits
    have longer := itemLength_succ_le payload
    rw [wire] at fits
    change (listItem payload).length ≤ usizeMax at fits
    obtain ⟨first, rest, content, isList⟩ := lengthPrefix_head
      (show payload.length ≤ usizeMax by omega)
    have bytes : entry.encoded.bytes = first :: (rest ++ payload) := by
      rw [wire, Envelope.wire, listItem, content]
      rfl
    have nonempty : entry.encoded.len ≠ 0 := by simp [Slice.len, bytes]
    have head : entry.encoded.byteAt 0 = some first := by simp [Slice.byteAt, bytes]
    rw [transactionLen, if_pos nonempty, head, Checked.liftM_some, Checked.ok_bind, if_pos isList,
      Slice.len, wire]
    exact (lengthResult_fits fits).symm
  | typed kind isType payload =>
    have bytes : entry.encoded.bytes = kind :: payload := wire
    have nonempty : entry.encoded.len ≠ 0 := by simp [Slice.len, bytes]
    have head : entry.encoded.byteAt 0 = some kind := by simp [Slice.byteAt, bytes]
    rw [transactionLen, if_pos nonempty, head, Checked.liftM_some, Checked.ok_bind,
      if_neg (UInt8.not_le.mpr isType), wrapped, bytes]
    rfl

theorem transactionPayloadLen_eq {transactions : List TransactionInput}
    {envelopes : List Envelope}
    (carries : transactions.map (fun entry => entry.encoded.bytes) = envelopes.map Envelope.wire)
    {start : Nat} (fits : start ≤ usizeMax) :
    transactionPayloadLen transactions start =
      lengthResult (start + (envelopes.flatMap Envelope.item).length) := by
  induction transactions generalizing envelopes start with
  | nil =>
    obtain rfl : envelopes = [] := by simpa using carries.symm
    exact (lengthResult_fits fits).symm
  | cons entry rest ih =>
    cases envelopes with
    | nil => simp at carries
    | cons envelope others =>
      obtain ⟨wire, restCarries⟩ := List.cons.inj carries
      have tail {total : Nat} (totalFits : total ≤ usizeMax) := ih restCarries totalFits
      have sum := @lengthResult_add_bind start envelope.item.length _ _
        fun total totalFits => tail totalFits
      rw [List.flatMap_cons, List.length_append, ← sum, transactionPayloadLen,
        transactionLen_eq wire]

/-- What the code counts: the withdrawals list is there in every fork. -/
def countedBlock (revision : Revision) (roots : Roots) (block : Block)
    (envelopes : List Envelope) : List UInt8 :=
  blockItem (block.header revision roots) envelopes [withdrawalsItem block.withdrawals]

theorem withdrawals_encodedLen (withdrawals : List Withdrawal) :
    (Codec.listOf withdrawalCodec).encodedLen withdrawals =
      lengthResult (withdrawalsItem withdrawals).length :=
  withdrawalLaw.listOf.encodedLen_eq withdrawals

/-- The sums past the header, with the outer list header over the total. -/
theorem bodyLen_eq (header transactions withdrawals : List UInt8) :
    (do
      let payloadLen ← checkedAdd header.length
        (← lengthResult (listItem transactions).length)
      let payloadLen ← checkedAdd payloadLen 1
      let payloadLen ← checkedAdd payloadLen (← lengthResult withdrawals.length)
      listEncodedLen payloadLen) =
      lengthResult (listItem (header ++ (listItem transactions ++
        (listItem [] ++ [withdrawals].flatten)))).length := by
  have afterOmmers (total : Nat) := @lengthResult_add_bind total 1
    (fun sum => do checkedAdd sum (← lengthResult withdrawals.length)) withdrawals.length
    fun sum _ => lengthResult_bind withdrawals.length sum
  have payload := @lengthResult_add_bind header.length (listItem transactions).length
    (fun total => do
      let payloadLen ← checkedAdd total (← lengthResult 1)
      checkedAdd payloadLen (← lengthResult withdrawals.length))
    (1 + withdrawals.length) fun total _ => afterOmmers total
  have total : (header ++ (listItem transactions ++ (listItem [] ++ [withdrawals].flatten))).length =
      header.length + ((listItem transactions).length + (1 + withdrawals.length)) := by
    have ommers : (listItem []).length = 1 := rfl
    simp only [List.length_append, List.flatten_cons, List.flatten_nil, List.append_nil, ommers]
  rw [← listEncodedLen_bind (header ++ (listItem transactions ++
    (listItem [] ++ [withdrawals].flatten))), total, ← payload]
  simp [bind_assoc, lengthResult_fits (show 1 ≤ usizeMax by decide)]

theorem blockRlpEncodedLen_counts {block : Block} {envelopes : List Envelope}
    (carries : block.Carries envelopes) (fits : block.HeaderFits revision) (roots : Roots) :
    blockRlpEncodedLen revision block =
      widen .encode (lengthResult (countedBlock revision roots block envelopes).length) := by
  have transactions := transactionPayloadLen_eq carries (Nat.zero_le usizeMax)
  rw [Nat.zero_add] at transactions
  have header := ExecutionHeader.encodedLen_eq (header_fits_zero fits)
  have sameHeader := block.header_length revision roots zeroRoots
  have counted : (countedBlock revision roots block envelopes).length =
      (countedBlock revision zeroRoots block envelopes).length := by
    simp only [countedBlock, blockItem, listItem_length, lengthPrefix_length, List.length_append,
      sameHeader]
  rw [counted, blockRlpEncodedLen, transactions, header]
  by_cases narrow : (envelopes.flatMap Envelope.item).length ≤ usizeMax
  · have list := listEncodedLen_eq narrow
    have body := bodyLen_eq (block.header revision zeroRoots).rlpBytes
      (envelopes.flatMap Envelope.item) (withdrawalsItem block.withdrawals)
    rw [← list, ← withdrawals_encodedLen] at body
    rw [lengthResult_fits narrow]
    exact congrArg (widen BlockRlpError.encode) body
  · have wide : ¬ (countedBlock revision zeroRoots block envelopes).length ≤ usizeMax := by
      simp only [countedBlock, blockItem, listItem_length, List.length_append]
      omega
    rw [lengthResult, if_neg narrow, lengthResult, if_neg wide]
    rfl

/-- A header that does not fit is refused, whatever the transactions are. -/
theorem blockRlpEncodedLen_refuses {block : Block} {envelopes : List Envelope}
    (carries : block.Carries envelopes) (misfit : ¬ block.HeaderFits revision) :
    ∃ error, blockRlpEncodedLen revision block = .fail error ∧
      (error = .encode .encodedLengthOverflow ∨ error = .header .extraDataTooLong ∨
        error = .header .headerSurfaceMismatch) := by
  have transactions := transactionPayloadLen_eq carries (Nat.zero_le usizeMax)
  rw [Nat.zero_add] at transactions
  have unfit : ¬ (block.header revision zeroRoots).Fits revision := fun fits =>
    misfit (Block.header_fits.mp fits)
  rw [blockRlpEncodedLen, transactions]
  by_cases narrow : (envelopes.flatMap Envelope.item).length ≤ usizeMax
  · rw [lengthResult_fits narrow]
    obtain fits | ⟨-, failed⟩ | ⟨-, -, failed⟩ :=
      (block.header revision zeroRoots).validate_cases revision
    · exact absurd fits unfit
    · refine ⟨.header .extraDataTooLong, ?_, .inr (.inl rfl)⟩
      simp only [widen, Checked.ok_bind, ExecutionHeader.encodedLen, failed, Checked.fail_bind]
    · refine ⟨.header .headerSurfaceMismatch, ?_, .inr (.inr rfl)⟩
      simp only [widen, Checked.ok_bind, ExecutionHeader.encodedLen, failed, Checked.fail_bind]
  · refine ⟨.encode .encodedLengthOverflow, ?_, .inl rfl⟩
    rw [lengthResult, if_neg narrow]
    rfl

theorem blockRlpSizeValid_counts {block : Block} {length : Nat}
    (computed : blockRlpEncodedLen revision block = widen .encode (lengthResult length))
    (limit : U64) : blockRlpSizeValid revision block limit.val = true ↔ length ≤ limit.val := by
  have bound : limit.val ≤ usizeMax := Nat.le_pred_of_lt limit.isLt
  rw [blockRlpSizeValid, computed]
  by_cases fits : length ≤ usizeMax
  · rw [lengthResult_fits fits]
    exact decide_eq_true_iff
  · rw [lengthResult, if_neg fits]
    constructor
    · intro accepted
      cases accepted
    · intro within
      omega

theorem countedBlock_canonical (shanghai : isImpl revision .shanghai = true) (roots : Roots)
    (block : Block) (envelopes : List Envelope) :
    countedBlock revision roots block envelopes = canonicalBlock revision roots block envelopes := by
  rw [canonicalBlock, if_pos shanghai]
  rfl

/-- The size check measures the block a node would encode.  Before Shanghai it
also counts a withdrawals list; a header of another shape is refused. -/
theorem blockRlpEncodedLen_exact (revision : Revision) {block : Block} {envelopes : List Envelope}
    (carries : block.Carries envelopes) (roots : Roots) (limit : U64) :
    (block.HeaderFits revision → isImpl revision .shanghai = true →
      blockRlpEncodedLen revision block = widen .encode
        (lengthResult (canonicalBlock revision roots block envelopes).length) ∧
      (blockRlpSizeValid revision block limit.val = true ↔
        (canonicalBlock revision roots block envelopes).length ≤ limit.val)) ∧
    (block.HeaderFits revision → isImpl revision .shanghai = false →
      blockRlpEncodedLen revision block = widen .encode
        (lengthResult (countedBlock revision roots block envelopes).length)) ∧
    (¬ block.HeaderFits revision →
      (∃ error, blockRlpEncodedLen revision block = .fail error) ∧
        blockRlpSizeValid revision block limit.val = false) := by
  refine ⟨?_, ?_, ?_⟩
  · intro fits shanghai
    have computed := blockRlpEncodedLen_counts carries fits roots
    rw [countedBlock_canonical shanghai] at computed
    exact ⟨computed, blockRlpSizeValid_counts computed limit⟩
  · intro fits _
    exact blockRlpEncodedLen_counts carries fits roots
  · intro misfit
    obtain ⟨error, failed, -⟩ := blockRlpEncodedLen_refuses carries misfit
    exact ⟨⟨error, failed⟩, by rw [blockRlpSizeValid, failed]⟩

/-- A block with one legacy and one typed transaction. -/
def mixedBlock : Block where
  parentHash := splatZero 32
  feeRecipient := splatZero 20
  stateRoot := splatZero 32
  receiptsRoot := splatZero 32
  logsBloom := splatZero 256
  prevRandao := 0
  number := 1
  gasLimit := 30000000
  gasUsed := 42000
  timestamp := 1
  extraData := Slice.empty
  baseFeePerGas := 7
  transactions := [⟨⟨[0xc1, 0x05], by decide⟩⟩, ⟨⟨[0x02, 0xc1, 0x05], by decide⟩⟩]
  withdrawals := [⟨0, 1, splatZero 20, 1000⟩]
  blobGasUsed := some 0
  excessBlobGas := some 0
  parentBeaconBlockRoot := some (splatZero 32)

def mixedEnvelopes : List Envelope := [.legacy [0x05], .typed 0x02 (by decide) [0xc1, 0x05]]

theorem blockRlpEncodedLen_exact_mixed :
    blockRlpEncodedLen .osaka mixedBlock = widen .encode
      (lengthResult (canonicalBlock .osaka zeroRoots mixedBlock mixedEnvelopes).length) ∧
    (blockRlpSizeValid .osaka mixedBlock 8388608 = true ↔
      (canonicalBlock .osaka zeroRoots mixedBlock mixedEnvelopes).length ≤ 8388608) :=
  (@blockRlpEncodedLen_exact .osaka mixedBlock mixedEnvelopes rfl zeroRoots
    8388608).1 ⟨by decide, fun _ => rfl, fun _ => rfl, fun _ => rfl⟩ (by decide)

/-- No transactions, no withdrawals and `extraData`. -/
def bareBlock (extraData : Slice) : Block :=
  { mixedBlock with
    transactions := []
    withdrawals := []
    extraData := extraData }

def longExtra : Slice := ⟨List.replicate 33 0, by decide⟩

/-- Extra data of 33 bytes is refused although the block has an encoding, and
before Shanghai one byte too many is counted. -/
theorem blockRlpEncodedLen_misses :
    ((bareBlock longExtra).Carries [] ∧
      blockRlpEncodedLen .osaka (bareBlock longExtra) = .fail (.header .extraDataTooLong) ∧
      (canonicalBlock .osaka zeroRoots (bareBlock longExtra) []).length = 643) ∧
    (bareBlock Slice.empty).Carries [] ∧
      blockRlpEncodedLen .frontier (bareBlock Slice.empty) = .ok 508 ∧
      (canonicalBlock .frontier zeroRoots (bareBlock Slice.empty) []).length = 507 := by
  refine ⟨⟨rfl, ?_, ?_⟩, rfl, ?_, ?_⟩
  · decide +kernel
  · decide +kernel
  · decide +kernel
  · decide +kernel

end EvmZig.Stateless
