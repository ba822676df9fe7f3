import EvmZig.Rlp.Canonical

/-!
# Typed RLP codecs (`pkg/rlp/src/codec.zig`, `pkg/rlp/src/decoder.zig`)

A codec is a length pass, an encode pass and a decode pass.  The reflection
codec of a struct runs its field codecs in declaration order.  Allocations are
charged to the budget and then succeed.
-/

set_option autoImplicit false

namespace EvmZig.Rlp

open Zig

/-! ## Encoder -/

inductive EncodeError where
  | encodedLengthOverflow
  | bufferTooSmall
  | encodedLengthMismatch
  | listLimitExceeded
  deriving DecidableEq, Repr

/-- `written` is `out[0..offset]`. -/
structure Encoder where
  capacity : Nat
  written : List UInt8
  fits : capacity ≤ usizeMax
  inside : written.length ≤ capacity
  deriving DecidableEq, Repr

namespace Encoder

def init (out : Nat) (fits : out ≤ usizeMax) : Encoder := ⟨out, [], fits, Nat.zero_le _⟩

/-- Advance `offset` over bytes that lie inside `out`. -/
def advance (encoder : Encoder) (bytes : List UInt8)
    (room : encoder.written.length + bytes.length ≤ encoder.capacity) : Encoder :=
  { encoder with
    written := encoder.written ++ bytes
    inside := by rw [List.length_append]; exact room }

def appendByte (byte : UInt8) : Action Encoder EncodeError Unit := fun encoder =>
  if full : encoder.written.length = encoder.capacity then .fail .bufferTooSmall encoder
  else .ok () (encoder.advance [byte] (Nat.lt_of_le_of_ne encoder.inside full))

def appendSlice (value : Slice) : Action Encoder EncodeError Unit := fun encoder =>
  if usizeMax < encoder.written.length + value.len then .fail .encodedLengthOverflow encoder
  else if full : encoder.capacity < encoder.written.length + value.len then
    .fail .bufferTooSmall encoder
  else .ok () (encoder.advance value.bytes (Nat.le_of_not_lt full))

instance : Sink Encoder EncodeError := ⟨appendByte, appendSlice⟩

/-- `encoding.Error` is part of `EncodeError`. -/
def joinError : EncodingError EncodeError → EncodeError
  | .length .encodedLengthOverflow => .encodedLengthOverflow
  | .sink error => error

def bytes (value : Slice) : Action Encoder EncodeError Unit :=
  Action.widen joinError (writeBytes value)

def uint (bits value : Nat) : Action Encoder EncodeError Unit :=
  Action.widen joinError (writeInt bits value)

def listPrefix (payloadLen : Nat) : Action Encoder EncodeError Unit :=
  Action.widen joinError (writeLengthPrefix 0xc0 0xf7 payloadLen)

end Encoder

def checkedAdd (lhs rhs : Nat) : Checked EncodeError Nat :=
  if lhs + rhs ≤ usizeMax then .ok (lhs + rhs) else .fail .encodedLengthOverflow

def lengthPrefixLen (payloadLen : Nat) : Checked EncodeError Nat := do
  if payloadLen < 56 then
    return 1
  match lengthByteCount payloadLen with
  | .ok count => checkedAdd 1 count
  | .fail .encodedLengthOverflow => Checked.fail .encodedLengthOverflow
  | .illegal => Checked.illegal

def listEncodedLen (payloadLen : Nat) : Checked EncodeError Nat := do
  checkedAdd (← lengthPrefixLen payloadLen) payloadLen

def bytesEncodedLen (value : Slice) : Checked EncodeError Nat := do
  if value.len = 1 then
    if (← value.byteAt 0) < 0x80 then
      return 1
  checkedAdd (← lengthPrefixLen value.len) value.len

/-! ## Decoder -/

inductive DecodeError where
  | parse (error : ParseError)
  | decodeAllocationLimitExceeded
  | decodeDepthLimitExceeded
  | decodeItemLimitExceeded
  | listLimitExceeded
  deriving DecidableEq, Repr

structure Limits where
  maxDepth : Nat
  maxItems : Nat
  maxAllocatedBytes : Nat
  deriving DecidableEq, Repr

def Limits.unlimited : Limits := ⟨usizeMax, usizeMax, usizeMax⟩

structure Budget where
  limits : Limits
  visitedItems : Nat
  allocatedBytes : Nat
  deriving DecidableEq, Repr

namespace Budget

def init (limits : Limits) : Budget := ⟨limits, 0, 0⟩

def ensureItems (budget : Budget) (additional : Nat) : Checked DecodeError Unit :=
  if usizeMax < budget.visitedItems + additional then .fail .decodeItemLimitExceeded
  else if budget.limits.maxItems < budget.visitedItems + additional then
    .fail .decodeItemLimitExceeded
  else .ok ()

def ensureAllocation (budget : Budget) (bytes : Nat) : Checked DecodeError Unit :=
  if usizeMax < budget.allocatedBytes + bytes then .fail .decodeAllocationLimitExceeded
  else if budget.limits.maxAllocatedBytes < budget.allocatedBytes + bytes then
    .fail .decodeAllocationLimitExceeded
  else .ok ()

/-- The overflow arm of `commitAllocation` is `unreachable`. -/
def commitAllocation (budget : Budget) (bytes : Nat) : Option Budget := do
  return { budget with allocatedBytes := ← addUsize budget.allocatedBytes bytes }

def commitItems (budget : Budget) (additional : Nat) : Checked DecodeError Budget := do
  budget.ensureItems additional
  return { budget with visitedItems := ← addUsize budget.visitedItems additional }

end Budget

structure Decoder where
  cursor : Cursor
  budget : Budget
  depth : Nat
  deriving DecidableEq, Repr

namespace Decoder

def init (input : Slice) (budget : Budget) : Decoder := ⟨Cursor.init input, budget, 0⟩

def isDone (decoder : Decoder) : Bool := decoder.cursor.isDone

def expectDone : Action Decoder DecodeError Unit := do
  Action.attempt .parse (← Action.read Decoder.cursor).expectDone

/-- Run a cursor method on the decoder's cursor. -/
def onCursor {α : Type} (body : Action Cursor ParseError α) : Action Decoder DecodeError α :=
  fun decoder =>
    match body decoder.cursor with
    | .ok value cursor => .ok value { decoder with cursor := cursor }
    | .fail error cursor => .fail (.parse error) { decoder with cursor := cursor }
    | .illegal => .illegal

def setBudget (budget : Budget) : Action Decoder DecodeError Unit :=
  Action.modify fun decoder => { decoder with budget := budget }

def next : Action Decoder DecodeError Item := do
  let value ← onCursor Cursor.next
  let budget ← Action.read Decoder.budget
  setBudget (← budget.commitItems 1)
  return value

def nextBytes : Action Decoder DecodeError Slice := do
  Action.attempt .parse (← next).asBytes

def nextBytesExact (len : Nat) : Action Decoder DecodeError Slice := do
  Action.attempt .parse ((← next).asBytesExact len)

def nextInt (bits : Nat) : Action Decoder DecodeError Nat := do
  Action.attempt .parse ((← next).asInt bits)

def nextList : Action Decoder DecodeError Decoder := do
  let item ← next
  let childCursor ← Action.attempt .parse item.listCursor
  let decoder ← Action.read id
  let childDepth := decoder.depth + 1
  if usizeMax < childDepth then
    Action.fail .decodeDepthLimitExceeded
  if decoder.budget.limits.maxDepth < childDepth then
    Action.fail .decodeDepthLimitExceeded
  return ⟨childCursor, decoder.budget, childDepth⟩

/-- Run `body` on the decoder of the next list, which shares the budget. -/
def inList {α : Type} (body : Action Decoder DecodeError α) : Action Decoder DecodeError α :=
  fun decoder =>
    match nextList decoder with
    | .ok fields after =>
        match body fields with
        | .ok value last => .ok value { after with budget := last.budget }
        | .fail error last => .fail error { after with budget := last.budget }
        | .illegal => .illegal
    | .fail error after => .fail error after
    | .illegal => .illegal

end Decoder

/-! ## Codecs -/

/-- `sizeOf` is `@sizeOf(Value)`. -/
structure Codec (α : Type) where
  sizeOf : Nat
  encodedLen : α → Checked EncodeError Nat
  encodeTo : α → Action Encoder EncodeError Unit
  decodeFrom : Action Decoder DecodeError α

namespace Codec

variable {α : Type}

/-- `codec.Bytes`: the decoded slice borrows the input. -/
def bytes : Codec Slice where
  sizeOf := 16
  encodedLen := bytesEncodedLen
  encodeTo := Encoder.bytes
  decodeFrom := Decoder.nextBytes

/-- `[len]u8`. -/
abbrev FixedArray (len : Nat) : Type := { bytes : List UInt8 // bytes.length = len }

def FixedArray.slice {len : Nat} (value : FixedArray len) (fits : len ≤ usizeMax) : Slice :=
  ⟨value.val, by rw [value.property]; exact fits⟩

/-- `codec.FixedBytes(len)`. -/
def fixedBytes (len : Nat) (fits : len ≤ usizeMax) : Codec (FixedArray len) where
  sizeOf := len
  encodedLen value := bytesEncodedLen (value.slice fits)
  encodeTo value := Encoder.bytes (value.slice fits)
  decodeFrom := do
    let bytes ← Decoder.nextBytesExact len
    if exact : bytes.bytes.length = len then
      return ⟨bytes.bytes, exact⟩
    -- `@memcpy` between slices of different lengths
    Action.illegal

/-- `codec.Uint(T)` for an unsigned type of `bits` bits. -/
def uint (bits : Nat) : Codec (Fin (2 ^ bits)) where
  sizeOf := byteLen bits
  encodedLen value := do
    if value.val = 0 then
      return 1
    let count := significantBytes value.val
    if count = 1 ∧ value.val < 0x80 then
      return 1
    checkedAdd (← lengthPrefixLen count) count
  encodeTo value := Encoder.uint bits value.val
  decodeFrom := do
    let value ← Decoder.nextInt bits
    if bound : value < 2 ^ bits then
      return ⟨value, bound⟩
    Action.illegal

def sequencePayloadLen (element : Codec α) : List α → Nat → Checked EncodeError Nat
  | [], payloadLen => .ok payloadLen
  | value :: rest, payloadLen => do
      sequencePayloadLen element rest (← checkedAdd payloadLen (← element.encodedLen value))

def encodeSequencePayload (element : Codec α) : List α → Action Encoder EncodeError Unit
  | [] => pure ()
  | value :: rest => do
      element.encodeTo value
      encodeSequencePayload element rest

/-- `checkCount` of a list codec. -/
def checkCount {ε : Type} (error : ε) (maxItems : Option Nat) (count : Nat) : Checked ε Unit :=
  match maxItems with
  | some limit => if limit < count then .fail error else .ok ()
  | none => .ok ()

/-- The scan of `ListCodec.decodeAllocFrom`, which counts the items ahead. -/
def scanItems (budget : Budget) (maxItems : Option Nat) (scan : Cursor) (count : Nat) :
    Checked DecodeError Nat :=
  if scan.isDone then .ok count
  else
    match run : Cursor.next scan with
    | .fail error _ => .fail (.parse error)
    | .illegal => .illegal
    | .ok _ after => do
        if usizeMax < count + 1 then
          Checked.fail .decodeItemLimitExceeded
        checkCount DecodeError.listLimitExceeded maxItems (count + 1)
        budget.ensureItems (count + 1)
        scanItems budget maxItems after (count + 1)
  termination_by scan.input.len - scan.offset
  decreasing_by
    have accepts := next_accepts run
    rw [accepts.sameInput]
    have advances := accepts.advances
    have inside := accepts.inside
    omega

/-- The fill loop of `ListCodec.decodeAllocFrom` over `remaining` free rows. -/
def fillItems (element : Codec α) : Nat → Action Decoder DecodeError (List α)
  | 0 => do
      -- `values[initialized]` past the end, or `initialized == count`
      assert ((← Action.read Decoder.isDone) = true)
      return []
  | remaining + 1 => do
      -- leaving the loop early breaks `initialized == count`
      assert ((← Action.read Decoder.isDone) = false)
      let value ← element.decodeFrom
      return value :: (← fillItems element remaining)

/-- `ListCodec(ElementCodec, max_items)`. -/
def list (element : Codec α) (maxItems : Option Nat) : Codec (List α) where
  sizeOf := 16
  encodedLen values := do
    checkCount EncodeError.listLimitExceeded maxItems values.length
    listEncodedLen (← sequencePayloadLen element values 0)
  encodeTo values := do
    checkCount EncodeError.listLimitExceeded maxItems values.length
    Encoder.listPrefix (← sequencePayloadLen element values 0)
    encodeSequencePayload element values
  decodeFrom := Decoder.inList do
    let fields ← Action.read id
    let count ← scanItems fields.budget maxItems fields.cursor 0
    if usizeMax < element.sizeOf * count then
      Action.fail .decodeAllocationLimitExceeded
    let allocationBytes := element.sizeOf * count
    fields.budget.ensureAllocation allocationBytes
    Decoder.setBudget (← fields.budget.commitAllocation allocationBytes)
    fillItems element count

def listOf (element : Codec α) : Codec (List α) := list element none

end Codec

/-- The field codecs of a struct, in declaration order. -/
structure Fields (φ : Type) where
  encodedLen : φ → Nat → Checked EncodeError Nat
  encodeTo : φ → Action Encoder EncodeError Unit
  decodeFrom : Action Decoder DecodeError φ

namespace Fields

variable {α φ : Type}

def nil : Fields Unit where
  encodedLen _ payloadLen := .ok payloadLen
  encodeTo _ := pure ()
  decodeFrom := pure ()

def cons (field : Codec α) (rest : Fields φ) : Fields (α × φ) where
  encodedLen value payloadLen := do
    rest.encodedLen value.2 (← checkedAdd payloadLen (← field.encodedLen value.1))
  encodeTo value := do
    field.encodeTo value.1
    rest.encodeTo value.2
  decodeFrom := do
    let first ← field.decodeFrom
    return (first, ← rest.decodeFrom)

end Fields

/-- `codec.Struct(T, .{})`, with `T` given by its field tuple. -/
def Codec.struct {α φ : Type} (sizeOf : Nat) (fields : Fields φ) (toFields : α → φ)
    (ofFields : φ → α) : Codec α where
  sizeOf := sizeOf
  encodedLen value := do
    listEncodedLen (← fields.encodedLen (toFields value) 0)
  encodeTo value := do
    Encoder.listPrefix (← fields.encodedLen (toFields value) 0)
    fields.encodeTo (toFields value)
  decodeFrom := Decoder.inList do
    let value ← fields.decodeFrom
    Decoder.expectDone
    return ofFields value

/-- `codec.encodeExact` on a buffer of `out` bytes. -/
def encodeExact (encodeTo : Action Encoder EncodeError Unit) (out expected : Nat) :
    Checked EncodeError Slice :=
  if out < expected then .fail .bufferTooSmall
  else if fits : expected ≤ usizeMax then
    match encodeTo (Encoder.init expected fits) with
    | .ok _ encoder => do
        if encoder.written.length ≠ expected then
          Checked.fail .encodedLengthMismatch
        bufferSlice encoder.written
    | .fail error _ => .fail error
    | .illegal => .illegal
  else .illegal

/-- `codec.encodeAllocAs`. -/
def encodeAllocAs {α : Type} (codec : Codec α) (value : α) : Checked EncodeError Slice := do
  let len ← codec.encodedLen value
  encodeExact (codec.encodeTo value) len len

/-- `codec.decodeAllocWithBudgetAs`: the value and the budget left behind. -/
def decodeAllocWithBudgetAs {α : Type} (codec : Codec α) (bytes : Slice) (budget : Budget) :
    Checked DecodeError (α × Budget) :=
  match (do let value ← codec.decodeFrom; Decoder.expectDone; return value)
      (Decoder.init bytes budget) with
  | .ok value decoder => .ok (value, decoder.budget)
  | .fail error _ => .fail error
  | .illegal => .illegal

end EvmZig.Rlp
