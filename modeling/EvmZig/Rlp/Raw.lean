import EvmZig.Rlp.Encoding

/-!
# Borrowed RLP parsing and writing (`pkg/rlp/src/raw.zig`)
-/

set_option autoImplicit false

namespace EvmZig.Rlp

open Zig

inductive ParseError where
  | expectedBytes
  | expectedList
  | inputTooShort
  | intTooLarge
  | lengthOverflow
  | nonCanonicalInteger
  | nonCanonicalLength
  | nonCanonicalSingleByte
  | trailingBytes
  | unexpectedLength
  deriving DecidableEq, Repr

/-! ## Writer -/

inductive WriterError where
  | outOfMemory
  | noSpaceLeft
  deriving DecidableEq, Repr

inductive WriterKind where
  | allocating
  | borrowed
  deriving DecidableEq, Repr

/-- `limit` is the length of the borrowed buffer, or the largest output for
which the allocator still provides capacity. -/
structure Writer where
  kind : WriterKind
  limit : Nat
  written : List UInt8
  deriving DecidableEq, Repr

namespace Writer

def fixed (bufferLen : Nat) : Writer := ⟨.borrowed, bufferLen, []⟩

def len (writer : Writer) : Nat := writer.written.length

/-- The error of an append that does not fit. -/
def full (writer : Writer) : WriterError :=
  match writer.kind with
  | .allocating => .outOfMemory
  | .borrowed => .noSpaceLeft

def truncate (newLen : Nat) (writer : Writer) : Writer :=
  { writer with written := writer.written.take newLen }

def appendByte (byte : UInt8) : Action Writer WriterError Unit := fun writer =>
  if writer.len + 1 ≤ writer.limit then
    .ok () { writer with written := writer.written ++ [byte] }
  else .fail writer.full writer

def appendSlice (bytes : Slice) : Action Writer WriterError Unit := fun writer =>
  if writer.len + bytes.len ≤ writer.limit then
    .ok () { writer with written := writer.written ++ bytes.bytes }
  else .fail writer.full writer

instance : Sink Writer WriterError := ⟨appendByte, appendSlice⟩

/-- Roll the output back to its starting length when `append` fails part way. -/
def allOrNothing (append : Action Writer WriterError Unit) : Action Writer WriterError Unit :=
  fun writer => Action.errdefer (truncate writer.len) append writer

/-- The error arm of `appendCanonicalBytes` and its siblings: the overflow arm
is `unreachable`. -/
def appendCanonical (write : Action Writer (EncodingError WriterError) Unit) :
    Action Writer WriterError Unit := fun writer =>
  match write writer with
  | .ok value after => .ok value after
  | .fail (.length .encodedLengthOverflow) _ => .illegal
  | .fail (.sink error) after => .fail error after
  | .illegal => .illegal

def bytes (payload : Slice) : Action Writer WriterError Unit :=
  allOrNothing (appendCanonical (writeBytes payload))

def int (bits value : Nat) : Action Writer WriterError Unit :=
  allOrNothing (appendCanonical (writeInt bits value))

/-- Append a list whose payload is already a joined sequence of RLP items. -/
def listPayload (payload : Slice) : Action Writer WriterError Unit :=
  allOrNothing (appendCanonical (writeListPayload payload))

end Writer

/-! ## Items -/

structure Span where
  encoded : Slice
  payload : Slice
  deriving DecidableEq, Repr

inductive Kind where
  | bytes
  | list
  deriving DecidableEq, Repr

inductive Item where
  | bytes (span : Span)
  | list (span : Span)
  deriving DecidableEq, Repr

structure Cursor where
  input : Slice
  offset : Nat
  deriving DecidableEq, Repr

namespace Item

def kind : Item → Kind
  | .bytes _ => .bytes
  | .list _ => .list

def encoded : Item → Slice
  | .bytes span => span.encoded
  | .list span => span.encoded

def payload : Item → Slice
  | .bytes span => span.payload
  | .list span => span.payload

def asBytes : Item → Checked ParseError Slice
  | .bytes span => .ok span.payload
  | .list _ => .fail .expectedBytes

def asBytesExact (item : Item) (len : Nat) : Checked ParseError Slice := do
  let bytesValue ← item.asBytes
  if bytesValue.len ≠ len then
    Checked.fail .unexpectedLength
  return bytesValue

/-- One step of `value = (value << 8) | byte` on an integer of `bits` bits. -/
def shiftIn (bits value : Nat) (byte : UInt8) : Nat :=
  (value <<< 8) % 2 ^ bits ||| byte.toNat

def asInt (item : Item) (bits : Nat) : Checked ParseError Nat := do
  let bytesValue ← item.asBytes
  match bytesValue.bytes with
  | [] => return 0
  | first :: _ =>
      if first = 0 then
        Checked.fail .nonCanonicalInteger
      if byteLen bits < bytesValue.len then
        Checked.fail .intTooLarge
      let value := bytesValue.bytes.foldl (shiftIn 256) 0
      -- `std.math.cast(T, value) orelse error.IntTooLarge`
      if value < 2 ^ bits then
        return value
      Checked.fail .intTooLarge

end Item

/-! ## Cursor -/

def checkedEnd (offset len limit : Nat) : Checked ParseError Nat := do
  assert (offset ≤ limit)
  if (← subUsize limit offset) < len then
    if (← subUsize usizeMax offset) < len then
      Checked.fail .lengthOverflow
    Checked.fail .inputTooShort
  addUsize offset len

def readLongLength (input : Slice) (offset lenOfLen : Nat) : Checked ParseError Nat := do
  let stop ← checkedEnd offset lenOfLen input.len
  let bytesValue ← input.sub offset stop
  if bytesValue.bytes.head? = none ∨ bytesValue.bytes.head? = some 0 then
    Checked.fail .nonCanonicalLength
  if usizeBytes < bytesValue.len then
    Checked.fail .lengthOverflow
  return bytesValue.bytes.foldl (Item.shiftIn (8 * usizeBytes)) 0

def makeItem (kind : Kind) (encoded payload : Slice) : Item :=
  match kind with
  | .bytes => .bytes ⟨encoded, payload⟩
  | .list => .list ⟨encoded, payload⟩

namespace Cursor

def init (input : Slice) : Cursor := ⟨input, 0⟩

def isDone (cursor : Cursor) : Bool := cursor.offset == cursor.input.len

def expectDone (cursor : Cursor) : Checked ParseError Unit :=
  if cursor.isDone then .ok () else .fail .trailingBytes

def setOffset (offset : Nat) : Action Cursor ParseError Unit :=
  Action.modify fun cursor => { cursor with offset := offset }

/-- The arms of `next` for a header that states the payload length in
`lenOfLen` following bytes. -/
def nextLong (kind : Kind) (start lenOfLen : Nat) : Action Cursor ParseError Item := do
  let cursor ← Action.read id
  let payloadLen ← readLongLength cursor.input cursor.offset lenOfLen
  if payloadLen < 56 then
    Action.fail .nonCanonicalLength
  let offset ← checkedEnd cursor.offset lenOfLen cursor.input.len
  setOffset offset
  let stop ← checkedEnd offset payloadLen cursor.input.len
  let payload ← cursor.input.sub offset stop
  setOffset stop
  return makeItem kind (← cursor.input.sub start stop) payload

def next : Action Cursor ParseError Item := do
  let cursor ← Action.read id
  if cursor.input.len ≤ cursor.offset then
    Action.fail .inputTooShort
  let start := cursor.offset
  let first ← cursor.input.byteAt cursor.offset
  let offset ← addUsize cursor.offset 1
  setOffset offset
  if first.toNat < 0x80 then
    return makeItem .bytes (← cursor.input.sub start offset) (← cursor.input.sub start offset)
  if first.toNat ≤ 0xb7 then
    let len := first.toNat - 0x80
    let stop ← checkedEnd offset len cursor.input.len
    let payload ← cursor.input.sub offset stop
    if len = 1 then
      if (← payload.byteAt 0).toNat < 0x80 then
        Action.fail .nonCanonicalSingleByte
    setOffset stop
    return makeItem .bytes (← cursor.input.sub start stop) payload
  if first.toNat ≤ 0xbf then
    return ← nextLong .bytes start (first.toNat - 0xb7)
  if first.toNat ≤ 0xf7 then
    let len := first.toNat - 0xc0
    let stop ← checkedEnd offset len cursor.input.len
    let payload ← cursor.input.sub offset stop
    setOffset stop
    return makeItem .list (← cursor.input.sub start stop) payload
  return ← nextLong .list start (first.toNat - 0xf7)

end Cursor

namespace Item

def listCursor : Item → Checked ParseError Cursor
  | .bytes _ => .fail .expectedList
  | .list span => .ok (Cursor.init span.payload)

end Item

def parseExact (input : Slice) : Checked ParseError Item :=
  match Cursor.next (Cursor.init input) with
  | .ok item cursor => do
      cursor.expectDone
      return item
  | .fail error _ => .fail error
  | .illegal => .illegal

end EvmZig.Rlp
