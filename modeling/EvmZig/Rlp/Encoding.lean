import EvmZig.Zig.Checked
import EvmZig.Zig.Slice
import EvmZig.Zig.BigEndian
import Mathlib.Data.Nat.Size

/-!
# Canonical RLP wire primitives (`pkg/rlp/src/encoding.zig`)

The primitives append to a sink, which is either the migration writer of
`raw.zig` or the exact-length encoder of `codec.zig`.  The items they append
are `bytesItem` and `listItem`, stated here without a sink.
-/

set_option autoImplicit false

namespace EvmZig.Rlp

open Zig

/-- `encoding.Error`. -/
inductive LengthError where
  | encodedLengthOverflow
  deriving DecidableEq, Repr

/-- `encoding.Error` joined with the error set of the sink. -/
inductive EncodingError (ε : Type) where
  | length (error : LengthError)
  | sink (error : ε)
  deriving DecidableEq, Repr

/-- The `anytype` writer of the primitives. -/
class Sink (σ : Type) (ε : outParam Type) where
  appendByte : UInt8 → Action σ ε Unit
  appendSlice : Slice → Action σ ε Unit

def u64Max : Nat := 2 ^ 64 - 1

/-- The counting loop of `lengthByteCount`. -/
def countShifts (remaining count : Nat) : Nat :=
  if remaining = 0 then count
  else countShifts (remaining >>> 8) (count + 1)
  termination_by remaining
  decreasing_by
    rw [Nat.shiftRight_eq_div_pow]
    exact Nat.div_lt_self (by omega) (by norm_num)

def lengthByteCount (value : Nat) : Checked LengthError Nat :=
  if value ≤ u64Max then .ok (countShifts value 0)
  else .fail .encodedLengthOverflow

/-- The fill loop of `writeLengthPrefix`: `count` bytes from the low end. -/
def fillLength : Nat → Nat → List UInt8 → List UInt8
  | 0, _, encoded => encoded
  | count + 1, remaining, encoded =>
      fillLength count (remaining >>> 8) (UInt8.ofNat remaining :: encoded)

/-- Number of bytes in the minimal big-endian representation; 0 only for 0.
`width` is `@bitSizeOf(T)` and `Nat.size` is `width - @clz`. -/
def significantBytes (value : Nat) : Nat :=
  if value = 0 then 0 else (Nat.size value + 7) / 8

/-- `byteLen(T)` for an unsigned type of `bits` bits. -/
def byteLen (bits : Nat) : Nat := (bits + 7) / 8

section Primitives

variable {σ ε : Type} [Sink σ ε]

/-- Append to the sink inside the joined error set. -/
def emitByte (byte : UInt8) : Action σ (EncodingError ε) Unit :=
  Action.widen .sink (Sink.appendByte byte)

def emitSlice (bytes : Slice) : Action σ (EncodingError ε) Unit :=
  Action.widen .sink (Sink.appendSlice bytes)

/-- `@intCast` to `u8`. -/
def castU8 (value : Nat) : Option UInt8 :=
  if value < 256 then some (UInt8.ofNat value) else none

/-- `left + right` on `u8`. -/
def addU8 (left right : UInt8) : Option UInt8 :=
  castU8 (left.toNat + right.toNat)

/-- A slice over bytes the caller just built in a fixed buffer. -/
def bufferSlice (bytes : List UInt8) : Option Slice :=
  if fits : bytes.length ≤ usizeMax then some ⟨bytes, fits⟩ else none

def writeLengthPrefix (shortBase longBase : UInt8) (payloadLen : Nat) :
    Action σ (EncodingError ε) Unit := do
  if payloadLen < 56 then
    emitByte (← addU8 shortBase (← castU8 payloadLen))
    return
  let lenOfLen ← Action.attempt .length (lengthByteCount payloadLen)
  emitByte (← addU8 longBase (← castU8 lenOfLen))
  if u64Max < payloadLen then
    Action.fail (.length .encodedLengthOverflow)
  emitSlice (← bufferSlice (fillLength lenOfLen payloadLen []))

def writeBytes (payload : Slice) : Action σ (EncodingError ε) Unit := do
  if payload.len = 1 then
    let first ← payload.byteAt 0
    if first < 0x80 then
      emitByte first
      return
  writeLengthPrefix 0x80 0xb7 payload.len
  emitSlice payload

/-- `writeInt` for an unsigned type of `bits` bits. -/
def writeInt (bits value : Nat) : Action σ (EncodingError ε) Unit := do
  if value = 0 then
    return ← writeBytes Slice.empty
  let encoded ← bufferSlice (beBytes (byteLen bits) value)
  let first ← subUsize encoded.len (significantBytes value)
  writeBytes (← encoded.sub first encoded.len)

def writeListPayload (payload : Slice) : Action σ (EncodingError ε) Unit := do
  writeLengthPrefix 0xc0 0xf7 payload.len
  emitSlice payload

end Primitives

/-! ## The items the primitives append -/

/-- Header of a payload of `payloadLen` bytes. -/
def lengthPrefix (shortBase longBase : Nat) (payloadLen : Nat) : List UInt8 :=
  if payloadLen < 56 then [UInt8.ofNat (shortBase + payloadLen)]
  else UInt8.ofNat (longBase + byteWidth payloadLen) :: minimalBytes payloadLen

/-- Canonical encoding of a byte string. -/
def bytesItem (payload : List UInt8) : List UInt8 :=
  match payload with
  | [byte] => if byte < 0x80 then [byte] else lengthPrefix 0x80 0xb7 1 ++ [byte]
  | _ => lengthPrefix 0x80 0xb7 payload.length ++ payload

/-- Canonical encoding of a list whose items are joined in `payload`. -/
def listItem (payload : List UInt8) : List UInt8 :=
  lengthPrefix 0xc0 0xf7 payload.length ++ payload

theorem countShifts_eq (remaining count : Nat) :
    countShifts remaining count = count + byteWidth remaining := by
  induction remaining using Nat.strong_induction_on generalizing count with
  | _ remaining ih =>
      rw [countShifts]
      by_cases zero : remaining = 0
      · simp [zero]
      · have smaller : remaining >>> 8 < remaining := by
          rw [Nat.shiftRight_eq_div_pow]
          exact Nat.div_lt_self (by omega) (by norm_num)
        rw [if_neg zero, ih _ smaller]
        have step : byteWidth remaining = byteWidth (remaining >>> 8) + 1 := by
          rw [byteWidth, Nat.digits_def' (by norm_num) (Nat.pos_of_ne_zero zero),
            List.length_cons, Nat.shiftRight_eq_div_pow]
          rfl
        omega

theorem fillLength_eq (count remaining : Nat) (encoded : List UInt8) :
    fillLength count remaining encoded = beBytes count remaining ++ encoded := by
  induction count generalizing remaining encoded with
  | zero => rfl
  | succ count ih =>
      rw [fillLength, ih, beBytes, Nat.shiftRight_eq_div_pow]
      simp

theorem significantBytes_eq (value : Nat) : significantBytes value = byteWidth value := by
  apply eq_byteWidth
  intro width
  by_cases zero : value = 0
  · simp [significantBytes, zero]
  · have size : Nat.size value ≤ 8 * width ↔ value < 2 ^ (8 * width) := Nat.size_le
    rw [significantBytes, if_neg zero]
    rw [show (256 : Nat) = 2 ^ 8 by norm_num, ← pow_mul, ← size]
    omega

theorem byteWidth_le_eight {value : Nat} (fits : value ≤ usizeMax) : byteWidth value ≤ 8 := by
  rw [byteWidth_le_iff]
  rw [usizeMax_eq] at fits
  norm_num
  omega

theorem bytesItem_single {byte : UInt8} (small : byte < 0x80) : bytesItem [byte] = [byte] := by
  simp [bytesItem, small]

theorem bytesItem_eq {payload : List UInt8}
    (notSingle : ∀ byte, payload = [byte] → ¬ byte < 0x80) :
    bytesItem payload = lengthPrefix 0x80 0xb7 payload.length ++ payload := by
  unfold bytesItem
  split
  · next byte =>
      rw [if_neg (notSingle byte rfl)]
      rfl
  · rfl

/-! ## What the primitives append to a lawful sink -/

/-- A sink that takes `count` more bytes exactly while it has room for them. -/
class LawfulSink (σ : Type) (ε : outParam Type) [Sink σ ε] where
  written : σ → List UInt8
  room : σ → Nat → Prop
  room_mono : ∀ {self : σ} {small large : Nat}, small ≤ large → room self large → room self small
  appendByte_run : ∀ (byte : UInt8) (self : σ),
    (room self 1 ∧ ∃ after, Sink.appendByte byte self = .ok () after ∧
      written after = written self ++ [byte] ∧ ∀ count, room after count ↔ room self (1 + count)) ∨
    (¬ room self 1 ∧ ∃ error after, Sink.appendByte byte self = .fail error after ∧
      written after = written self)
  appendSlice_run : ∀ (bytes : Slice) (self : σ),
    (room self bytes.len ∧ ∃ after, Sink.appendSlice bytes self = .ok () after ∧
      written after = written self ++ bytes.bytes ∧
        ∀ count, room after count ↔ room self (bytes.len + count)) ∨
    (¬ room self bytes.len ∧ ∃ error after, Sink.appendSlice bytes self = .fail error after ∧
      written after = written self)

section Appends

variable {σ ε : Type} [Sink σ ε] [LawfulSink σ ε]

open LawfulSink

/-- `body` appends exactly `bytes` where they fit, and fails where they do not. -/
def Appends (body : Action σ (EncodingError ε) Unit) (bytes : List UInt8) : Prop :=
  ∀ self : σ,
    (room self bytes.length ∧ ∃ after, body self = .ok () after ∧
      written after = written self ++ bytes ∧
        ∀ count, room after count ↔ room self (bytes.length + count)) ∨
    (¬ room self bytes.length ∧ ∃ error after, body self = .fail (.sink error) after ∧
      ∃ kept, written after = written self ++ kept)

theorem emitByte_appends (byte : UInt8) :
    Appends (emitByte byte : Action σ (EncodingError ε) Unit) [byte] := by
  intro self
  rcases appendByte_run byte self with
    ⟨fits, after, run, content, left⟩ | ⟨full, error, after, run, content⟩
  · exact .inl ⟨fits, after, by simp [emitByte, Action.widen, run], content, left⟩
  · exact .inr ⟨full, error, after, by simp [emitByte, Action.widen, run], [], by simp [content]⟩

theorem emitSlice_appends (bytes : Slice) :
    Appends (emitSlice bytes : Action σ (EncodingError ε) Unit) bytes.bytes := by
  intro self
  rcases appendSlice_run bytes self with
    ⟨fits, after, run, content, left⟩ | ⟨full, error, after, run, content⟩
  · exact .inl ⟨fits, after, by simp [emitSlice, Action.widen, run], content, left⟩
  · exact .inr ⟨full, error, after, by simp [emitSlice, Action.widen, run], [], by simp [content]⟩

theorem Appends.bind {first second : Action σ (EncodingError ε) Unit} {left right : List UInt8}
    (firstAppends : Appends first left) (secondAppends : Appends second right) :
    Appends (first >>= fun _ => second) (left ++ right) := by
  intro self
  rw [List.length_append]
  rcases firstAppends self with
    ⟨fits, middle, run, content, leftover⟩ | ⟨full, error, after, run, kept, content⟩
  · rcases secondAppends middle with
      ⟨restFits, after, restRun, restContent, restLeft⟩ |
      ⟨restFull, error, after, restRun, kept, restContent⟩
    · refine .inl ⟨(leftover _).mp restFits, after, ?_, ?_, ?_⟩
      · simp [Action.bind_run, run, restRun]
      · rw [restContent, content, List.append_assoc]
      · intro count
        rw [restLeft, leftover, Nat.add_assoc]
    · refine .inr ⟨fun wide => restFull ((leftover _).mpr wide), error, after, ?_, left ++ kept, ?_⟩
      · simp [Action.bind_run, run, restRun]
      · rw [restContent, content, List.append_assoc]
  · refine .inr ⟨fun wide => full (room_mono (Nat.le_add_right _ _) wide), error, after, ?_,
      kept, content⟩
    simp [Action.bind_run, run]

theorem castU8_eq {value : Nat} (fits : value < 256) :
    castU8 value = some (UInt8.ofNat value) := if_pos fits

theorem addU8_eq {left right : UInt8} (fits : left.toNat + right.toNat < 256) :
    addU8 left right = some (UInt8.ofNat (left.toNat + right.toNat)) := castU8_eq fits

theorem bufferSlice_eq {bytes : List UInt8} (fits : bytes.length ≤ usizeMax) :
    bufferSlice bytes = some ⟨bytes, fits⟩ := dif_pos fits

/-- The header of a payload whose length is a `usize`, for the two base pairs
of RLP: neither the casts nor the additions on `u8` overflow. -/
theorem writeLengthPrefix_appends {shortBase longBase : UInt8} {payloadLen : Nat}
    (fits : payloadLen ≤ usizeMax) (shortRoom : shortBase.toNat + 55 < 256)
    (longRoom : longBase.toNat + 8 < 256) :
    Appends (writeLengthPrefix shortBase longBase payloadLen : Action σ (EncodingError ε) Unit)
      (lengthPrefix shortBase.toNat longBase.toNat payloadLen) := by
  by_cases short : payloadLen < 56
  · have castRun : castU8 payloadLen = some (UInt8.ofNat payloadLen) := castU8_eq (by omega)
    have castValue : (UInt8.ofNat payloadLen).toNat = payloadLen := by
      rw [UInt8.toNat_ofNat']
      omega
    have addRun : addU8 shortBase (UInt8.ofNat payloadLen) =
        some (UInt8.ofNat (shortBase.toNat + payloadLen)) := by
      rw [addU8_eq (by rw [castValue]; omega), castValue]
    have bodyEq : (writeLengthPrefix shortBase longBase payloadLen :
        Action σ (EncodingError ε) Unit) =
          emitByte (UInt8.ofNat (shortBase.toNat + payloadLen)) := by
      funext self
      simp only [writeLengthPrefix, if_pos short, Action.bind_run, castRun, Action.liftM_some,
        addRun]
      cases emitByte (UInt8.ofNat (shortBase.toNat + payloadLen)) self <;> rfl
    rw [bodyEq, lengthPrefix, if_pos short]
    exact emitByte_appends _
  · have wide : payloadLen ≤ u64Max := fits
    have count : countShifts payloadLen 0 = byteWidth payloadLen := by
      rw [countShifts_eq, Nat.zero_add]
    have narrow := byteWidth_le_eight fits
    have castRun : castU8 (byteWidth payloadLen) = some (UInt8.ofNat (byteWidth payloadLen)) :=
      castU8_eq (by omega)
    have castValue : (UInt8.ofNat (byteWidth payloadLen)).toNat = byteWidth payloadLen := by
      rw [UInt8.toNat_ofNat']
      omega
    have addRun : addU8 longBase (UInt8.ofNat (byteWidth payloadLen)) =
        some (UInt8.ofNat (longBase.toNat + byteWidth payloadLen)) := by
      rw [addU8_eq (by rw [castValue]; omega), castValue]
    have filled : fillLength (byteWidth payloadLen) payloadLen [] = minimalBytes payloadLen := by
      rw [fillLength_eq, List.append_nil, minimalBytes]
    have filledFits : (minimalBytes payloadLen).length ≤ usizeMax := by
      rw [minimalBytes_length, usizeMax_eq]
      omega
    have bodyEq : (writeLengthPrefix shortBase longBase payloadLen :
        Action σ (EncodingError ε) Unit) =
          (emitByte (UInt8.ofNat (longBase.toNat + byteWidth payloadLen)) >>= fun _ =>
            emitSlice ⟨minimalBytes payloadLen, filledFits⟩) := by
      funext self
      simp only [writeLengthPrefix, if_neg short, Action.bind_run, lengthByteCount, if_pos wide,
        Action.attempt_ok, count, castRun, Action.liftM_some, addRun, if_neg (Nat.not_lt.mpr wide),
        filled, bufferSlice_eq filledFits]
    rw [bodyEq, lengthPrefix, if_neg short]
    exact (emitByte_appends _).bind (emitSlice_appends _)

theorem writeListPayload_appends (payload : Slice) :
    Appends (writeListPayload payload : Action σ (EncodingError ε) Unit)
      (listItem payload.bytes) :=
  (writeLengthPrefix_appends payload.fits (by decide) (by decide)).bind (emitSlice_appends payload)

theorem writeBytes_appends (payload : Slice) :
    Appends (writeBytes payload : Action σ (EncodingError ε) Unit) (bytesItem payload.bytes) := by
  have general : Appends (writeLengthPrefix 0x80 0xb7 payload.len >>= fun _ => emitSlice payload :
      Action σ (EncodingError ε) Unit)
        (lengthPrefix 0x80 0xb7 payload.bytes.length ++ payload.bytes) :=
    (writeLengthPrefix_appends payload.fits (by decide) (by decide)).bind (emitSlice_appends payload)
  by_cases single : payload.len = 1
  · obtain ⟨byte, only⟩ := List.length_eq_one_iff.mp single
    have firstRun : payload.byteAt 0 = some byte := by simp [Slice.byteAt, only]
    by_cases small : byte < 0x80
    · have bodyEq : (writeBytes payload : Action σ (EncodingError ε) Unit) = emitByte byte := by
        funext self
        simp only [writeBytes, if_pos single, Action.bind_run, firstRun, Action.liftM_some,
          if_pos small]
        cases emitByte byte self <;> rfl
      rw [bodyEq, only, bytesItem_single small]
      exact emitByte_appends byte
    · have bodyEq : (writeBytes payload : Action σ (EncodingError ε) Unit) =
          (writeLengthPrefix 0x80 0xb7 payload.len >>= fun _ => emitSlice payload) := by
        funext self
        simp only [writeBytes, if_pos single, Action.bind_run, firstRun, Action.liftM_some,
          if_neg small]
      rw [bodyEq, bytesItem_eq (by
        intro other otherEq
        rw [only] at otherEq
        cases otherEq
        exact small)]
      exact general
  · have bodyEq : (writeBytes payload : Action σ (EncodingError ε) Unit) =
        (writeLengthPrefix 0x80 0xb7 payload.len >>= fun _ => emitSlice payload) := by
      funext self
      simp only [writeBytes, if_neg single, Action.bind_run]
    rw [bodyEq, bytesItem_eq (by
      intro byte byteEq
      exact absurd (by simp [Slice.len, byteEq]) single)]
    exact general

/-- A value of an unsigned type is written as its minimal representation. -/
theorem writeInt_appends {bits value : Nat} (bound : value < 2 ^ bits) (narrow : bits ≤ 256) :
    Appends (writeInt bits value : Action σ (EncodingError ε) Unit)
      (bytesItem (minimalBytes value)) := by
  by_cases zero : value = 0
  · have bodyEq : (writeInt bits value : Action σ (EncodingError ε) Unit) =
        writeBytes Slice.empty := by
      funext self
      simp only [writeInt, if_pos zero]
    rw [bodyEq, zero]
    exact writeBytes_appends Slice.empty
  · have wide : value < 256 ^ byteLen bits := by
      refine lt_of_lt_of_le bound ?_
      rw [show (256 : Nat) = 2 ^ 8 by norm_num, ← pow_mul]
      apply Nat.pow_le_pow_right (by norm_num)
      simp only [byteLen]
      omega
    have lenSmall : byteLen bits ≤ usizeMax := by
      rw [usizeMax_eq, byteLen]
      omega
    have encodedFits : (beBytes (byteLen bits) value).length ≤ usizeMax := by
      rw [beBytes_length]
      exact lenSmall
    have widthLe : byteWidth value ≤ byteLen bits := byteWidth_le_iff.mpr wide
    have subRun : subUsize (byteLen bits) (byteWidth value) =
        some (byteLen bits - byteWidth value) := subUsize_eq widthLe
    let encoded : Slice := ⟨beBytes (byteLen bits) value, encodedFits⟩
    have encodedLen : encoded.len = byteLen bits := by simp [encoded, Slice.len]
    have windowRun : encoded.sub (byteLen bits - byteWidth value) (byteLen bits) =
        some (encoded.window (byteLen bits - byteWidth value) (byteLen bits)) :=
      encoded.sub_eq (by omega) (by omega)
    have windowBytes : (encoded.window (byteLen bits - byteWidth value) (byteLen bits)).bytes =
        minimalBytes value := by
      simp only [Slice.window, encoded]
      rw [List.take_of_length_le (by simp), drop_beBytes wide]
    have bodyEq : (writeInt bits value : Action σ (EncodingError ε) Unit) =
        writeBytes (encoded.window (byteLen bits - byteWidth value) (byteLen bits)) := by
      funext self
      simp only [writeInt, if_neg zero, Action.bind_run, bufferSlice_eq encodedFits,
        Action.liftM_some, significantBytes_eq]
      rw [show (Slice.len ⟨beBytes (byteLen bits) value, encodedFits⟩) = byteLen bits from encodedLen,
        subRun, Action.liftM_some]
      simp only [show (Slice.sub ⟨beBytes (byteLen bits) value, encodedFits⟩
        (byteLen bits - byteWidth value) (byteLen bits)) = _ from windowRun, Action.liftM_some]
    rw [bodyEq, ← windowBytes]
    exact writeBytes_appends _

end Appends

end EvmZig.Rlp
