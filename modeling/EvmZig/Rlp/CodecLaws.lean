import EvmZig.Rlp.Codec

/-!
# Laws of the typed RLP codecs

A lawful codec has one encoding per value, which is a single canonical item;
its three passes agree with it, and the decoder consumes exactly it.
-/

set_option autoImplicit false

namespace EvmZig.Rlp

open Zig

/-! ## Lengths -/

/-- The result of a length pass whose encoding has `length` bytes. -/
def lengthResult (length : Nat) : Checked EncodeError Nat :=
  if length ≤ usizeMax then .ok length else .fail .encodedLengthOverflow

theorem lengthResult_fits {length : Nat} (fits : length ≤ usizeMax) :
    lengthResult length = .ok length := if_pos fits

theorem lengthResult_eq_ok {length result : Nat} :
    lengthResult length = .ok result ↔ result = length ∧ length ≤ usizeMax := by
  unfold lengthResult
  split
  · next fits => simp [fits, eq_comm]
  · next wide => simp [wide]

theorem checkedAdd_eq (lhs rhs : Nat) : checkedAdd lhs rhs = lengthResult (lhs + rhs) := rfl

/-- Lengths add up, overflow included. -/
theorem lengthResult_bind (left right : Nat) :
    (lengthResult left >>= fun payloadLen => lengthResult (right + payloadLen)) =
      lengthResult (right + left) := by
  unfold lengthResult
  by_cases fits : left ≤ usizeMax
  · simp [fits]
  · have wide : ¬ right + left ≤ usizeMax := by omega
    simp [fits, wide]

theorem lengthPrefix_length (shortBase longBase payloadLen : Nat) :
    (lengthPrefix shortBase longBase payloadLen).length =
      if payloadLen < 56 then 1 else 1 + byteWidth payloadLen := by
  unfold lengthPrefix
  split
  · rfl
  · rw [List.length_cons, minimalBytes_length]
    omega

theorem lengthPrefixLen_eq {payloadLen : Nat} (fits : payloadLen ≤ usizeMax)
    (shortBase longBase : Nat) :
    lengthPrefixLen payloadLen = .ok (lengthPrefix shortBase longBase payloadLen).length := by
  rw [lengthPrefix_length]
  unfold lengthPrefixLen
  by_cases short : payloadLen < 56
  · simp [short]
  · have narrow := byteWidth_le_eight fits
    have count : lengthByteCount payloadLen = .ok (byteWidth payloadLen) := by
      rw [lengthByteCount, if_pos (show payloadLen ≤ u64Max from fits), countShifts_eq,
        Nat.zero_add]
    have sum : checkedAdd 1 (byteWidth payloadLen) = .ok (1 + byteWidth payloadLen) :=
      lengthResult_fits (by rw [usizeMax_eq]; omega)
    simp [short, count, sum]

theorem listItem_length (payload : List UInt8) :
    (listItem payload).length =
      (lengthPrefix 0xc0 0xf7 payload.length).length + payload.length := by
  rw [listItem, List.length_append]

theorem listEncodedLen_eq {payload : List UInt8} (fits : payload.length ≤ usizeMax) :
    listEncodedLen payload.length = lengthResult (listItem payload).length := by
  rw [listEncodedLen, lengthPrefixLen_eq fits 0xc0 0xf7, listItem_length]
  rfl

/-- The list header over a payload length that may itself have overflowed. -/
theorem listEncodedLen_bind (payload : List UInt8) :
    (lengthResult payload.length >>= listEncodedLen) = lengthResult (listItem payload).length := by
  by_cases fits : payload.length ≤ usizeMax
  · rw [lengthResult_fits fits]
    exact listEncodedLen_eq fits
  · have wide : ¬ (listItem payload).length ≤ usizeMax := by
      rw [listItem_length]
      omega
    simp [lengthResult, fits, wide]

theorem bytesEncodedLen_eq (value : Slice) :
    bytesEncodedLen value = lengthResult (bytesItem value.bytes).length := by
  have fits : value.len ≤ usizeMax := value.len_le
  have general : (lengthPrefixLen value.len >>= fun header => checkedAdd header value.len) =
      lengthResult (lengthPrefix 0x80 0xb7 value.bytes.length ++ value.bytes).length := by
    rw [lengthPrefixLen_eq fits 0x80 0xb7, List.length_append]
    rfl
  unfold bytesEncodedLen
  by_cases single : value.len = 1
  · obtain ⟨byte, only⟩ := List.length_eq_one_iff.mp single
    have byteRun : value.byteAt 0 = some byte := by simp [Slice.byteAt, only]
    simp only [if_pos single, byteRun, Checked.liftM_some, Checked.ok_bind]
    by_cases small : byte < 0x80
    · rw [if_pos small, only, bytesItem_single small]
      exact (lengthResult_fits (by rw [usizeMax_eq]; simp)).symm
    · rw [if_neg small, bytesItem_eq (by
        intro other otherEq
        rw [only] at otherEq
        cases otherEq
        exact small)]
      exact general
  · rw [if_neg single, bytesItem_eq (by
      intro byte byteEq
      exact absurd (by simp [Slice.len, byteEq]) single)]
    exact general

theorem itemBytes_ne_nil (kind : Kind) (payload : List UInt8) : itemBytes kind payload ≠ [] := by
  rcases itemBytes_shape kind payload with ⟨byte, rfl, rfl, small⟩ | ⟨short, notSingle⟩ | long
  · rw [itemBytes, bytesItem_single small]
    simp
  · rw [itemBytes_shortFirst short fun kindEq byte => notSingle byte kindEq]
    simp
  · rw [itemBytes_longFirst kind long]
    simp

theorem itemBytes_length_pos (kind : Kind) (payload : List UInt8) :
    0 < (itemBytes kind payload).length :=
  List.length_pos_iff.mpr (itemBytes_ne_nil kind payload)

/-! ## Writing into an exact buffer -/

instance : LawfulSink Encoder EncodeError where
  written := Encoder.written
  room encoder count := encoder.written.length + count ≤ encoder.capacity
  room_mono := by
    intro encoder small large ordered fits
    omega
  appendByte_run := by
    intro byte encoder
    have inside := encoder.inside
    by_cases full : encoder.written.length = encoder.capacity
    · exact .inr ⟨by omega, _, _, dif_pos full, rfl⟩
    · refine .inl ⟨by omega, _, dif_neg full, rfl, ?_⟩
      intro count
      simp only [Encoder.advance, List.length_append, List.length_singleton]
      omega
  appendSlice_run := by
    intro bytes encoder
    have capacityFits := encoder.fits
    change (_ ∧ ∃ after, Encoder.appendSlice bytes encoder = _ ∧ _) ∨
      (_ ∧ ∃ error after, Encoder.appendSlice bytes encoder = _ ∧ _)
    unfold Encoder.appendSlice
    by_cases wide : usizeMax < encoder.written.length + bytes.len
    · exact .inr ⟨by omega, _, _, if_pos wide, rfl⟩
    · rw [if_neg wide]
      by_cases full : encoder.capacity < encoder.written.length + bytes.len
      · exact .inr ⟨by omega, _, _, dif_pos full, rfl⟩
      · refine .inl ⟨by omega, _, dif_neg full, rfl, ?_⟩
        intro count
        simp only [Encoder.advance, Slice.len, List.length_append]
        omega

/-- `body` appends `bytes` to an encoder that still has room for them. -/
def WritesTo {α : Type} (body : Action Encoder EncodeError α) (bytes : List UInt8) (value : α) :
    Prop :=
  ∀ (encoder : Encoder) (room : encoder.written.length + bytes.length ≤ encoder.capacity),
    body encoder = .ok value (encoder.advance bytes room)

abbrev Writes (body : Action Encoder EncodeError Unit) (bytes : List UInt8) : Prop :=
  WritesTo body bytes ()

theorem Encoder.ext_written {left right : Encoder} (capacity : left.capacity = right.capacity)
    (written : left.written = right.written) : left = right := by
  cases left
  cases right
  cases capacity
  cases written
  rfl

theorem Writes.of_appends {body : Action Encoder (EncodingError EncodeError) Unit}
    {bytes : List UInt8} (appends : Appends body bytes) :
    Writes (Action.widen Encoder.joinError body) bytes := by
  intro encoder room
  rcases appends encoder with ⟨-, after, run, content, left⟩ | ⟨full, -⟩
  · have inside := after.inside
    have contentEq : after.written = encoder.written ++ bytes := content
    have lengths := congrArg List.length contentEq
    rw [List.length_append] at lengths
    -- the room left behind pins the capacity
    have upper := (left (after.capacity - after.written.length)).mp
      (show _ + _ ≤ _ by omega)
    have lower := (left (encoder.capacity - after.written.length)).mpr
      (show _ + _ ≤ _ by omega)
    have upperEq : encoder.written.length + (bytes.length +
      (after.capacity - after.written.length)) ≤ encoder.capacity := upper
    have lowerEq : after.written.length + (encoder.capacity - after.written.length) ≤
      after.capacity := lower
    have afterEq : after = encoder.advance bytes room :=
      Encoder.ext_written (show after.capacity = encoder.capacity by omega) contentEq
    simp [Action.widen, run, afterEq]
  · exact absurd room full

section WritesTo

variable {α β : Type}

theorem WritesTo.pure (value : α) : WritesTo (pure value) [] value := by
  intro encoder room
  exact congrArg (Outcome.ok value) (Encoder.ext_written rfl (List.append_nil _).symm)

theorem WritesTo.bind {first : Action Encoder EncodeError α}
    {second : α → Action Encoder EncodeError β} {left right : List UInt8} {value : α} {result : β}
    (firstWrites : WritesTo first left value) (secondWrites : WritesTo (second value) right result) :
    WritesTo (first >>= second) (left ++ right) result := by
  intro encoder room
  rw [List.length_append] at room
  have leftRoom : encoder.written.length + left.length ≤ encoder.capacity := by omega
  have rightRoom : (encoder.advance left leftRoom).written.length + right.length ≤
      (encoder.advance left leftRoom).capacity := by
    simp only [Encoder.advance, List.length_append]
    omega
  rw [Action.bind_run, firstWrites encoder leftRoom]
  simp only [secondWrites _ rightRoom]
  exact congrArg (Outcome.ok result) (Encoder.ext_written rfl (List.append_assoc _ _ _))

/-- A step that leaves the encoder alone. -/
theorem WritesTo.checked {first : Checked EncodeError α} {second : α → Action Encoder EncodeError β}
    {bytes : List UInt8} {value : α} {result : β} (run : first = .ok value)
    (rest : WritesTo (second value) bytes result) :
    WritesTo (liftM first >>= second) bytes result := by
  intro encoder room
  rw [run, Action.bind_run, Action.liftM_ok]
  exact rest encoder room

end WritesTo

theorem Encoder.bytes_writes (value : Slice) :
    Writes (Encoder.bytes value) (bytesItem value.bytes) :=
  .of_appends (writeBytes_appends value)

theorem Encoder.uint_writes {bits value : Nat} (bound : value < 2 ^ bits) (narrow : bits ≤ 256) :
    Writes (Encoder.uint bits value) (bytesItem (minimalBytes value)) :=
  .of_appends (writeInt_appends bound narrow)

theorem Encoder.listPrefix_writes {payloadLen : Nat} (fits : payloadLen ≤ usizeMax) :
    Writes (Encoder.listPrefix payloadLen) (lengthPrefix 0xc0 0xf7 payloadLen) :=
  .of_appends (writeLengthPrefix_appends fits (by decide) (by decide))

/-- `encodeExact` into a buffer of the encoded length. -/
theorem encodeExact_run {encodeTo : Action Encoder EncodeError Unit} {bytes : List UInt8}
    (writes : Writes encodeTo bytes) (fits : bytes.length ≤ usizeMax) :
    encodeExact encodeTo bytes.length bytes.length = .ok ⟨bytes, fits⟩ := by
  have room : (Encoder.init bytes.length fits).written.length + bytes.length ≤
      (Encoder.init bytes.length fits).capacity := by simp [Encoder.init]
  have run := writes (Encoder.init bytes.length fits) room
  simp only [encodeExact, lt_irrefl, if_false, dif_pos fits, run]
  simp [Encoder.advance, Encoder.init, bufferSlice_eq fits]

end EvmZig.Rlp
