import EvmZig.Rlp.LawfulList

/-!
# Lists whose fields are selected at runtime (`pkg/rlp/src/emitter.zig`)

An emitter runs twice over the same value: once against a sink that adds
lengths up, once against the encoder.  When both runs agree with one sequence
of bytes, the emitted list has one encoding and its length is known before a
byte is written.
-/

set_option autoImplicit false

namespace EvmZig.Rlp

open Zig

/-- The methods an emitter calls on its sink, of state `σ`. -/
structure ListFields (σ : Type) where
  encode : ∀ {α : Type}, Codec α → α → Action σ EncodeError Unit
  encodeFields : ∀ {φ : Type}, Fields φ → φ → Action σ EncodeError Unit

/-- `emit`, generic in its sink. -/
def Emitter (β : Type) : Type 1 := ∀ σ : Type, ListFields σ → β → Action σ EncodeError Unit

/-- Add to `payload_len` what a length pass returns. -/
def ListSizer.grow (length : Checked EncodeError Nat) : Action Nat EncodeError Unit := do
  let payloadLen ← checkedAdd (← Action.get) (← length)
  Action.modify fun _ => payloadLen

/-- `ListSizer`, whose state is `payload_len`. -/
def listSizer : ListFields Nat where
  encode codec value := ListSizer.grow (codec.encodedLen value)
  encodeFields fields value := ListSizer.grow (fields.encodedLen value 0)

/-- `ListEncoder`. -/
def listEncoder : ListFields Encoder where
  encode codec value := codec.encodeTo value
  encodeFields fields value := fields.encodeTo value

/-- `if (value) |present| try fields.encode(T, present)`. -/
def ListFields.encodePresent {σ α : Type} (fields : ListFields σ) (codec : Codec α) :
    Option α → Action σ EncodeError Unit
  | some value => fields.encode codec value
  | none => pure ()

section Emit

variable {β : Type} (emit : Emitter β)

def measurePayload (value : β) : Checked EncodeError Nat :=
  match emit Nat listSizer value 0 with
  | .ok _ payloadLen => .ok payloadLen
  | .fail error _ => .fail error
  | .illegal => .illegal

def encodedListLen (value : β) : Checked EncodeError Nat := do
  let payloadLen ← measurePayload emit value
  listEncodedLen payloadLen

/-- `ListEncoding(emit, Input).encodeTo`. -/
def encodeListTo (value : β) (payloadLen : Nat) : Action Encoder EncodeError Unit := do
  Encoder.listPrefix payloadLen
  emit Encoder listEncoder value

def encodeListAlloc (value : β) : Checked EncodeError Slice := do
  let payloadLen ← measurePayload emit value
  let encodedLen ← listEncodedLen payloadLen
  encodeExact (encodeListTo emit value payloadLen) encodedLen encodedLen

end Emit

/-! ## Runs that agree with one sequence of bytes -/

/-- `body` adds `length` to the payload length, or reports that it overflows. -/
def Sizes (body : Action Nat EncodeError Unit) (length : Nat) : Prop :=
  ∀ start, start ≤ usizeMax →
    (start + length ≤ usizeMax → body start = .ok () (start + length)) ∧
    (usizeMax < start + length → ∃ after, body start = .fail .encodedLengthOverflow after)

theorem Sizes.pure : Sizes (pure ()) 0 := by
  intro start within
  constructor
  · intro fits
    rfl
  · intro wide
    omega

theorem Sizes.bind {first second : Action Nat EncodeError Unit} {left right : Nat}
    (firstSizes : Sizes first left) (secondSizes : Sizes second right) :
    Sizes (first >>= fun _ => second) (left + right) := by
  intro start within
  obtain ⟨firstFits, firstWide⟩ := firstSizes start within
  by_cases room : start + left ≤ usizeMax
  · have run := firstFits room
    obtain ⟨secondFits, secondWide⟩ := secondSizes (start + left) room
    rw [← Nat.add_assoc]
    constructor
    · intro fits
      rw [Action.bind_run, run]
      exact secondFits fits
    · intro wide
      obtain ⟨after, failed⟩ := secondWide wide
      refine ⟨after, ?_⟩
      rw [Action.bind_run, run]
      exact failed
  · obtain ⟨after, failed⟩ := firstWide (by omega)
    constructor
    · intro fits
      omega
    · intro wide
      refine ⟨after, ?_⟩
      rw [Action.bind_run, failed]

theorem Sizes.grow (length : Nat) : Sizes (ListSizer.grow (lengthResult length)) length := by
  intro start within
  by_cases alone : length ≤ usizeMax
  · have measured : (liftM (lengthResult length) : Action Nat EncodeError Nat) start =
        .ok length start := by
      rw [lengthResult_fits alone]
      rfl
    constructor
    · intro fits
      have added : checkedAdd start length = .ok (start + length) := lengthResult_fits fits
      simp only [ListSizer.grow, Action.bind_run, Action.get, measured, added, Action.liftM_ok,
        Action.modify]
    · intro wide
      have overflowed : checkedAdd start length = .fail .encodedLengthOverflow :=
        if_neg (Nat.not_le.mpr wide)
      refine ⟨start, ?_⟩
      simp only [ListSizer.grow, Action.bind_run, Action.get, measured, overflowed,
        Action.liftM_fail]
  · constructor
    · intro fits
      omega
    · intro wide
      refine ⟨start, ?_⟩
      have overflowed : lengthResult length = .fail .encodedLengthOverflow := if_neg alone
      simp only [ListSizer.grow, Action.bind_run, Action.get, overflowed, Action.liftM_fail]

/-- Both runs of an emitter's step agree with `bytes`. -/
structure Emits (sizing : Action Nat EncodeError Unit) (writing : Action Encoder EncodeError Unit)
    (bytes : List UInt8) : Prop where
  sizes : Sizes sizing bytes.length
  writes : bytes.length ≤ usizeMax → Writes writing bytes

namespace Emits

theorem pure : Emits (Pure.pure ()) (Pure.pure ()) [] where
  sizes := Sizes.pure
  writes _ := WritesTo.pure ()

theorem bind {firstSizing secondSizing : Action Nat EncodeError Unit}
    {firstWriting secondWriting : Action Encoder EncodeError Unit} {left right : List UInt8}
    (first : Emits firstSizing firstWriting left) (second : Emits secondSizing secondWriting right) :
    Emits (firstSizing >>= fun _ => secondSizing) (firstWriting >>= fun _ => secondWriting)
      (left ++ right) where
  sizes := by
    rw [List.length_append]
    exact first.sizes.bind second.sizes
  writes fits := by
    rw [List.length_append] at fits
    exact (first.writes (by omega)).bind (second.writes (by omega))

theorem encode {α : Type} {codec : Codec α} (law : LawfulCodec codec) (value : α) :
    Emits (listSizer.encode codec value) (listEncoder.encode codec value) (law.encode value) where
  sizes := by
    change Sizes (ListSizer.grow (codec.encodedLen value)) _
    rw [law.encodedLen_eq]
    exact Sizes.grow _
  writes fits := law.writes value fits

theorem encodeFields {φ : Type} {fields : Fields φ} (law : LawfulFields fields) (values : φ) :
    Emits (listSizer.encodeFields fields values) (listEncoder.encodeFields fields values)
      (law.encode values) where
  sizes := by
    change Sizes (ListSizer.grow (fields.encodedLen values 0)) _
    rw [law.encodedLen_eq values 0 (Nat.zero_le _), Nat.zero_add]
    exact Sizes.grow _
  writes fits := law.writes values fits

end Emits

/-- Bytes of a field that is emitted only when it is present. -/
def LawfulCodec.encodePresent {α : Type} {codec : Codec α} (law : LawfulCodec codec) :
    Option α → List UInt8
  | some value => law.encode value
  | none => []

theorem Emits.encodePresent {α : Type} {codec : Codec α} (law : LawfulCodec codec)
    (value : Option α) :
    Emits (listSizer.encodePresent codec value) (listEncoder.encodePresent codec value)
      (law.encodePresent value) := by
  cases value with
  | none => exact Emits.pure
  | some value => exact Emits.encode law value

section Emitted

variable {β : Type} {emit : Emitter β} {value : β} {payload : List UInt8}

theorem measurePayload_eq
    (emits : Emits (emit Nat listSizer value) (emit Encoder listEncoder value) payload) :
    measurePayload emit value = lengthResult payload.length := by
  obtain ⟨fitting, overflowing⟩ := emits.sizes 0 (Nat.zero_le _)
  rw [Nat.zero_add] at fitting overflowing
  by_cases fits : payload.length ≤ usizeMax
  · rw [measurePayload, fitting fits, lengthResult_fits fits]
  · obtain ⟨after, failed⟩ := overflowing (Nat.not_le.mp fits)
    rw [measurePayload, failed, lengthResult, if_neg fits]

theorem encodedListLen_eq
    (emits : Emits (emit Nat listSizer value) (emit Encoder listEncoder value) payload) :
    encodedListLen emit value = lengthResult (listItem payload).length := by
  rw [encodedListLen, measurePayload_eq emits]
  exact listEncodedLen_bind payload

end Emitted

end EvmZig.Rlp
