import EvmZig.State.Types

/-!
# Packed logs (`src/state/LogBuffer.zig`)

Rows hold ranges into one topic list and one data list; a scope is rolled
back by truncating the three lists.
-/

set_option autoImplicit false

namespace EvmZig.State

/-- `Host.Log`. -/
structure HostLog where
  address : Address
  topics : List U256
  data : Bytes
  deriving DecidableEq

/-- `range.Range(T, Len)`. -/
structure LogRange where
  offset : Nat := 0
  len : Nat := 0
  deriving DecidableEq

/-- `Range.slice`, with its bounds assertion. -/
def LogRange.slice {α : Type} (range : LogRange) (items : List α) : Option (List α) :=
  if range.offset + range.len ≤ items.length then
    some ((items.drop range.offset).take range.len)
  else none

structure LogRow where
  address : Address
  topics : LogRange
  data : LogRange
  deriving DecidableEq

structure LogBuffer where
  rows : List LogRow := []
  topics : List U256 := []
  data : Bytes := []
  deriving DecidableEq

/-- `Checkpoint.Log`. -/
structure LogCheckpoint where
  rowsLen : Nat
  topicsLen : Nat
  dataLen : Nat
  deriving DecidableEq

namespace LogBuffer

/-- `max_topics`. -/
def maxTopics : Nat := 4

def checkpoint (self : LogBuffer) : LogCheckpoint where
  rowsLen := self.rows.length
  topicsLen := self.topics.length
  dataLen := self.data.length

/-- The three lengths a truncation asserts. -/
def Reaches (self : LogBuffer) (value : LogCheckpoint) : Prop :=
  value.rowsLen ≤ self.rows.length ∧ value.topicsLen ≤ self.topics.length ∧
    value.dataLen ≤ self.data.length

instance (self : LogBuffer) (value : LogCheckpoint) : Decidable (self.Reaches value) :=
  inferInstanceAs (Decidable (_ ∧ _ ∧ _))

/-- `truncate` once its assertions passed. -/
def truncate (self : LogBuffer) (value : LogCheckpoint) : LogBuffer where
  rows := self.rows.take value.rowsLen
  topics := self.topics.take value.topicsLen
  data := self.data.take value.dataLen

/-- `append` once the topic bound and the capacity are settled. -/
def append (self : LogBuffer) (log : HostLog) : LogBuffer where
  rows := self.rows ++ [{
    address := log.address
    topics := { offset := self.topics.length, len := log.topics.length }
    data := { offset := self.data.length, len := log.data.length } }]
  topics := self.topics ++ log.topics
  data := self.data ++ log.data

/-- `View.get`. -/
def get (self : LogBuffer) (index : Nat) : Option HostLog := do
  let row ← self.rows[index]?
  let topics ← row.topics.slice self.topics
  let data ← row.data.slice self.data
  return { address := row.address, topics, data }

/-- The second buffer continues the first. -/
structure Extends (before after : LogBuffer) : Prop where
  rows : before.rows <+: after.rows
  topics : before.topics <+: after.topics
  data : before.data <+: after.data

theorem Extends.refl (self : LogBuffer) : Extends self self :=
  ⟨List.prefix_refl _, List.prefix_refl _, List.prefix_refl _⟩

theorem Extends.trans {first second third : LogBuffer} (left : Extends first second)
    (right : Extends second third) : Extends first third :=
  ⟨left.rows.trans right.rows, left.topics.trans right.topics, left.data.trans right.data⟩

theorem extends_append (self : LogBuffer) (log : HostLog) : Extends self (self.append log) :=
  ⟨List.prefix_append _ _, List.prefix_append _ _, List.prefix_append _ _⟩

theorem Extends.reaches {before after : LogBuffer} (grows : Extends before after) :
    after.Reaches before.checkpoint :=
  ⟨grows.rows.length_le, grows.topics.length_le, grows.data.length_le⟩

/-- Truncating to the lengths of a buffer that was continued gives it back. -/
theorem Extends.truncate {before after : LogBuffer} (grows : Extends before after) :
    after.truncate before.checkpoint = before := by
  cases before
  simp only [LogBuffer.truncate, checkpoint, LogBuffer.mk.injEq]
  exact ⟨(List.prefix_iff_eq_take.mp grows.rows).symm,
    (List.prefix_iff_eq_take.mp grows.topics).symm, (List.prefix_iff_eq_take.mp grows.data).symm⟩

end LogBuffer

end EvmZig.State
