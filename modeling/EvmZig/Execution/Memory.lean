import EvmZig.Lib.ByteMap
import EvmZig.Primitives
import EvmZig.Zig.BigEndian
import EvmZig.Zig.Checked
import EvmZig.Zig.Signed

/-!
# Frame memory (`src/Memory.zig`)

The bytes of a memory are the first `len` of an allocated buffer.  What the
buffer holds past them is left over from the frames that used it before.
-/

set_option autoImplicit false

namespace EvmZig.Execution

open Zig
open Lib (ByteMap ByteStore overwrite)

/-- `@sizeOf(u256)`. -/
def wordSize : Nat := 32

/-- `uint256.fromBytes32`. -/
def fromBytes32 (bytes : List UInt8) : U256 := Fin.ofNat _ (beValue bytes)

/-- `uint256.writeBytes32`. -/
def toBytes32 (value : U256) : List UInt8 := beBytes 32 value.val

/-- `Allocator.Error`. -/
inductive AllocatorError where
  | outOfMemory
  deriving DecidableEq, Repr

/-- The contents of the added capacity when a buffer grows, or a refusal. -/
abbrev Allocator : Type := (request held additional : Nat) →
  Option { tail : List UInt8 // additional ≤ tail.length ∧ held + tail.length ≤ usizeMax }

structure Expansion where
  cost : Int
  nextSize : Nat
  deriving DecidableEq, Repr

structure Memory where
  buffer : List UInt8
  len : Nat
  requests : Nat
  fits : len ≤ buffer.length
  addressable : buffer.length ≤ usizeMax

namespace Memory

def items (self : Memory) : List UInt8 := self.buffer.take self.len

theorem items_length (self : Memory) : self.items.length = self.len :=
  List.length_take_of_le self.fits

theorem len_le (self : Memory) : self.len ≤ usizeMax :=
  Nat.le_trans self.fits self.addressable

def readBytes (self : Memory) (offset size : Nat) : Option (List UInt8) :=
  if offset + size ≤ self.len then some ((self.items.drop offset).take size) else none

def read (self : Memory) (offset : Nat) : Option U256 :=
  fromBytes32 <$> self.readBytes offset wordSize

/-- Assign to `self.bytes.items[offset..][0..bytes.len]`. -/
def assign (self : Memory) (offset : Nat) (bytes : List UInt8) : Option Memory :=
  if inside : offset + bytes.length ≤ self.len then
    have room : offset + bytes.length ≤ self.buffer.length := Nat.le_trans inside self.fits
    some
      { self with
        buffer := overwrite self.buffer offset bytes
        fits := Lib.overwrite_length room ▸ self.fits
        addressable := Lib.overwrite_length room ▸ self.addressable }
  else none

def write (self : Memory) (offset : Nat) (value : U256) : Option Memory :=
  self.assign offset (toBytes32 value)

def write8 (self : Memory) (offset : Nat) (value : U256) : Option Memory :=
  self.assign offset [UInt8.ofNat value.val]

def writeBytes (self : Memory) (offset : Nat) (value : List UInt8) : Option Memory :=
  if value.length = 0 then some self else self.assign offset value

/-- `value` cut to `size` bytes, or filled up with zeros. -/
def padded (size : Nat) (value : List UInt8) : List UInt8 :=
  let copied := min size value.length
  value.take copied ++ List.replicate (size - copied) 0

def writePaddedBytes (self : Memory) (offset size : Nat) (value : List UInt8) : Option Memory :=
  if size = 0 then some self else self.assign offset (padded size value)

def copy (self : Memory) (dest src size : Nat) : Option Memory := do
  assert (dest + size ≤ self.len)
  assert (src + size ≤ self.len)
  if dest = src ∨ size = 0 then return self
  self.assign dest (← self.readBytes src size)

/-! ## Expansion -/

def nextSize (offset byteSize : Nat) : Option Nat :=
  if byteSize = 0 then some 0
  else do
    let stop ← addUsize offset byteSize
    let endWithPadding ← addUsize stop (wordSize - 1)
    return endWithPadding / wordSize * wordSize

/-- The cost of `words` words of memory. -/
def wordsCost (words : Nat) : Nat := words * words / 512 + 3 * words

/-- The outer `none` is the failed assertion. -/
def memoryCost (expandSize : Nat) : Option (Option Int) := do
  assert (expandSize % wordSize = 0)
  let cost := wordsCost (expandSize / wordSize)
  return if (cost : Int) > i64Max then none else some cost

/-- The difference of the costs of two sizes. -/
def costBetween (low high : Nat) : Option (Option Int) := do
  match ← memoryCost high with
  | none => return none
  | some highCost =>
      match ← memoryCost low with
      | none => return none
      | some lowCost => some <$> subI64 highCost lowCost

def planExpansion (self : Memory) (offset byteSize : Nat) : Option (Option Expansion) :=
  match nextSize offset byteSize with
  | none => some none
  | some size =>
      if self.len < size then do
        let cost ← costBetween self.len size
        return cost.map fun cost => ⟨cost, size⟩
      else some (some ⟨0, size⟩)

/-- `appendNTimesAssumeCapacity(0, additional)`. -/
def appendZeros (additional : Nat) (self : Memory) : Option Memory :=
  if room : self.len + additional ≤ self.buffer.length then
    have inside : self.len + (List.replicate additional (0 : UInt8)).length ≤
        self.buffer.length := by rwa [List.length_replicate]
    some
      { self with
        buffer := overwrite self.buffer self.len (List.replicate additional 0)
        len := self.len + additional
        fits := Lib.overwrite_length inside ▸ room
        addressable := Lib.overwrite_length inside ▸ self.addressable }
  else none

/-- The buffer moved to an allocation with more room; what was past `len` is not moved. -/
def reallocated (self : Memory) (tail : List UInt8)
    (bounded : self.len + tail.length ≤ usizeMax) : Memory where
  buffer := self.items ++ tail
  len := self.len
  requests := self.requests + 1
  fits := by rw [List.length_append, items_length]; omega
  addressable := by rwa [List.length_append, items_length]

section

variable (allocator : Allocator)

def grow (additional : Nat) : Action Memory AllocatorError Unit := fun self =>
  match allocator self.requests self.len additional with
  | none => .fail .outOfMemory { self with requests := self.requests + 1 }
  | some ⟨tail, _, bounded⟩ =>
      match (self.reallocated tail bounded).appendZeros additional with
      | some after => .ok () after
      | none => .illegal

def resize (size : Nat) : Action Memory AllocatorError Unit := do
  Action.assert fun self => size > self.len
  let self ← Action.get
  let additional := size - self.len
  if self.buffer.length < size then grow allocator additional
  else
    let after ← (self.appendZeros additional : Option Memory)
    Action.modify fun _ => after

def applyExpansion (expansion : Expansion) : Action Memory AllocatorError Unit := do
  let self ← Action.get
  if self.len ≥ expansion.nextSize then return ()
  resize allocator expansion.nextSize

end

/-! ## The byte map of a memory -/

/-- What the memory holds at every address, blank past its end. -/
def bytesAt (self : Memory) : ByteMap := ByteMap.ofBytes self.items

variable {self after : Memory} {offset size : Nat} {bytes : List UInt8}

theorem readBytes_eq_some :
    self.readBytes offset size = some bytes ↔
      offset + size ≤ self.len ∧ bytes = self.bytesAt.load offset size := by
  unfold readBytes
  by_cases inside : offset + size ≤ self.len
  · have bounded : offset + size ≤ self.items.length := by rwa [items_length]
    rw [if_pos inside, bytesAt, Lib.load_ofBytes bounded, Option.some.injEq]
    exact ⟨fun same => ⟨inside, same.symm⟩, fun same => same.2.symm⟩
  · rw [if_neg inside]
    exact ⟨nofun, fun same => absurd same.1 inside⟩

/-- What an assignment does to the memory. -/
structure Stored (stored : ByteStore) (before after : Memory) : Prop where
  inside : stored.bytes ≠ [] → stored.offset + stored.bytes.length ≤ before.len
  len : after.len = before.len
  bytesAt : after.bytesAt = before.bytesAt.store stored

theorem assign_stored (ran : self.assign offset bytes = some after) :
    Stored ⟨offset, bytes⟩ self after := by
  unfold assign at ran
  split at ran
  · rename_i inside
    cases ran
    refine ⟨fun _ => inside, rfl, ?_⟩
    have bounded : offset + bytes.length ≤ self.items.length := by rwa [items_length]
    rw [Memory.bytesAt, items, Lib.overwrite_take inside self.fits]
    exact Lib.ofBytes_overwrite bounded
  · cases ran

theorem Stored.nothing (offset : Nat) : Stored ⟨offset, []⟩ self self := by
  refine ⟨fun some => absurd rfl some, rfl, ?_⟩
  funext address
  refine (ByteMap.store_apart ?_).symm
  rintro ⟨low, high⟩
  exact absurd (Nat.lt_of_le_of_lt low high) (Nat.lt_irrefl _)

theorem toBytes32_length (value : U256) : (toBytes32 value).length = wordSize :=
  beBytes_length ..

theorem padded_length (size : Nat) (value : List UInt8) : (padded size value).length = size := by
  simp only [padded, List.length_append, List.length_take, List.length_replicate]
  omega

theorem write_stored {value : U256} (ran : self.write offset value = some after) :
    Stored ⟨offset, toBytes32 value⟩ self after :=
  assign_stored ran

theorem write8_stored {value : U256} (ran : self.write8 offset value = some after) :
    Stored ⟨offset, [UInt8.ofNat value.val]⟩ self after :=
  assign_stored ran

theorem writeBytes_stored (ran : self.writeBytes offset bytes = some after) :
    Stored ⟨offset, bytes⟩ self after := by
  unfold writeBytes at ran
  split at ran
  · rename_i empty
    cases ran
    rw [List.length_eq_zero_iff.mp empty]
    exact Stored.nothing offset
  · exact assign_stored ran

theorem writePaddedBytes_stored (ran : self.writePaddedBytes offset size bytes = some after) :
    Stored ⟨offset, padded size bytes⟩ self after := by
  unfold writePaddedBytes at ran
  split at ran
  · rename_i empty
    cases ran
    have nothing : padded size bytes = [] := by
      apply List.length_eq_zero_iff.mp
      rw [padded_length, empty]
    rw [nothing]
    exact Stored.nothing offset
  · exact assign_stored ran

/-- A copy stores what its source held before, also where the ranges overlap. -/
theorem copy_stored {dest src : Nat} (ran : self.copy dest src size = some after) :
    Stored ⟨dest, self.bytesAt.load src size⟩ self after ∧ src + size ≤ self.len := by
  unfold copy at ran
  simp only [Option.bind_eq_bind, Option.bind_eq_some_iff] at ran
  obtain ⟨_, destAsserted, _, srcAsserted, ran⟩ := ran
  have destInside : dest + size ≤ self.len := assert_holds destAsserted
  have srcInside : src + size ≤ self.len := assert_holds srcAsserted
  refine ⟨?_, srcInside⟩
  split at ran
  · rename_i trivial
    cases ran
    rcases trivial with rfl | rfl
    · refine ⟨fun _ => ?_, rfl, ?_⟩
      · rwa [ByteMap.load_length]
      · exact (ByteMap.store_load _ _ _).symm
    · exact Stored.nothing dest
  · rw [Option.bind_eq_some_iff] at ran
    obtain ⟨held, reads, ran⟩ := ran
    obtain ⟨-, rfl⟩ := readBytes_eq_some.mp reads
    exact assign_stored ran

/-! ## What an expansion does -/

/-- The memory with its bytes kept and zeros after them. -/
structure Grown (size : Nat) (before after : Memory) : Prop where
  len : after.len = size
  bytesAt : after.bytesAt = before.bytesAt

theorem appendZeros_grown {additional : Nat} (ran : self.appendZeros additional = some after) :
    Grown (self.len + additional) self after := by
  unfold appendZeros at ran
  split at ran
  · rename_i room
    cases ran
    refine ⟨rfl, ?_⟩
    have added : (overwrite self.buffer self.len (List.replicate additional 0)).take
        (self.len + additional) = self.items ++ List.replicate additional 0 := by
      have filled : (self.items ++ List.replicate additional 0).length = self.len + additional := by
        rw [List.length_append, items_length, List.length_replicate]
      rw [overwrite, ← filled]
      exact List.take_left
    rw [Memory.bytesAt, items]
    exact (congrArg ByteMap.ofBytes added).trans (Lib.ofBytes_append_zeros _ _)
  · cases ran

theorem reallocated_items {tail : List UInt8} (bounded : self.len + tail.length ≤ usizeMax) :
    (self.reallocated tail bounded).items = self.items :=
  List.take_left' self.items_length

theorem applyExpansion_run (allocator : Allocator) {expansion : Expansion}
    (grows : self.len < expansion.nextSize) :
    (∃ after, applyExpansion allocator expansion self = .ok () after ∧
        Grown expansion.nextSize self after) ∨
      ∃ after, applyExpansion allocator expansion self = .fail .outOfMemory after ∧
        after.items = self.items := by
  have total : self.len + (expansion.nextSize - self.len) = expansion.nextSize := by omega
  have resized : applyExpansion allocator expansion self =
      resize allocator expansion.nextSize self := by
    rw [applyExpansion, Action.bind_run, Action.get_run]
    dsimp only
    rw [if_neg (by omega)]
  have asserted : resize allocator expansion.nextSize self =
      (if self.buffer.length < expansion.nextSize then
        grow allocator (expansion.nextSize - self.len) else do
          let after ← (self.appendZeros (expansion.nextSize - self.len) : Option Memory)
          Action.modify fun _ => after) self := by
    rw [resize, Action.bind_run, Action.assert, if_pos grows]
    rfl
  rw [resized, asserted]
  split
  · unfold grow
    cases granted : allocator self.requests self.len (expansion.nextSize - self.len) with
    | none => exact .inr ⟨_, rfl, rfl⟩
    | some grant =>
        obtain ⟨tail, enough, bounded⟩ := grant
        have room : (self.reallocated tail bounded).len + (expansion.nextSize - self.len) ≤
            (self.reallocated tail bounded).buffer.length := by
          change self.len + _ ≤ (self.items ++ tail).length
          rw [List.length_append, items_length]
          omega
        obtain ⟨after, ran⟩ : ∃ after, (self.reallocated tail bounded).appendZeros
            (expansion.nextSize - self.len) = some after := ⟨_, dif_pos room⟩
        have grown := appendZeros_grown ran
        refine .inl ⟨after, ?_, grown.len.trans total, ?_⟩
        · dsimp only
          rw [ran]
        · rw [grown.bytesAt, Memory.bytesAt, reallocated_items]
          rfl
  · obtain ⟨after, ran⟩ : ∃ after, self.appendZeros (expansion.nextSize - self.len) = some after :=
      ⟨_, dif_pos (by omega)⟩
    have grown := appendZeros_grown ran
    refine .inl ⟨after, ?_, grown.len.trans total, grown.bytesAt⟩
    rw [ran]
    rfl

/-! ## What an expansion costs -/

/-- Whole words, at a cost that is an `i64`. -/
structure Sound (memory : Memory) : Prop where
  whole : memory.len % wordSize = 0
  affordable : (wordsCost (memory.len / wordSize) : Int) ≤ i64Max

/-- The smallest number of words that reach up to `stop`. -/
def coveringWords (stop : Nat) : Nat := (stop + (wordSize - 1)) / wordSize

/-- The padded end of the range is a `usize` and the cost up to it an `i64`. -/
def Representable (offset byteSize : Nat) : Prop :=
  offset + byteSize + (wordSize - 1) ≤ usizeMax ∧
    (wordsCost (coveringWords (offset + byteSize)) : Int) ≤ i64Max

instance (offset byteSize : Nat) : Decidable (Representable offset byteSize) :=
  inferInstanceAs (Decidable (_ ∧ _))

theorem wordsCost_mono {low high : Nat} (ordered : low ≤ high) : wordsCost low ≤ wordsCost high := by
  apply Nat.add_le_add
  · exact Nat.div_le_div_right (Nat.mul_le_mul ordered ordered)
  · exact Nat.mul_le_mul_left 3 ordered

theorem nextSize_eq {byteSize : Nat} (nonempty : byteSize ≠ 0) :
    nextSize offset byteSize =
      if offset + byteSize + (wordSize - 1) ≤ usizeMax then
        some (coveringWords (offset + byteSize) * wordSize)
      else none := by
  rw [nextSize, if_neg nonempty]
  by_cases fits : offset + byteSize + (wordSize - 1) ≤ usizeMax
  · rw [if_pos fits, addUsize_eq (by omega)]
    change (addUsize (offset + byteSize) (wordSize - 1)).bind _ = _
    rw [addUsize_eq fits]
    rfl
  · rw [if_neg fits]
    by_cases stopFits : offset + byteSize ≤ usizeMax
    · rw [addUsize_eq stopFits]
      change (addUsize (offset + byteSize) (wordSize - 1)).bind _ = _
      rw [addUsize, if_neg fits]
      rfl
    · rw [addUsize, if_neg stopFits]
      rfl

theorem memoryCost_words (words : Nat) :
    memoryCost (words * wordSize) =
      some (if (wordsCost words : Int) ≤ i64Max then some (wordsCost words : Int) else none) := by
  have whole : words * wordSize % wordSize = 0 := Nat.mul_mod_left ..
  have back : words * wordSize / wordSize = words := Nat.mul_div_cancel _ (by decide)
  rw [memoryCost, assert_true whole, back]
  simp only [Option.bind_eq_bind, Option.bind_some, gt_iff_lt, Option.pure_def, ← Int.not_le,
    ite_not]

theorem costBetween_words {low high : Nat} (ordered : low ≤ high)
    (affordable : (wordsCost low : Int) ≤ i64Max) :
    costBetween (low * wordSize) (high * wordSize) =
      some (if (wordsCost high : Int) ≤ i64Max then
        some ((wordsCost high : Int) - wordsCost low) else none) := by
  rw [costBetween, memoryCost_words, memoryCost_words, if_pos affordable]
  by_cases fits : (wordsCost high : Int) ≤ i64Max
  · have mono := wordsCost_mono ordered
    have difference : FitsI64 ((wordsCost high : Int) - wordsCost low) := by
      rw [i64Max_eq] at fits
      rw [FitsI64, i64Min_eq, i64Max_eq]
      omega
    simp [fits, subI64_eq difference]
  · simp [fits]

theorem planExpansion_eq {byteSize : Nat} (sound : self.Sound) (nonempty : byteSize ≠ 0)
    (grows : self.len < offset + byteSize) :
    self.planExpansion offset byteSize =
      some (if Representable offset byteSize then
        some ⟨wordsCost (coveringWords (offset + byteSize)) - wordsCost (self.len / wordSize),
          coveringWords (offset + byteSize) * wordSize⟩
      else none) := by
  have words : self.len / wordSize * wordSize = self.len :=
    Nat.div_mul_cancel (Nat.dvd_of_mod_eq_zero sound.whole)
  have reaches : offset + byteSize ≤ coveringWords (offset + byteSize) * wordSize := by
    rw [coveringWords, wordSize]
    omega
  rw [planExpansion, nextSize_eq nonempty]
  by_cases fits : offset + byteSize + (wordSize - 1) ≤ usizeMax
  · have ordered : self.len / wordSize ≤ coveringWords (offset + byteSize) := by
      apply Nat.div_le_of_le_mul
      rw [Nat.mul_comm]
      omega
    have priced := costBetween_words ordered sound.affordable
    rw [words] at priced
    rw [if_pos fits]
    dsimp only
    rw [if_pos (Nat.lt_of_lt_of_le grows reaches), priced]
    by_cases affordable : (wordsCost (coveringWords (offset + byteSize)) : Int) ≤ i64Max
    · rw [if_pos affordable, if_pos ⟨fits, affordable⟩]
      rfl
    · rw [if_neg affordable, if_neg fun both => affordable both.2]
      rfl
  · rw [if_neg fits, if_neg fun both => fits both.1]

end Memory

end EvmZig.Execution
