import Mathlib.Data.List.Basic
import EvmZig.Zig.Checked
import EvmZig.Zig.Unsigned

/-!
# Sparse hash maps (`src/state/sparse_hash_map.zig`)

Live rows are dense, in the order of insertion until a row is removed.  A probe
table finds them by their keys: a slot holds the place of a row plus one, or
zero, and a key is looked for from its home slot on, up to the first empty one.
A function is undefined where the source fails an assertion or indexes out of
bounds, and where one of its loops does not end.
-/

set_option autoImplicit false

namespace EvmZig.State

open Zig

/-- `Row`. -/
structure SparseRow (K V : Type) where
  key : K
  value : V
  slot : Nat
  deriving DecidableEq

structure SparseHashMap (K V : Type) where
  index : List Nat := []
  /-- `entries[0..len]`. -/
  entries : List (SparseRow K V) := []
  /-- `entries.len`. -/
  capacity : Nat := 0
  deriving DecidableEq

namespace SparseHashMap

variable {K V : Type}

inductive GrowError where
  | outOfMemory
  | overflow
  | capacityTooLarge
  deriving DecidableEq

/-! ## Slots -/

/-- `homeSlot`, with its assertions. -/
def homeSlot (slotCount hash : Nat) : Option Nat := do
  assert (slotCount ≠ 0)
  assert (slotCount &&& (slotCount - 1) = 0)
  return hash &&& (slotCount - 1)

def nextSlot (slot slotCount : Nat) : Nat := (slot + 1) &&& (slotCount - 1)

/-- The loop of `findSlot`, `findSlotForInsert` and `findEmptySlotIn`; `fuel` bounds its rounds. -/
def seek (index : List Nat) (found : Nat → Option Bool) : Nat → Nat → Option Nat
  | 0, _ => none
  | fuel + 1, slot => do
      match ← index[slot]? with
      | 0 => return slot
      | row + 1 =>
          if ← found row then return slot
          else seek index found fuel (nextSlot slot index.length)

def findEmptySlotIn (index : List Nat) (hash : Nat) : Option Nat := do
  seek index (fun _ => some false) index.length (← homeSlot index.length hash)

def loadPercentage : Nat := 80

def minimumGrowthCapacity : Nat := 8

def slotsCanFit (slotCount expectedCount : Nat) : Bool :=
  expectedCount = 0 || slotCount ≠ 0 && expectedCount ≤ slotCount * loadPercentage / 100

/-- `std.math.ceilPowerOfTwo(usize, ..)`. -/
def ceilPowerOfTwo (value : Nat) : Option Nat :=
  ((List.range 64).map (2 ^ ·)).find? (value ≤ ·)

def slotCountForCapacity (entryCapacity : Nat) : Except GrowError Nat :=
  if entryCapacity = 0 then .ok 0
  else
    match mulChecked 64 entryCapacity 100 with
    | none => .error .overflow
    | some numerator =>
        match ceilPowerOfTwo ((numerator + loadPercentage - 1) / loadPercentage) with
        | none => .error .capacityTooLarge
        | some slotCount => .ok slotCount

/-- The loop of `growCapacity`: 32 doublings overflow. -/
def doubleCapacity (neededCapacity : Nat) : Nat → Nat → Except GrowError Nat
  | 0, _ => .error .overflow
  | fuel + 1, capacity =>
      if capacity < neededCapacity then
        match mulChecked 32 capacity 2 with
        | none => .error .overflow
        | some capacity => doubleCapacity neededCapacity fuel capacity
      else .ok capacity

def growCapacity (currentCapacity neededCapacity : Nat) : Except GrowError Nat :=
  doubleCapacity neededCapacity 33
    (if currentCapacity = 0 then minimumGrowthCapacity else currentCapacity)

/-! ## Operations -/

section Operations

variable [DecidableEq K] (hash : K → Nat) (self : SparseHashMap K V)

/-- Whether the row holds the key. -/
def holdsKey (key : K) (row : Nat) : Option Bool :=
  self.entries[row]?.map fun entry => decide (key = entry.key)

def findSlotForInsert (key : K) : Option Nat := do
  seek self.index (self.holdsKey key) self.index.length (← homeSlot self.index.length (hash key))

/-- `findSlot`; the inner `none` is `null`. -/
def findSlot (key : K) : Option (Option Nat) := do
  if self.index.length = 0 then return none
  else
    let slot ← self.findSlotForInsert hash key
    match ← self.index[slot]? with
    | 0 => return none
    | _ + 1 => return some slot

/-- The row behind a slot that is taken. -/
def rowAt (slot : Nat) : Option Nat := do
  match ← self.index[slot]? with
  | 0 => none
  | row + 1 => return row

def getEntryId (key : K) : Option (Option Nat) := do
  match ← self.findSlot hash key with
  | none => return none
  | some slot => return some (← self.rowAt slot)

def get (key : K) : Option (Option V) := do
  match ← self.getEntryId hash key with
  | none => return none
  | some row => return some (← self.entries[row]?).value

def keyById (entryId : Nat) : Option K := self.entries[entryId]?.map SparseRow.key

def setValue (row : Nat) (value : V) : SparseHashMap K V :=
  { self with entries := self.entries.modify row fun entry => { entry with value } }

/-- The loop of `realloc` over the rows that are left; `done` are those with a slot in the new index. -/
def reindex (index : List Nat) (done : List (SparseRow K V)) :
    List (SparseRow K V) → Option (List Nat × List (SparseRow K V))
  | [] => some (index, done)
  | entry :: rest => do
      let slot ← castChecked 32 (← findEmptySlotIn index (hash entry.key))
      reindex (index.set slot (done.length + 1)) (done ++ [{ entry with slot }]) rest

/-- `realloc`; `allocator` tells whether both allocations succeed. -/
def realloc (expectedCount : Nat) (allocator : Bool) : Checked GrowError (SparseHashMap K V) :=
  match slotCountForCapacity expectedCount with
  | .error error => .fail error
  | .ok slotCount =>
      if allocator = false then .fail .outOfMemory
      else .ofOption (do
        assert (self.entries.length ≤ expectedCount)
        let (index, entries) ← reindex hash (List.replicate slotCount 0) [] self.entries
        return { index, entries, capacity := expectedCount })

def ensureTotalCapacity (expectedCount : Nat) (allocator : Bool) :
    Checked GrowError (SparseHashMap K V) :=
  if expectedCount ≤ self.capacity ∧ slotsCanFit self.index.length expectedCount then .ok self
  else self.realloc hash expectedCount allocator

def ensureUnusedCapacity (additionalCount : Nat) (allocator : Bool) :
    Checked GrowError (SparseHashMap K V) :=
  match addChecked 32 self.entries.length additionalCount with
  | none => .fail .overflow
  | some needed =>
      if needed ≤ self.capacity ∧ slotsCanFit self.index.length needed then .ok self
      else
        match growCapacity self.capacity needed with
        | .error error => .fail error
        | .ok capacity => self.realloc hash capacity allocator

/-- `getOrPutAssumeCapacity`: the map, the row, and whether it was there; a new row holds `value`. -/
def getOrPutAssumeCapacity (key : K) (value : V) : Option (SparseHashMap K V × Nat × Bool) := do
  assert (self.index.length ≠ 0)
  let slot ← self.findSlotForInsert hash key
  match ← self.index[slot]? with
  | row + 1 => return (self, row, true)
  | 0 =>
      assert (self.entries.length < self.capacity)
      let slot ← castChecked 32 slot
      let row := self.entries.length
      return ({ self with
        index := self.index.set slot (row + 1)
        entries := self.entries ++ [{ key, value, slot }] }, row, false)

/-- `put`; a new row is asserted to be new. -/
def put (key : K) (value : V) (allocator : Bool) : Checked GrowError (SparseHashMap K V) := do
  match ← Checked.ofOption (self.getEntryId hash key) with
  | some row => return self.setValue row value
  | none =>
      let self ← self.ensureUnusedCapacity hash 1 allocator
      let (self, row, foundExisting) ← Checked.ofOption (self.getOrPutAssumeCapacity hash key value)
      let _ ← Checked.ofOption (assert (foundExisting = false))
      return self.setValue row value

/-- `getOrPut`, whose caller writes `value` where the row is new. -/
def getOrPut (key : K) (value : V) (allocator : Bool) :
    Checked GrowError (SparseHashMap K V × Nat × Bool) := do
  match ← Checked.ofOption (self.getEntryId hash key) with
  | some row => return (self, row, true)
  | none =>
      let self ← self.ensureUnusedCapacity hash 1 allocator
      Checked.ofOption (self.getOrPutAssumeCapacity hash key value)

/-- The loop of `reinsertClusterAfterRemove` from a slot on; `fuel` bounds its rounds. -/
def reinsertCluster : Nat → List Nat → List (SparseRow K V) → Nat →
    Option (List Nat × List (SparseRow K V))
  | 0, _, _, _ => none
  | fuel + 1, index, entries, slot => do
      match ← index[slot]? with
      | 0 => return (index, entries)
      | row + 1 =>
          let cleared := index.set slot 0
          let entry ← entries[row]?
          let newSlot ← castChecked 32 (← findEmptySlotIn cleared (hash entry.key))
          reinsertCluster fuel (cleared.set newSlot (row + 1))
            (entries.modify row fun entry => { entry with slot := newSlot }) (nextSlot slot index.length)

def removeSlot (slot : Nat) : Option (SparseHashMap K V) := do
  let removed ← self.rowAt slot
  let (index, entries) ← reinsertCluster hash self.index.length (self.index.set slot 0) self.entries
    (nextSlot slot self.index.length)
  let last ← entries.getLast?
  if removed ≠ entries.length - 1 then
    return { self with
      index := index.set last.slot (removed + 1)
      entries := (entries.set removed last).dropLast }
  else return { self with index, entries := entries.dropLast }

/-- `remove` and `fetchRemove`. -/
def fetchRemove (key : K) : Option (SparseHashMap K V × Option (K × V)) := do
  match ← self.findSlot hash key with
  | none => return (self, none)
  | some slot =>
      let entry ← self.entries[← self.rowAt slot]?
      return (← self.removeSlot hash slot, some (entry.key, entry.value))

def remove (key : K) : Option (SparseHashMap K V × Bool) := do
  match ← self.findSlot hash key with
  | none => return (self, false)
  | some slot => return (← self.removeSlot hash slot, true)

/-- The loop of `removeIf` from a row on; `fuel` bounds its rounds. -/
def removeFrom (predicate : K → V → Bool) : Nat → SparseHashMap K V → Nat → Option (SparseHashMap K V)
  | 0, _, _ => none
  | fuel + 1, self, row =>
      if row < self.entries.length then do
        let entry ← self.entries[row]?
        if predicate entry.key entry.value then
          removeFrom predicate fuel (← self.removeSlot hash entry.slot) row
        else removeFrom predicate fuel self (row + 1)
      else some self

def removeIf (predicate : K → V → Bool) : Option (SparseHashMap K V) :=
  removeFrom hash predicate (self.entries.length + 1) self 0

end Operations

/-- Empty the slots of rows. -/
def clearSlots (index : List Nat) (rows : List (SparseRow K V)) : List Nat :=
  rows.foldl (fun index entry => index.set entry.slot 0) index

def truncate (self : SparseHashMap K V) (newLen : Nat) : Option (SparseHashMap K V) := do
  assert (newLen ≤ self.entries.length)
  return { self with
    index := clearSlots self.index (self.entries.drop newLen)
    entries := self.entries.take newLen }

def clearRetainingCapacity (self : SparseHashMap K V) : SparseHashMap K V :=
  { self with index := clearSlots self.index self.entries, entries := [] }

end SparseHashMap

end EvmZig.State
