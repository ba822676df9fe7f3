import Mathlib.Algebra.Order.Ring.Int
import Mathlib.Order.Fin.Basic
import Mathlib.Tactic.Common

/-!
# Byte maps

A byte at every address, zero until it is stored.  Storing a byte string
overwrites a range of addresses, and what is loaded from an address is decided
by the last store that covers it.  `overwrite` is the same on a finite buffer.
-/

set_option autoImplicit false

namespace EvmZig.Lib

/-- A byte string and the address it is stored at. -/
structure ByteStore where
  offset : Nat
  bytes : List UInt8

def ByteStore.Covers (stored : ByteStore) (address : Nat) : Prop :=
  stored.offset ≤ address ∧ address < stored.offset + stored.bytes.length

instance (stored : ByteStore) (address : Nat) : Decidable (stored.Covers address) :=
  inferInstanceAs (Decidable (_ ∧ _))

abbrev ByteMap : Type := Nat → UInt8

namespace ByteMap

def blank : ByteMap := fun _ => 0

def store (map : ByteMap) (stored : ByteStore) : ByteMap := fun address =>
  if stored.Covers address then stored.bytes.getD (address - stored.offset) 0 else map address

def load (map : ByteMap) (offset size : Nat) : List UInt8 :=
  (List.range size).map fun index => map (offset + index)

/-- What a sequence of stores leaves in a blank map. -/
def recorded (history : List ByteStore) : ByteMap := history.foldl store blank

/-- The map a buffer holds, blank past its end. -/
def ofBytes (bytes : List UInt8) : ByteMap := fun address => bytes.getD address 0

variable {map : ByteMap} {stored : ByteStore} {address offset size : Nat}

theorem store_covered (covered : stored.Covers address) :
    map.store stored address = stored.bytes.getD (address - stored.offset) 0 :=
  if_pos covered

theorem store_apart (apart : ¬stored.Covers address) : map.store stored address = map address :=
  if_neg apart

theorem load_length : (map.load offset size).length = size := by
  rw [load, List.length_map, List.length_range]

theorem load_getElem? (index : Nat) :
    (map.load offset size)[index]? = if index < size then some (map (offset + index)) else none := by
  rw [load, List.getElem?_map]
  by_cases below : index < size
  · rw [List.getElem?_range below, if_pos below]
    rfl
  · rw [if_neg below, List.getElem?_eq_none (by rw [List.length_range]; omega)]
    rfl

/-- Storing what a range holds changes nothing. -/
theorem store_load (map : ByteMap) (offset size : Nat) :
    map.store ⟨offset, map.load offset size⟩ = map := by
  funext address
  by_cases covered : ByteStore.Covers ⟨offset, map.load offset size⟩ address
  · have reach : address - offset < size ∧ offset + (address - offset) = address := by
      obtain ⟨low, high⟩ := covered
      rw [load_length] at high
      dsimp only at low high
      omega
    rw [store_covered covered, List.getD_eq_getElem?_getD, load_getElem?, if_pos reach.1, reach.2]
    rfl
  · exact store_apart covered

/-! ## Histories of stores -/

theorem recorded_append (history : List ByteStore) (stored : ByteStore) :
    recorded (history ++ [stored]) = (recorded history).store stored := by
  rw [recorded, List.foldl_append]
  rfl

end ByteMap

/-! ## Buffers -/

/-- `buffer` with `bytes` from `offset` on. -/
def overwrite (buffer : List UInt8) (offset : Nat) (bytes : List UInt8) : List UInt8 :=
  buffer.take offset ++ bytes ++ buffer.drop (offset + bytes.length)

theorem overwrite_length {buffer bytes : List UInt8} {offset : Nat}
    (inside : offset + bytes.length ≤ buffer.length) :
    (overwrite buffer offset bytes).length = buffer.length := by
  simp only [overwrite, List.length_append, List.length_take, List.length_drop]
  omega

theorem overwrite_take {buffer bytes : List UInt8} {offset size : Nat}
    (inside : offset + bytes.length ≤ size) (room : size ≤ buffer.length) :
    (overwrite buffer offset bytes).take size = overwrite (buffer.take size) offset bytes := by
  apply List.ext_getElem?
  intro index
  simp only [overwrite, List.getElem?_take, List.getElem?_append, List.getElem?_drop,
    List.length_append, List.length_take]
  grind

theorem ofBytes_overwrite {buffer bytes : List UInt8} {offset : Nat}
    (inside : offset + bytes.length ≤ buffer.length) :
    ByteMap.ofBytes (overwrite buffer offset bytes) =
      (ByteMap.ofBytes buffer).store ⟨offset, bytes⟩ := by
  funext address
  simp only [ByteMap.ofBytes, ByteMap.store, ByteStore.Covers, overwrite, List.getD_eq_getElem?_getD,
    List.getElem?_append, List.length_append, List.length_take, List.getElem?_take,
    List.getElem?_drop]
  grind

theorem ofBytes_append_zeros (bytes : List UInt8) (count : Nat) :
    ByteMap.ofBytes (bytes ++ List.replicate count 0) = ByteMap.ofBytes bytes := by
  funext address
  simp only [ByteMap.ofBytes, List.getD_eq_getElem?_getD, List.getElem?_append,
    List.getElem?_replicate]
  grind

theorem load_ofBytes {bytes : List UInt8} {offset size : Nat}
    (inside : offset + size ≤ bytes.length) :
    (ByteMap.ofBytes bytes).load offset size = (bytes.drop offset).take size := by
  apply List.ext_getElem?
  intro index
  rw [ByteMap.load_getElem?, List.getElem?_take, List.getElem?_drop]
  split
  · rename_i below
    rw [ByteMap.ofBytes, List.getD_eq_getElem?_getD, List.getElem?_eq_getElem (by omega)]
    rfl
  · rfl

end EvmZig.Lib
