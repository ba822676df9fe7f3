import Mathlib.Algebra.Order.Ring.Int
import Mathlib.Order.Fin.Basic
import Mathlib.Tactic.Common

/-!
# `usize` arithmetic and byte slices

`usize` is 64 bits wide.  A slice carries the bound that its length is a
`usize`, and a subslice is taken with the bounds check of a safe build.
-/

set_option autoImplicit false

namespace EvmZig.Zig

/-- `@sizeOf(usize)`. -/
def usizeBytes : Nat := 8

/-- `std.math.maxInt(usize)`. -/
def usizeMax : Nat := 2 ^ (8 * usizeBytes) - 1

theorem usizeMax_eq : usizeMax = 18446744073709551615 := rfl

/-- `left + right` on `usize`, trapping on overflow. -/
def addUsize (left right : Nat) : Option Nat :=
  if left + right ≤ usizeMax then some (left + right) else none

/-- `left - right` on `usize`, trapping on underflow. -/
def subUsize (left right : Nat) : Option Nat :=
  if right ≤ left then some (left - right) else none

theorem addUsize_eq {left right : Nat} (fits : left + right ≤ usizeMax) :
    addUsize left right = some (left + right) :=
  if_pos fits

theorem subUsize_eq {left right : Nat} (ordered : right ≤ left) :
    subUsize left right = some (left - right) :=
  if_pos ordered

/-- `[]const u8`. -/
@[ext] structure Slice where
  bytes : List UInt8
  fits : bytes.length ≤ usizeMax
  deriving DecidableEq, Repr

namespace Slice

def len (slice : Slice) : Nat := slice.bytes.length

theorem len_le (slice : Slice) : slice.len ≤ usizeMax := slice.fits

def empty : Slice := ⟨[], Nat.zero_le _⟩

/-- The bytes of `slice[start..stop]` once the bounds check passed. -/
def window (slice : Slice) (start stop : Nat) : Slice where
  bytes := (slice.bytes.take stop).drop start
  fits := by
    have sliceFits := slice.fits
    simp only [List.length_drop, List.length_take]
    omega

/-- `slice[start..stop]`. -/
def sub (slice : Slice) (start stop : Nat) : Option Slice :=
  if start ≤ stop ∧ stop ≤ slice.len then some (slice.window start stop)
  else none

/-- `slice[index]`. -/
def byteAt (slice : Slice) (index : Nat) : Option UInt8 :=
  slice.bytes[index]?

theorem sub_eq (slice : Slice) {start stop : Nat} (ordered : start ≤ stop)
    (inside : stop ≤ slice.len) :
    slice.sub start stop = some (slice.window start stop) :=
  if_pos ⟨ordered, inside⟩

theorem byteAt_eq (slice : Slice) {index : Nat} (inside : index < slice.len) :
    slice.byteAt index = some (slice.bytes.get ⟨index, inside⟩) :=
  List.getElem?_eq_getElem inside

theorem window_len (slice : Slice) (start : Nat) {stop : Nat}
    (inside : stop ≤ slice.len) : (slice.window start stop).len = stop - start := by
  simp only [len] at inside
  simp [len, window, List.length_drop, List.length_take, Nat.min_eq_left inside]

/-- Adjacent windows join. -/
theorem window_append (slice : Slice) {start middle stop : Nat}
    (first : start ≤ middle) (second : middle ≤ stop) :
    (slice.window start middle).bytes ++ (slice.window middle stop).bytes =
      (slice.window start stop).bytes := by
  have split : (slice.bytes.take stop).drop start =
      ((slice.bytes.take stop).drop start).take (middle - start) ++
        ((slice.bytes.take stop).drop start).drop (middle - start) :=
    (List.take_append_drop _ _).symm
  simp only [window]
  rw [split, List.drop_drop, List.take_drop]
  have reach : start + (middle - start) = middle := by omega
  rw [reach, List.take_take, Nat.min_eq_left second]

theorem window_singleton (slice : Slice) {index : Nat} (inside : index < slice.len) :
    (slice.window index (index + 1)).bytes = [slice.bytes.get ⟨index, inside⟩] := by
  have unfoldDrop : slice.bytes.drop index =
      slice.bytes.get ⟨index, inside⟩ :: slice.bytes.drop (index + 1) :=
    List.drop_eq_getElem_cons inside
  simp only [window]
  rw [List.drop_take, Nat.add_sub_cancel_left, unfoldDrop]
  rfl

end Slice

end EvmZig.Zig
