import EvmZig.Rlp.Raw
import EvmZig.Zig.Unsigned

/-!
# Nibbles and compact paths (`pkg/mpt/src/nibble.zig`, `error.zig`)

A key is a sequence of nibbles, two to a byte, the high one first.  A compact
path is the hex-prefix form that leaves and extensions keep.
-/

set_option autoImplicit false

namespace EvmZig.Mpt

open Zig

/-- `CodecError`. -/
inductive CodecError where
  | parse (error : Rlp.ParseError)
  | invalidCompactPath
  | invalidNode
  | invalidNodeReference
  | nonCanonicalNode
  deriving DecidableEq, Repr

def keyNibbleLen (key : Slice) : Nat := key.len * 2

def highNibble (byte : UInt8) : UInt8 := byte >>> 4

def lowNibble (byte : UInt8) : UInt8 := byte &&& 0x0f

def keyNibbleAt (key : Slice) (index : Nat) : Option UInt8 := do
  let byte ← key.byteAt (index / 2)
  return if index % 2 = 0 then highNibble byte else lowNibble byte

structure CompactPath where
  encoded : Slice
  nibbleOffset : Nat
  len : Nat
  terminal : Bool
  deriving DecidableEq, Repr

namespace CompactPath

def decode (encoded : Slice) : Checked CodecError CompactPath :=
  match encoded.bytes with
  | [] => .fail .invalidCompactPath
  | first :: _ =>
      let flags := highNibble first
      if 3 < flags then .fail .invalidCompactPath
      else
        let odd := flags &&& 1 ≠ 0
        if ¬ odd ∧ lowNibble first ≠ 0 then .fail .invalidCompactPath
        else .ofOption (do
          let nibbleOffset := if odd then 1 else 2
          let len ← subUsize (← mulChecked 64 encoded.len 2) nibbleOffset
          return { encoded, nibbleOffset, len, terminal := flags &&& 2 ≠ 0 })

def nibbleAt (self : CompactPath) (index : Nat) : Option UInt8 :=
  keyNibbleAt self.encoded (self.nibbleOffset + index)

/-- The loop of `matchesKey` over the nibbles of a path that is not aligned with the key. -/
def matchesNibbles (self : CompactPath) (key : Slice) (depth : Nat) : List Nat → Option Bool
  | [] => some true
  | index :: rest => do
      let mine ← self.nibbleAt index
      let theirs ← keyNibbleAt key (depth + index)
      if mine ≠ theirs then return false
      else matchesNibbles self key depth rest

/-- The comparison of the bytes that follow the leading nibble. -/
def matchesTail (self : CompactPath) (key : Slice) (depth : Nat) : Option Bool := do
  let tail ← self.encoded.sub 1 self.encoded.len
  let rest ← key.sub (depth / 2 + depth % 2) key.len
  let window ← rest.sub 0 tail.len
  return decide (tail.bytes = window.bytes)

/-- Whether the path matches the nibbles of `key` from `depth` on. -/
def matchesKey (self : CompactPath) (key : Slice) (depth : Nat) : Option Bool :=
  if depth > keyNibbleLen key ∨ self.len > keyNibbleLen key - depth then some false
  else if self.nibbleOffset % 2 = depth % 2 then
    if depth % 2 ≠ 0 then do
      let mine ← self.encoded.byteAt 0
      let theirs ← key.byteAt (depth / 2)
      if lowNibble mine ≠ lowNibble theirs then return false
      else self.matchesTail key depth
    else self.matchesTail key depth
  else self.matchesNibbles key depth (List.range self.len)

end CompactPath

end EvmZig.Mpt
