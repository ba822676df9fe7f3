import EvmZig.Rlp.Codec

/-!
# Protocol scalars and addresses (`src/address.zig`)

`u256`, `u64` and the block access index are bounded naturals.  An address is
its 20 bytes; its RLP and comparison forms read the bytes.
-/

set_option autoImplicit false

namespace EvmZig

open Zig

abbrev U256 : Type := Fin (2 ^ 256)

abbrev U64 : Type := Fin (2 ^ 64)

/-- `BlockAccessIndex`, a `u32`. -/
abbrev BlockAccessIndex : Type := Fin (2 ^ 32)

instance instNeZeroU256 : NeZero (2 ^ 256) := ⟨by decide⟩

instance instNeZeroU64 : NeZero (2 ^ 64) := ⟨by decide⟩

instance instNeZeroBlockAccessIndex : NeZero (2 ^ 32) := ⟨by decide⟩

/-- `std.mem.order(u8, ..)`. -/
def memOrder : List UInt8 → List UInt8 → Ordering
  | [], [] => .eq
  | [], _ :: _ => .lt
  | _ :: _, [] => .gt
  | left :: lefts, right :: rights =>
      match compare left right with
      | .eq => memOrder lefts rights
      | order => order

/-- The wire mapping of `Address` is the identity on its bytes. -/
abbrev Address : Type := Rlp.Codec.FixedArray 20

theorem length_ones : (List.replicate 20 (1 : UInt8)).length = 20 := rfl

abbrev Hash : Type := Rlp.Codec.FixedArray 32

def Address.order (left right : Address) : Ordering := memOrder left.val right.val

end EvmZig
