import EvmZig.Lib.ForwardWalk
import EvmZig.Zig.Checked
import EvmZig.Zig.Slice
import Mathlib.Data.Nat.Bitwise

/-!
# Jump destinations (`src/code/scanner.zig`)

A jump destination is a JUMPDEST byte that the walk over the instructions starts
one at.  The serial scans take the walk; the block scan computes all walks of a
16-byte group at once by pointer doubling and follows the real one from group
to group.
-/

set_option autoImplicit false

namespace EvmZig.Code

open Zig
open Lib (Forward Reaches Visits hop)

namespace Opcode

def jumpdest : UInt8 := 0x5b

def push0 : UInt8 := 0x5f

def push1 : UInt8 := 0x60

def push32 : UInt8 := 0x7f

def isPushN (op : UInt8) : Prop := op ≥ push1 ∧ op ≤ push32

instance (op : UInt8) : Decidable (isPushN op) := inferInstanceAs (Decidable (_ ∧ _))

def pushImmediateLen (op : UInt8) : UInt8 := if isPushN op then op - push0 else 0

end Opcode

/-! ## Bit sets -/

abbrev Mask : Type := BitVec 64

/-- `masks[index / 64] |= 1 << (index % 64)`, trapping past the masks. -/
def setBit (masks : List Mask) (index : Nat) : Option (List Mask) := do
  let mask ← masks[index / 64]?
  return masks.set (index / 64) (mask ||| 1#64 <<< (index % 64))

def isSet (masks : List Mask) (index : Nat) : Bool :=
  (masks.getD (index / 64) 0#64).getLsbD (index % 64)

/-! ## The serial scans -/

/-- The comptime table `lengths` of `markJumpDestWords`. -/
def lengths (op : UInt8) : Nat :=
  if Opcode.push1.toNat ≤ op.toNat ∧ op.toNat < Opcode.push1.toNat + 32 then
    op.toNat - Opcode.push1.toNat + 2
  else 1

/-- `if (opcode == JUMPDEST) ..` at `pc`. -/
def markAt (masks : List Mask) (pc : Nat) (op : UInt8) : Option (List Mask) :=
  if op = Opcode.jumpdest then setBit masks pc else some masks

theorem lengths_pos (op : UInt8) : 0 < lengths op := by
  unfold lengths
  split <;> omega

/-- The loop of `markJumpDestWords` from `pc`. -/
def wordsFrom (bytes : List UInt8) (masks : List Mask) (pc : Nat) : Option (List Mask) :=
  if inside : pc < bytes.length then do
    let masks ← markAt masks pc bytes[pc]
    wordsFrom bytes masks (pc + lengths bytes[pc])
  else some masks
termination_by bytes.length - pc
decreasing_by
  have moved := lengths_pos bytes[pc]
  omega

def markJumpDestWords (masks : List Mask) (bytes : List UInt8) : Option (List Mask) :=
  wordsFrom bytes masks 0

/-- The loop of `referenceMark` from `pc`. -/
def referenceFrom (bytes : List UInt8) (masks : List Mask) (pc : Nat) : Option (List Mask) :=
  if inside : pc < bytes.length then do
    let masks ← markAt masks pc bytes[pc]
    referenceFrom bytes masks
      (min bytes.length (pc + 1 + (Opcode.pushImmediateLen bytes[pc]).toNat))
  else some masks
termination_by bytes.length - pc
decreasing_by omega

def referenceMark (masks : List Mask) (bytes : List UInt8) : Option (List Mask) :=
  referenceFrom bytes masks 0

/-! ## The block scan -/

/-- The targets that have a byte table lookup of 16 lanes. -/
inductive Arch where
  | aarch64
  | x86_64
  deriving DecidableEq, Repr

abbrev Lanes : Type := Fin 16 → UInt8

/-- TBL: zero past the table. -/
def tbl (table indices : Lanes) : Lanes := fun lane =>
  if inside : (indices lane).toNat < 16 then table ⟨(indices lane).toNat, inside⟩ else 0

/-- PSHUFB: zero where the top bit is set, else by the low four bits. -/
def pshufb (table indices : Lanes) : Lanes := fun lane =>
  if indices lane &&& 0x80 ≠ 0 then 0
  else table ⟨(indices lane &&& 0x0f).toNat % 16, Nat.mod_lt _ (by decide)⟩

def lookup (arch : Arch) (table indices : Lanes) : Lanes :=
  match arch with
  | .aarch64 => tbl table indices
  | .x86_64 => pshufb table fun lane => indices lane + 0x70

structure GroupWalks where
  exits : Lanes
  low : Lanes
  high : Lanes

/-- `@select(u8, is_push, bytes -% (PUSH1 - 1), 0)`. -/
def immediates (byte : UInt8) : UInt8 :=
  if byte &&& 0xe0 = Opcode.push1 then byte - (Opcode.push1 - 1) else 0

/-- The walks of one step. -/
def firstWalks (bytes : Lanes) : GroupWalks where
  exits lane := UInt8.ofNat (lane.val + 1) + immediates (bytes lane)
  low lane := if lane.val < 8 then UInt8.ofNat (2 ^ lane.val) else 0
  high lane := if lane.val < 8 then 0 else UInt8.ofNat (2 ^ (lane.val - 8))

/-- One round of doubling; the last one leaves the low stops. -/
def doubled (arch : Arch) (lowStops : Bool) (walks : GroupWalks) : GroupWalks where
  low lane :=
    if lowStops then walks.low lane ||| lookup arch walks.low walks.exits lane else walks.low lane
  high lane := walks.high lane ||| lookup arch walks.high walks.exits lane
  exits lane := max (walks.exits lane) (lookup arch walks.exits walks.exits lane)

def groupWalks (arch : Arch) (bytes : Lanes) : GroupWalks :=
  doubled arch false (doubled arch true (doubled arch true (doubled arch true (firstWalks bytes))))

abbrev Block : Type := Fin 64 → UInt8

/-- The bytes of one 16-byte group. -/
def Block.group (block : Block) (group : Fin 4) : Lanes := fun lane =>
  block ⟨16 * group.val + lane.val, by omega⟩

/-- The walk from position `place` of the block: where it leaves its group, and its stops. -/
structure Walk where
  leaves : UInt8
  low : UInt8
  high : UInt8

def Block.walk (arch : Arch) (block : Block) (place : Fin 64) : Walk :=
  let group : Fin 4 := ⟨place.val / 16, by omega⟩
  let lane : Fin 16 := ⟨place.val % 16, by omega⟩
  let walks := groupWalks arch (block.group group)
  { leaves := walks.exits lane + UInt8.ofNat (group.val * 16)
    low := walks.low lane
    high := walks.high lane }

/-- `@bitCast(block == @splat(JUMPDEST))`. -/
def Block.jumpdests (block : Block) : Mask :=
  (List.finRange 64).foldl
    (fun mask place => if block place = Opcode.jumpdest then mask ||| 1#64 <<< place.val else mask) 0#64

/-- Where the real walk is, and the instruction starts it has shown. -/
structure Trail where
  place : Nat
  opcodes : Mask

/-- One of the four dependent loads. -/
def Block.follow (arch : Arch) (block : Block) (trail : Trail) : Trail :=
  let inside := trail.place < 64
  let place : Fin 64 := ⟨trail.place % 64, Nat.mod_lt _ (by decide)⟩
  let walk := block.walk arch place
  let stops : Mask := walk.low.toBitVec.setWidth 64 ||| walk.high.toBitVec.setWidth 64 <<< 8
  { opcodes := trail.opcodes ||| (if inside then stops else 0#64) <<< (place.val &&& 48)
    place := if inside then walk.leaves.toNat else trail.place }

def markBlock (arch : Arch) (block : Block) (carry : Nat) : Option (Mask × Nat) := do
  let trail := block.follow arch (block.follow arch (block.follow arch
    (block.follow arch ⟨carry, 0#64⟩)))
  let carry ← subUsize trail.place 64
  return (block.jumpdests &&& trail.opcodes, carry)

/-- The block at `index`, padded with zeros. -/
def blockAt (bytes : List UInt8) (index : Nat) : Block := fun place =>
  bytes.getD (index * 64 + place.val) 0

/-- The masks so far and the immediate bytes that spill into the next block. -/
structure Scan where
  masks : List Mask
  carry : Nat

/-- Assign the mask of one block. -/
def scanBlock (arch : Arch) (bytes : List UInt8) (scan : Scan) (index : Nat) : Option Scan := do
  assert (index < scan.masks.length)
  let (mask, carry) ← markBlock arch (blockAt bytes index) scan.carry
  return { masks := scan.masks.set index mask, carry }

def markJumpDestBlocks (arch : Arch) (masks : List Mask) (bytes : List UInt8) :
    Option (List Mask) := do
  let full := bytes.length / 64
  let scan ← (List.range full).foldlM (scanBlock arch bytes) ⟨masks, 0⟩
  if bytes.length % 64 ≠ 0 then
    Scan.masks <$> scanBlock arch bytes scan full
  else return scan.masks

/-! ## What a scan has to find -/

/-- The walk over the code starts an instruction at `pc`. -/
inductive Starts (bytes : List UInt8) : Nat → Prop
  | first : Starts bytes 0
  | next {pc : Nat} {op : UInt8} : Starts bytes pc → bytes[pc]? = some op →
      Starts bytes (pc + 1 + (Opcode.pushImmediateLen op).toNat)

def IsJumpDest (bytes : List UInt8) (pc : Nat) : Prop :=
  bytes[pc]? = some Opcode.jumpdest ∧ Starts bytes pc

end EvmZig.Code
