import EvmZig.Lib.Ladder
import EvmZig.Uint256.Model
import EvmZig.Zig.BigEndian
import EvmZig.Zig.Checked

/-!
# Modular exponentiation (`src/precompile/modexp.zig`)

The exponentiation has three algorithms: in machine words, in limbs, and in big
integers.  A big integer of the standard library is a natural number, and each
operation that makes one can run out of memory.
-/

set_option autoImplicit false

namespace EvmZig.Modexp

open Zig Uint256 Lib

/-! ## Bytes -/

/-- The bits of a byte, from the mask `0x80` down. -/
def byteBits (byte : UInt8) : List Bool :=
  [0x80, 0x40, 0x20, 0x10, 0x08, 0x04, 0x02, 0x01].map fun mask => decide (byte &&& mask ≠ 0)

section Ladders

variable {m : Type → Type} [Monad m] {α : Type}

def ladderByte (square multiply : α → m α) (load : m α) (state : Ladder α) (byte : UInt8) :
    m (Ladder α) :=
  if state.started = false ∧ byte = 0 then pure state
  else (byteBits byte).foldlM (ladderBit square multiply load) state

/-- The loop over the exponent, which all algorithms share. -/
def ladder (square multiply : α → m α) (load : m α) (result : α) (exponentBytes : List UInt8) :
    m α := do
  let state ← exponentBytes.foldlM (ladderByte square multiply load) ⟨result, false⟩
  return state.result

end Ladders

def stripLeadingZeroBytes : List UInt8 → List UInt8
  | [] => []
  | byte :: rest => if byte = 0 then stripLeadingZeroBytes rest else byte :: rest

def readWordBytes (bits : Nat) (bytes : List UInt8) : Nat :=
  bytes.foldl (fun value byte => shl bits value 8 ||| byte.toNat) 0

/-- `@memcpy(out[start..][0..part.len], part)`. -/
def copyInto (out : List UInt8) (start : Nat) (part : List UInt8) : Option (List UInt8) :=
  if start + part.length ≤ out.length then
    some (out.take start ++ part ++ out.drop (start + part.length))
  else none

/-! ## Words of `bits` bits -/

/-- `@ctz`. -/
def ctz : (bits value : Nat) → Nat
  | 0, _ => 0
  | bits + 1, value => if value % 2 = 0 then ctz bits (value / 2) + 1 else 0

/-- A shift amount, which has to be below the width. -/
def shiftAmount (bits amount : Nat) : Option Nat := if amount < bits then some amount else none

def powMod2k (bits base : Nat) (exponentBytes : List UInt8) (mask : Nat) : Option Nat :=
  ladder (fun result => some (mulWrap bits result result &&& mask))
    (fun result => some (mulWrap bits result base &&& mask)) (some (base &&& mask)) (1 &&& mask)
    exponentBytes

/-- `widened >= modulus`, then one subtraction, and `@intCast` back. -/
def reduceWidened (bits widened modulus : Nat) : Option Nat :=
  if widened ≥ modulus then do
    let reduced ← subTrap widened modulus
    castTrap bits reduced
  else castTrap bits widened

/-- The loop of `reduceU256`. -/
def reduceBits (bits value modulus : Nat) : Option Nat :=
  forDown (fun remainder index =>
    reduceWidened bits (shl (2 * bits) remainder 1 ||| truncate 1 (shr value index)) modulus) 256 0

def reduceU256 (bits value modulus : Nat) : Option Nat :=
  if bits = 256 then if value < modulus then some value else reduceBits bits value modulus
  else if value ≤ 2 ^ bits - 1 ∧ value < modulus then some value
  else reduceBits bits value modulus

/-- `reduced`, before the subtraction. -/
def montSum (bits a b modulus negInverse : Nat) : Option Nat := do
  let product ← mulTrap (2 * bits) a b
  let productLow := truncate bits product
  let factor := mulWrap bits productLow negInverse
  let factorModulus ← mulTrap (2 * bits) factor modulus
  let carry := if productLow ≠ 0 then 1 else 0
  let sum ← addTrap (2 * bits) (shr product bits) (shr factorModulus bits)
  addTrap (2 * bits) sum carry

def montMul (bits a b modulus negInverse : Nat) : Option Nat := do
  let reduced ← montSum bits a b modulus negInverse
  reduceWidened bits reduced modulus

/-- Eight rounds of Newton's iteration. -/
def newtonInverse (bits modulus : Nat) : Nat :=
  (List.range 8).foldl (fun inverse _ =>
    mulWrap bits inverse (subWrap bits 2 (mulWrap bits modulus inverse))) 1

/-- The square of the radix by doubling. -/
def doubledRadix (bits modulus : Nat) : Option Nat :=
  forUp (2 * bits) (fun r2 _ => reduceWidened bits (shl (2 * bits) r2 1) modulus) 1

def montPow (bits base : Nat) (exponentBytes : List UInt8) (modulus : Nat) : Option Nat := do
  assert (modulus &&& 1 = 1)
  if modulus = 1 then return 0
  let negInverse := subWrap bits 0 (newtonInverse bits modulus)
  let r2 ← doubledRadix bits modulus
  let baseMont ← montMul bits base r2 modulus negInverse
  let resultMont ← montMul bits 1 r2 modulus negInverse
  let resultMont ← ladder (fun result => montMul bits result result modulus negInverse)
    (fun result => montMul bits result baseMont modulus negInverse) (some baseMont) resultMont
    exponentBytes
  montMul bits resultMont 1 modulus negInverse

/-- `diff`: the difference modulo the odd part. -/
def diffMod (bits oddResult pow2ModOdd odd : Nat) : Option Nat :=
  if oddResult ≥ pow2ModOdd then subTrap oddResult pow2ModOdd
  else do
    let lifted ← addTrap bits oddResult odd
    subTrap lifted pow2ModOdd

/-- Multiplication by `2 ^ -shift` by repeated exact halving. -/
def halve (bits shift odd diff : Nat) : Option Nat := do
  let halfStep ← addTrap bits (shr odd 1) 1
  forUp shift (fun h _ => addTrap bits (shr h 1) (if h &&& 1 ≠ 0 then halfStep else 0)) diff

/-- The recombination of the results modulo the odd part and the power of two. -/
def recombine (bits shift odd oddResult pow2Result : Nat) : Option Nat := do
  let pow2ModOdd ← remTrap pow2Result odd
  let diff ← diffMod bits oddResult pow2ModOdd odd
  let h ← halve bits shift odd diff
  addTrap bits pow2Result (shl bits h shift)

def modexpWords (bits modulus base : Nat) (exponentBytes : List UInt8) : Option Nat := do
  assert (modulus ≠ 0)
  let shift ← shiftAmount bits (ctz bits modulus)
  let odd := shr modulus shift
  if odd = 1 then do
    let mask ← subTrap modulus 1
    powMod2k bits (truncate bits (base &&& mask)) exponentBytes mask
  else do
    let reduced ← reduceU256 bits base odd
    let oddResult ← montPow bits reduced exponentBytes odd
    if shift = 0 then return oddResult
    else do
      let mask ← subTrap (shl bits 1 shift) 1
      let pow2Result ← powMod2k bits (truncate bits (base &&& mask)) exponentBytes mask
      recombine bits shift odd oddResult pow2Result

/-- The width that holds the modulus. -/
def wordResult (sigMod : List UInt8) (baseWord : Nat) (exponentBytes : List UInt8) : Option Nat :=
  if sigMod.length ≤ 8 then modexpWords 64 (readWordBytes 64 sigMod) baseWord exponentBytes
  else if sigMod.length ≤ 16 then
    modexpWords 128 (readWordBytes 128 sigMod) baseWord exponentBytes
  else modexpWords 256 (readWordBytes 256 sigMod) baseWord exponentBytes

/-- The output written, or none where the inputs need another path. -/
def modexpSmallInto (output baseBytes exponentBytes modulusBytes : List UInt8) :
    Option (Option (List UInt8)) :=
  let sigMod := stripLeadingZeroBytes modulusBytes
  let sigBase := stripLeadingZeroBytes baseBytes
  if sigMod.length = 0 ∨ 32 < sigMod.length ∨ 32 < sigBase.length then some none
  else do
    let result ← wordResult sigMod (readWordBytes 256 sigBase) exponentBytes
    let word := beBytes 32 result
    let copyLen := min output.length word.length
    let start ← subTrap output.length copyLen
    let output ← copyInto output start (word.drop (word.length - copyLen))
    return some output

/-! ## Big integers -/

inductive Error where
  | outOfMemory
  deriving DecidableEq, Repr

/-- The answers the allocator still has to give; after these it grants. -/
abbrev Alloc (α : Type) : Type := Action (List Bool) Error α

def allocate : Alloc Unit := fun answers =>
  match answers with
  | [] => .ok () []
  | true :: answers => .ok () answers
  | false :: answers => .fail .outOfMemory answers

def trapped {α : Type} (value : Option α) : Alloc α := fun answers =>
  match value with
  | some value => .ok value answers
  | none => .illegal

/-- `init` and `ensureTwosCompCapacity` allocate. -/
def managedFromBytes (bytes : List UInt8) : Alloc Nat := do
  allocate
  allocate
  return beValue bytes

/-- The quotient and the remainder are made, then `divTrunc` divides. -/
def reduceManaged (value modulus : Nat) : Alloc Nat := do
  allocate
  allocate
  allocate
  trapped (remTrap value modulus)

def mulMod (a b modulus : Nat) : Alloc Nat := do
  allocate
  allocate
  trapped (remTrap (a * b) modulus)

/-- `result.copy`. -/
def copyManaged (value : Nat) : Alloc Nat := do
  allocate
  return value

/-- `writeTwosComplement(output, .big)` of a number that is not negative. -/
def writeTwosComplement (len value : Nat) : Option (List UInt8) :=
  if value < 256 ^ len then some (beBytes len value) else none

def modexpBigIntInto (output baseBytes exponentBytes modulusBytes : List UInt8) :
    Alloc (List UInt8) := do
  let modulus ← managedFromBytes modulusBytes
  let base ← managedFromBytes baseBytes
  let base ← reduceManaged base modulus
  allocate
  let result ← reduceManaged 1 modulus
  -- `product`, `quotient` and `remainder`
  allocate
  allocate
  allocate
  let result ← ladder (fun result => mulMod result result modulus)
    (fun result => mulMod result base modulus) (copyManaged base) result exponentBytes
  trapped (writeTwosComplement output.length result)

/-! ## Limbs -/

def maxMontgomeryLimbs : Nat := 64

/-- The loop of `limbsFromBytes` over `count` limbs, with `stop` bytes left. -/
def limbsUpTo (bytes : List UInt8) : (count stop : Nat) → Limbs
  | 0, _ => []
  | count + 1, stop =>
      if stop = 0 then clearLimbs (count + 1)
      else
        let start := stop - 8
        readWordBytes 64 ((bytes.take stop).drop start) :: limbsUpTo bytes count start

/-- `limbsFromBytes(limbs[0..count], bytes)` over an array of zeros. -/
def limbsFromBytes (count : Nat) (bytes : List UInt8) : Limbs :=
  limbsUpTo bytes count bytes.length ++ clearLimbs (maxMontgomeryLimbs - count)

/-- The loop of `bytesFromLimbs`. -/
def bytesUpTo : (limbs : Limbs) → (output : List UInt8) → (stop : Nat) → Option (List UInt8)
  | [], output, _ => some output
  | limb :: limbs, output, stop =>
      if stop = 0 then do
        assert (limb = 0)
        bytesUpTo limbs output 0
      else do
        let start := stop - 8
        let len ← subTrap stop start
        let output ← copyInto output start ((beBytes 8 limb).drop (8 - len))
        bytesUpTo limbs output start

def bytesFromLimbs (output : List UInt8) (limbs : Limbs) : Option (List UInt8) :=
  bytesUpTo limbs output output.length

/-- The array of `montMulLimbs`, and the carry of its inner loops. -/
structure Carried where
  t : Limbs
  carry : Nat

/-- One limb of the product by a limb of `b`. -/
def mulAddLimb (a : Limbs) (bi : Nat) (state : Carried) (j : Nat) : Option Carried := do
  let limb ← a.get j
  let product ← mulTrap 128 limb bi
  let low ← state.t.get j
  let sum ← addTrap 128 product low
  let product ← addTrap 128 sum state.carry
  let t ← state.t.put j (truncate 64 product)
  let carry ← castTrap 64 (shr product 64)
  return { t, carry }

/-- One limb of the multiple of the modulus, a place lower. -/
def reduceLimb (modulus : Limbs) (factor : Nat) (state : Carried) (before : Nat) :
    Option Carried := do
  let limb ← modulus.get (before + 1)
  let product ← mulTrap 128 factor limb
  let low ← state.t.get (before + 1)
  let sum ← addTrap 128 product low
  let product ← addTrap 128 sum state.carry
  let t ← state.t.put before (truncate 64 product)
  let carry ← castTrap 64 (shr product 64)
  return { t, carry }

/-- `t` and the product by a limb of `b`, over two more limbs. -/
def mulAddRow (limbCount : Nat) (a : Limbs) (bi : Nat) (t : Limbs) : Option Limbs := do
  let row ← forUp limbCount (mulAddLimb a bi) ⟨t, 0⟩
  let top ← row.t.get limbCount
  let sum ← addTrap 128 top row.carry
  let t ← row.t.put limbCount (truncate 64 sum)
  let high ← castTrap 64 (shr sum 64)
  t.put (limbCount + 1) high

/-- The multiple of the modulus that clears the lowest limb is added, and that limb dropped.
`column` adds the carry to the top limb. -/
def reduceRow (column : Nat → Nat → Option Nat) (limbCount : Nat) (modulus : Limbs) (n0 : Nat)
    (t : Limbs) : Option Limbs := do
  let lowest ← t.get 0
  let factor := mulWrap 64 lowest n0
  let first ← modulus.get 0
  let product ← mulTrap 128 factor first
  let sum ← addTrap 128 product lowest
  let carry ← castTrap 64 (shr sum 64)
  let row ← forUp (limbCount - 1) (reduceLimb modulus factor) ⟨t, carry⟩
  let top ← row.t.get limbCount
  let sum ← addTrap 128 top row.carry
  let t ← row.t.put (limbCount - 1) (truncate 64 sum)
  let high ← castTrap 64 (shr sum 64)
  let above ← t.get (limbCount + 1)
  let top ← column above high
  t.put limbCount top

structure Borrowed where
  t : Limbs
  borrow : Nat

/-- `lhs` is an `i128`. -/
def subModulusLimb (modulus : Limbs) (state : Borrowed) (j : Nat) : Option Borrowed := do
  let limb ← state.t.get j
  let other ← modulus.get j
  let lhs : Int := limb - other - state.borrow
  let t ← state.t.put j (lhs % 2 ^ 64).toNat
  return { t, borrow := if lhs < 0 then 1 else 0 }

/-- At most one subtraction. -/
def subModulus (limbCount : Nat) (modulus t : Limbs) : Option Limbs := do
  let top ← t.get limbCount
  let less ← ltFrom t modulus limbCount
  if top ≠ 0 ∨ less = false then do
    let state ← forUp limbCount (subModulusLimb modulus) ⟨t, 0⟩
    return state.t
  else return t

/-- `montMulLimbs`, with the addition of the carry column as a parameter. -/
def montMulColumn (column : Nat → Nat → Option Nat) (limbCount : Nat) (a b modulus : Limbs)
    (n0 : Nat) : Option Limbs := do
  let t ← forUp limbCount (fun t i => do
    let bi ← b.get i
    let t ← mulAddRow limbCount a bi t
    reduceRow column limbCount modulus n0 t) (clearLimbs (maxMontgomeryLimbs + 2))
  let t ← subModulus limbCount modulus t
  return t.take limbCount ++ clearLimbs (maxMontgomeryLimbs - limbCount)

/-- The code adds the carry column with `+%`. -/
def montMulLimbs (limbCount : Nat) (a b modulus : Limbs) (n0 : Nat) : Option Limbs :=
  montMulColumn (fun left right => some (addWrap 64 left right)) limbCount a b modulus n0

/-- `one`. -/
def oneLimbs : Limbs := 1 :: clearLimbs (maxMontgomeryLimbs - 1)

/-- The exponentiation over limbs, once `r2_limbs` and `base_limbs` are there. -/
def limbsPow (limbCount : Nat) (base r2 modulus : Limbs) (n0 : Nat) (exponentBytes : List UInt8) :
    Option Limbs := do
  let baseMont ← montMulLimbs limbCount base r2 modulus n0
  let resultMont ← montMulLimbs limbCount oneLimbs r2 modulus n0
  let resultMont ← ladder (fun result => montMulLimbs limbCount result result modulus n0)
    (fun result => montMulLimbs limbCount result baseMont modulus n0) (some baseMont) resultMont
    exponentBytes
  montMulLimbs limbCount resultMont oneLimbs modulus n0

/-- The last byte, which the code indexes. -/
def lastByte (bytes : List UInt8) : Option UInt8 := bytes.getLast?

/-- The output written, or none where the inputs need another path. -/
def modexpMontgomeryLimbsInto (output baseBytes exponentBytes modulusBytes : List UInt8) :
    Alloc (Option (List UInt8)) :=
  let sigMod := stripLeadingZeroBytes modulusBytes
  if sigMod.length ≤ 32 ∨ maxMontgomeryLimbs * 8 < sigMod.length then return none
  else do
    let last ← trapped (lastByte sigMod)
    if last &&& 1 = 0 then return none
    else do
      let limbCount := (sigMod.length + 7) / 8
      let modulus := limbsFromBytes limbCount sigMod
      let lowest ← trapped (modulus.get 0)
      let n0 := subWrap 64 0 (newtonInverse 64 lowest)
      let modulusBig ← managedFromBytes sigMod
      -- `r2_big`, and its shift
      allocate
      allocate
      let r2Big ← reduceManaged (2 ^ (128 * limbCount)) modulusBig
      let reduced ← trapped (writeTwosComplement (limbCount * 8) r2Big)
      let r2 := limbsFromBytes limbCount reduced
      let baseBig ← managedFromBytes baseBytes
      let baseBig ← reduceManaged baseBig modulusBig
      let reduced ← trapped (writeTwosComplement (limbCount * 8) baseBig)
      let base := limbsFromBytes limbCount reduced
      let result ← trapped (limbsPow limbCount base r2 modulus n0 exponentBytes)
      let output ← trapped
        (bytesFromLimbs (List.replicate output.length 0) (result.take limbCount))
      return some output

/-! ## The choice of a path -/

def into (output baseBytes exponentBytes modulusBytes : List UInt8) : Alloc (List UInt8) := do
  let small ← trapped (modexpSmallInto output baseBytes exponentBytes modulusBytes)
  match small with
  | some output => return output
  | none => do
      let limbs ← modexpMontgomeryLimbsInto output baseBytes exponentBytes modulusBytes
      match limbs with
      | some output => return output
      | none => modexpBigIntInto output baseBytes exponentBytes modulusBytes

end EvmZig.Modexp
