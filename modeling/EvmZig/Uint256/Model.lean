import EvmZig.Zig.Words

/-!
# Division and modular arithmetic on words (`src/uint256.zig`)

Words of 256 bits are divided limb by limb.  A limb is a natural number below
`2 ^ 64`, an array of limbs a list with checked access.  Where the source declares an array
`undefined`, the limbs it has not written have the value of a parameter.
-/

set_option autoImplicit false

namespace EvmZig.Uint256

open Zig

/-- `[N]u64`, least significant limb first. -/
abbrev Limbs : Type := List Nat

def Limbs.get (limbs : Limbs) (index : Nat) : Option Nat := limbs[index]?

def Limbs.put (limbs : Limbs) (index value : Nat) : Option Limbs :=
  if index < limbs.length then some (limbs.set index value) else none

def u64Max : Nat := 2 ^ 64 - 1

/-! ## Words and limbs -/

def toLimbs (value : Nat) : Limbs :=
  [truncate 64 value, truncate 64 (shr value 64), truncate 64 (shr value 128),
    truncate 64 (shr value 192)]

def fromLimbs (limbs : Limbs) : Option Nat := do
  let limb0 ← limbs.get 0
  let limb1 ← limbs.get 1
  let limb2 ← limbs.get 2
  let limb3 ← limbs.get 3
  return ((limb0 ||| shl 256 limb1 64) ||| shl 256 limb2 128) ||| shl 256 limb3 192

def clearLimbs (count : Nat) : Limbs := List.replicate count 0

/-- `countLimbs(N, limbs)`. -/
def countLimbs (limbs : Limbs) : (count : Nat) → Option Nat
  | 0 => some 0
  | count + 1 => do
      let limb ← limbs.get count
      if limb = 0 then countLimbs limbs count else return count + 1

/-- The loop of `ltPrefix`. -/
def ltFrom (left right : Limbs) : (count : Nat) → Option Bool
  | 0 => some false
  | index + 1 => do
      let lhs ← left.get index
      let rhs ← right.get index
      if lhs ≠ rhs then return decide (lhs < rhs) else ltFrom left right index

def ltPrefix (left : Limbs) (leftLen : Nat) (right : Limbs) (rightLen : Nat) : Option Bool :=
  if leftLen ≠ rightLen then some (decide (leftLen < rightLen)) else ltFrom left right leftLen

/-! ## Two limbs by one -/

/-- A quotient and its remainder. -/
structure QuotRem where
  q : Nat
  r : Nat
  deriving DecidableEq, Repr

/-- `q1 >= base or q1 * vn0 > (rhat << 32) + un1`, in `u64`. -/
def halfTooLarge (vn0 digit q rhat : Nat) : Option Bool :=
  if 2 ^ 32 ≤ q then some true else do
    let product ← mulTrap 64 q vn0
    let bound ← addTrap 64 (shl 64 rhat 32) digit
    return decide (product > bound)

/-- The loop that lowers the estimate of a half digit. -/
def lowerHalf (vn1 vn0 digit : Nat) : (q rhat : Nat) → Option Nat
  | 0, rhat => do
      let large ← halfTooLarge vn0 digit 0 rhat
      -- `q1 -= 1` traps
      if large then none else return 0
  | q + 1, rhat => do
      let large ← halfTooLarge vn0 digit (q + 1) rhat
      if large then do
        let rhat ← addTrap 64 rhat vn1
        if 2 ^ 32 ≤ rhat then return q else lowerHalf vn1 vn0 digit q rhat
      else return q + 1

/-- One of the two half digits: `q1` and `un21`, then `q0` and the rest. -/
def halfDigit (v high digit : Nat) : Option QuotRem := do
  let vn1 := shr v 32
  let vn0 := v &&& (2 ^ 32 - 1)
  let estimate ← divTrap high vn1
  let rhat ← remTrap high vn1
  let q ← lowerHalf vn1 vn0 digit estimate rhat
  return { q, r := subWrap 64 (addWrap 64 (mulWrap 64 high (2 ^ 32)) digit) (mulWrap 64 q v) }

def div128by64 (nHi nLo denominator : Nat) : Option QuotRem := do
  let shift ← castTrap 6 (clz 64 denominator)
  let v := shl 64 denominator shift
  let un32 := if 0 < shift then shl 64 nHi shift ||| shr nLo (64 - shift) else nHi
  let un10 := shl 64 nLo shift
  let upper ← halfDigit v un32 (shr un10 32)
  let lower ← halfDigit v upper.r (un10 &&& (2 ^ 32 - 1))
  let high ← mulTrap 64 upper.q (2 ^ 32)
  let q ← addTrap 64 high lower.q
  return { q, r := shr lower.r shift }

/-! ## Knuth division -/

/-- The limbs of the dividend, and what the product and the difference carry over. -/
structure MulSub where
  u : Limbs
  carry : Nat
  borrow : Nat

/-- `u[at] = value` and the borrow, where `lhs - rhs` or `2 ^ 64 + lhs - rhs` is in range. -/
def subLimb (u : Limbs) (place lhs rhs : Nat) : Option (Limbs × Nat) :=
  if lhs ≥ rhs then do
    let difference ← subTrap lhs rhs
    let u ← u.put place (truncate 64 difference)
    return (u, 0)
  else do
    let lifted ← addTrap 128 (2 ^ 64) lhs
    let difference ← subTrap lifted rhs
    let u ← u.put place (truncate 64 difference)
    return (u, 1)

/-- One limb of `mulSubAt`. -/
def mulSubLimb (divisor : Limbs) (offset qhat : Nat) (state : MulSub) (i : Nat) :
    Option MulSub := do
  let limb ← divisor.get i
  let product ← mulTrap 128 qhat limb
  let product ← addTrap 128 product state.carry
  let rhs ← addTrap 128 (truncate 64 product) state.borrow
  let lhs ← state.u.get (offset + i)
  let (u, borrow) ← subLimb state.u (offset + i) lhs rhs
  return { u, carry := shr product 64, borrow }

/-- Subtract `qhat` times the divisor; the flag says that the difference is negative. -/
def mulSubAt (u divisor : Limbs) (divisorLen offset qhat : Nat) : Option (Limbs × Bool) := do
  let state ← forUp divisorLen (mulSubLimb divisor offset qhat) ⟨u, 0, 0⟩
  let highRhs ← addTrap 128 state.carry state.borrow
  let highLhs ← state.u.get (offset + divisorLen)
  let (u, borrow) ← subLimb state.u (offset + divisorLen) highLhs highRhs
  return (u, decide (borrow = 1))

structure AddBack where
  u : Limbs
  carry : Nat

/-- One limb of `addBackAt`. -/
def addBackLimb (divisor : Limbs) (offset : Nat) (state : AddBack) (i : Nat) :
    Option AddBack := do
  let lhs ← state.u.get (offset + i)
  let rhs ← divisor.get i
  let sum ← addTrap 128 lhs rhs
  let sum ← addTrap 128 sum state.carry
  let u ← state.u.put (offset + i) (truncate 64 sum)
  return { u, carry := shr sum 64 }

def addBackAt (u divisor : Limbs) (divisorLen offset : Nat) : Option Limbs := do
  let state ← forUp divisorLen (addBackLimb divisor offset) ⟨u, 0⟩
  let high ← state.u.get (offset + divisorLen)
  state.u.put (offset + divisorLen) (addWrap 64 high (truncate 64 state.carry))

/-- An estimate of a quotient digit, and its rest. -/
structure Guess where
  qhat : Nat
  rhat : Nat
  rhatOverflow : Bool
  deriving DecidableEq, Repr

/-- The estimate from the leading limb of the divisor. -/
def firstGuess (top next high : Nat) : Option Guess :=
  if top = high then
    let (rhat, rhatOverflow) := addWithOverflow 64 next high
    some { qhat := u64Max, rhat, rhatOverflow }
  else do
    let trial ← div128by64 top next high
    return { qhat := trial.q, rhat := trial.r, rhatOverflow := false }

/-- The loop that lowers the estimate by the second limb of the divisor. -/
def lowerGuess (high second digit : Nat) : (qhat rhat : Nat) → (rhatOverflow : Bool) → Option Nat
  -- `0 * second > ..` fails
  | 0, _, _ => some 0
  | qhat + 1, rhat, rhatOverflow =>
      if rhatOverflow then some (qhat + 1) else do
        let product ← mulTrap 128 (qhat + 1) second
        if product > (shl 128 rhat 64 ||| digit) then
          let (rhat, rhatOverflow) := addWithOverflow 64 rhat high
          lowerGuess high second digit qhat rhat rhatOverflow
        else return qhat + 1

/-- `qhat` of the limbs at `offset`. -/
def estimateAt (u divisor : Limbs) (divisorLen offset : Nat) : Option Nat := do
  let top ← u.get (offset + divisorLen)
  let next ← u.get (offset + divisorLen - 1)
  let high ← divisor.get (divisorLen - 1)
  let guess ← firstGuess top next high
  if 2 ≤ divisorLen then do
    let second ← divisor.get (divisorLen - 2)
    let digit ← u.get (offset + divisorLen - 2)
    lowerGuess high second digit guess.qhat guess.rhat guess.rhatOverflow
  else return guess.qhat

/-- A digit of the quotient, and the dividend without it. -/
structure Digit where
  qhat : Nat
  u : Limbs
  deriving DecidableEq, Repr

/-- The body of the division loops. -/
def divideAt (divisor : Limbs) (divisorLen : Nat) (u : Limbs) (offset : Nat) : Option Digit := do
  let qhat ← estimateAt u divisor divisorLen offset
  let (u, negative) ← mulSubAt u divisor divisorLen offset qhat
  if negative then do
    let u ← addBackAt u divisor divisorLen offset
    return { qhat := subWrap 64 qhat 1, u }
  else return { qhat, u }

/-- `out[0] = limbs[0] << shift` and `out[i] = (limbs[i] << shift) | (limbs[i - 1] >> rshift)`. -/
def shiftUp (out limbs : Limbs) (len shift : Nat) : Option Limbs := do
  let first ← limbs.get 0
  let out ← out.put 0 (shl 64 first shift)
  forUp (len - 1) (fun out before => do
    let high ← limbs.get (before + 1)
    let low ← limbs.get before
    out.put (before + 1) (shl 64 high shift ||| shr low (64 - shift))) out

/-- `out[i] = limbs[i]` for `i < len`. -/
def copyLimbs (out limbs : Limbs) (len : Nat) : Option Limbs :=
  forUp len (fun out i => do
    let limb ← limbs.get i
    out.put i limb) out

/-- The normalized operands. -/
structure Operands where
  divisor : Limbs
  u : Limbs

/-- Without a shift the operands are copied, the dividend over zeros. -/
def copyOperands (divisor u numerator : Limbs) (numeratorLen : Nat) (divisorIn : Limbs)
    (divisorLen : Nat) : Option Operands := do
  let divisor ← copyLimbs divisor divisorIn divisorLen
  let u ← copyLimbs u numerator numeratorLen
  return { divisor, u }

/-- The operands shifted by a nonzero `shift`, over the arrays as they are. -/
def shiftOperands (divisor u numerator : Limbs) (numeratorLen : Nat) (divisorIn : Limbs)
    (divisorLen shift : Nat) : Option Operands := do
  let divisor ← shiftUp divisor divisorIn divisorLen shift
  let u ← shiftUp u numerator numeratorLen shift
  let last ← numerator.get (numeratorLen - 1)
  let u ← u.put numeratorLen (shr last (64 - shift))
  return { divisor, u }

/-- `out[i] = (u[i] >> shift) | upper`, or a copy. -/
def unnormalizeRemainder (u : Limbs) (divisorLen shift : Nat) : Option Limbs :=
  if shift = 0 then copyLimbs (clearLimbs 4) u divisorLen
  else
    forUp divisorLen (fun out i => do
      let limb ← u.get i
      let upper ← if i + 1 < divisorLen then (shl 64 · (64 - shift)) <$> u.get (i + 1) else some 0
      out.put i (shr limb shift ||| upper)) (clearLimbs 4)

/-- `quotient` and `remainder`. -/
structure DivMod where
  quotient : Limbs
  remainder : Limbs

def divModNormalized (numerator : Limbs) (numeratorLen : Nat) (divisorIn : Limbs)
    (divisorLen : Nat) : Option DivMod := do
  let leading ← divisorIn.get (divisorLen - 1)
  let shift ← castTrap 6 (clz 64 leading)
  let operands ←
    if shift = 0 then
      copyOperands (clearLimbs 4) (clearLimbs 5) numerator numeratorLen divisorIn divisorLen
    else
      shiftOperands (clearLimbs 4) (clearLimbs 5) numerator numeratorLen divisorIn divisorLen shift
  let offsets ← subTrap numeratorLen divisorLen
  let done ← forDown (fun (state : DivMod) offset => do
    let digit ← divideAt operands.divisor divisorLen state.remainder offset
    let quotient ← state.quotient.put offset digit.qhat
    return { quotient, remainder := digit.u }) (offsets + 1) ⟨clearLimbs 4, operands.u⟩
  let remainder ← unnormalizeRemainder done.remainder divisorLen shift
  return { quotient := done.quotient, remainder }

structure SingleLimb where
  quotient : Limbs
  rem : Nat

/-- One limb of `divModSingleLimb`. -/
def singleLimb (numerator : Limbs) (divisor : Nat) (state : SingleLimb) (i : Nat) :
    Option SingleLimb := do
  let limb ← numerator.get i
  let result ← div128by64 state.rem limb divisor
  let quotient ← state.quotient.put i result.q
  return { quotient, rem := result.r }

def divModSingleLimb (numerator : Limbs) (numeratorLen divisor : Nat) : Option DivMod := do
  let done ← forDown (singleLimb numerator divisor) numeratorLen ⟨clearLimbs 4, 0⟩
  return { quotient := done.quotient, remainder := [done.rem, 0, 0, 0] }

def divModKnuth (numerator divisor : Limbs) : Option DivMod := do
  let divisorLen ← countLimbs divisor 4
  if divisorLen = 0 then return ⟨clearLimbs 4, clearLimbs 4⟩
  let numeratorLen ← countLimbs numerator 4
  if numeratorLen = 0 then return ⟨clearLimbs 4, clearLimbs 4⟩
  let below ← ltPrefix numerator numeratorLen divisor divisorLen
  if below then return ⟨clearLimbs 4, numerator⟩
  if divisorLen = 1 then do
    let limb ← divisor.get 0
    divModSingleLimb numerator numeratorLen limb
  else divModNormalized numerator numeratorLen divisor divisorLen

def divKnuth (value denominator : Nat) : Option Nat := do
  let result ← divModKnuth (toLimbs value) (toLimbs denominator)
  fromLimbs result.quotient

def modKnuth (value denominator : Nat) : Option Nat := do
  let result ← divModKnuth (toLimbs value) (toLimbs denominator)
  fromLimbs result.remainder

/-! ## Words -/

/-- `div(a, b)`, with `use_limb_div_mod`. -/
def div (a b : BitVec 256) : Option (BitVec 256) := do
  if b = 0 then return 0
  if (a ||| b).toNat ≤ u64Max then do
    let quotient ← divTrap (truncate 64 a.toNat) (truncate 64 b.toNat)
    return BitVec.ofNat 256 quotient
  else BitVec.ofNat 256 <$> divKnuth a.toNat b.toNat

def mod (a b : BitVec 256) : Option (BitVec 256) := do
  if b = 0 then return 0
  if (a ||| b).toNat ≤ u64Max then do
    let remainder ← remTrap (truncate 64 a.toNat) (truncate 64 b.toNat)
    return BitVec.ofNat 256 remainder
  else BitVec.ofNat 256 <$> modKnuth a.toNat b.toNat

/-- The argument is the word of an `i256`; `@intCast(value)` cannot trap where it is made. -/
def signedMagnitude (value : BitVec 256) : BitVec 256 :=
  if value.toInt ≥ 0 then value else ~~~value + 1

def sdiv (a b : BitVec 256) : Option (BitVec 256) := do
  if b = 0 then return 0
  let quotient ← div (signedMagnitude a) (signedMagnitude b)
  return if decide (a.toInt < 0) ≠ decide (b.toInt < 0) then 0 - quotient else quotient

def smod (a b : BitVec 256) : Option (BitVec 256) := do
  if b = 0 then return 0
  let remainder ← mod (signedMagnitude a) (signedMagnitude b)
  return if a.toInt < 0 then 0 - remainder else remainder

/-! ## Modular arithmetic -/

def addModReduced (lhs rhs modulo : BitVec 256) : Option (BitVec 256) := do
  let (result, overflow) := addWithOverflow 256 lhs.toNat rhs.toNat
  if overflow = false then
    if result ≥ modulo.toNat then BitVec.ofNat 256 <$> subTrap result modulo.toNat
    else return BitVec.ofNat 256 result
  else BitVec.ofNat 256 <$> addTrap 256 result (0 - modulo).toNat

def addMod (a b modulo : BitVec 256) : Option (BitVec 256) := do
  if modulo = 0 then return 0
  let lhs ← if a.toNat ≥ modulo.toNat then mod a modulo else some a
  let rhs ← if b.toNat ≥ modulo.toNat then mod b modulo else some b
  addModReduced lhs rhs modulo

/-- The loop of `mulModNearPowerOfTwo`, for at most `fuel` rounds. -/
def foldHigh (complement : Nat) : (fuel reduced : Nat) → Option Nat
  | 0, _ => none
  | fuel + 1, reduced =>
      if shr reduced 256 ≠ 0 then do
        let carry ← castTrap 64 (shr reduced 256)
        let folded ← mulTrap 320 carry complement
        let reduced ← addTrap 320 (truncate 256 reduced) folded
        foldHigh complement fuel reduced
      else some reduced

def mulModNearPowerOfTwo (fuel lhs rhs modulo complement : Nat) : Option Nat := do
  let product ← mulTrap 512 lhs rhs
  let folded ← mulTrap 320 (truncate 256 (shr product 256)) complement
  let reduced ← addTrap 320 (truncate 256 product) folded
  let reduced ← foldHigh complement fuel reduced
  let result ← castTrap 256 reduced
  return if result ≥ modulo then subWrap 256 result modulo else result

structure Row where
  out : Limbs
  carry : Nat

/-- One product of `mulFull4`. -/
def mulLimb (lhs rhs : Limbs) (i : Nat) (row : Row) (j : Nat) : Option Row := do
  let left ← lhs.get i
  let right ← rhs.get j
  let product ← mulTrap 128 left right
  let limb ← row.out.get (i + j)
  let sum ← addTrap 128 limb product
  let sum ← addTrap 128 sum row.carry
  let out ← row.out.put (i + j) (truncate 64 sum)
  return { out, carry := shr sum 64 }

/-- `while (carry != 0) : (index += 1)`; past the array the access traps. -/
def carryInto (out : Limbs) (index carry : Nat) : Option Limbs :=
  if carry = 0 then some out
  else if inside : index < out.length then do
    let sum ← addTrap 128 out[index] carry
    carryInto (out.set index (truncate 64 sum)) (index + 1) (shr sum 64)
  else none
termination_by out.length - index
decreasing_by
  rw [List.length_set]
  omega

def mulFull4 (lhs rhs : Limbs) : Option Limbs :=
  forUp 4 (fun out i => do
    let row ← forUp 4 (mulLimb lhs rhs i) ⟨out, 0⟩
    carryInto row.out (i + 4) row.carry) (clearLimbs 8)

def modNxMKnuth (undefined : Nat) (numerator modulo : Limbs) (numeratorLen divisorLen : Nat) :
    Option Limbs := do
  let leading ← modulo.get (divisorLen - 1)
  let shift ← castTrap 6 (clz 64 leading)
  let operands ←
    if shift = 0 then
      copyOperands (List.replicate 4 undefined) (clearLimbs 9) numerator numeratorLen modulo
        divisorLen
    else
      shiftOperands (List.replicate 4 undefined) (List.replicate 9 undefined) numerator
        numeratorLen modulo divisorLen shift
  let offsets ← subTrap numeratorLen divisorLen
  let u ← forDown (fun u offset => Digit.u <$> divideAt operands.divisor divisorLen u offset)
    (offsets + 1) operands.u
  unnormalizeRemainder u divisorLen shift

/-- One limb of the single-limb branch of `mod8By4Knuth`. -/
def remLimb (numerator : Limbs) (divisor rem i : Nat) : Option Nat := do
  let limb ← numerator.get i
  let result ← div128by64 rem limb divisor
  return result.r

def mod8By4Knuth (undefined : Nat) (numerator modulo : Limbs) : Option Limbs := do
  let divisorLen ← countLimbs modulo 4
  let numeratorLen ← countLimbs numerator 8
  if numeratorLen = 0 then return clearLimbs 4
  let below ← ltPrefix numerator numeratorLen modulo divisorLen
  if below then return ← forUp 4 (fun out i =>
    if i < numeratorLen then do
      let limb ← numerator.get i
      out.put i limb
    else some out) (clearLimbs 4)
  if divisorLen = 1 then do
    let limb ← modulo.get 0
    let rem ← forDown (remLimb numerator limb) numeratorLen 0
    return [rem, 0, 0, 0]
  else modNxMKnuth undefined numerator modulo numeratorLen divisorLen

def mulModKnuth (undefined lhs rhs modulo : Nat) : Option Nat := do
  let product ← mulFull4 (toLimbs lhs) (toLimbs rhs)
  let reduced ← mod8By4Knuth undefined product (toLimbs modulo)
  fromLimbs reduced

def mulMod (undefined fuel : Nat) (lhs rhs modulo : BitVec 256) : Option (BitVec 256) := do
  if modulo = 0 then return 0
  let complement := (0 - modulo).toNat
  if complement ≤ u64Max then
    BitVec.ofNat 256 <$>
      mulModNearPowerOfTwo fuel lhs.toNat rhs.toNat modulo.toNat complement
  else BitVec.ofNat 256 <$> mulModKnuth undefined lhs.toNat rhs.toNat modulo.toNat

end EvmZig.Uint256
