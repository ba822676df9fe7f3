import EvmZig.Zig.BigEndian
import EvmZig.Zig.Checked
import EvmZig.Zig.Signed
import EvmZig.Zig.Slice
import EvmZig.Zig.Words

/-!
# The modexp precompile (`src/precompile.zig`)

A call prices its input, charges the cost, pads its operands to their declared
lengths and hands them to a backend.  What a call allocates and charges is recorded in the
order in which it happens.
-/

set_option autoImplicit false

namespace EvmZig.Precompile

open Zig

/-! ## Words of the input

`.fail ()` is `null`. -/

/-- `orelse return null`. -/
def orNull {α : Type} : Option α → Checked Unit α
  | some value => .ok value
  | none => .fail ()

def checkedAdd (left right : Nat) : Checked Unit Nat := orNull (addTrap 256 left right)

def checkedMul (left right : Nat) : Checked Unit Nat := orNull (mulTrap 256 left right)

/-- `std.math.cast(usize, value)`. -/
def castUsize (value : Nat) : Checked Unit Nat :=
  if value ≤ usizeMax then .ok value else .fail ()

/-- `std.math.cast(i64, value)` of an unsigned value. -/
def castI64 (value : Nat) : Checked Unit Nat :=
  if (value : Int) ≤ i64Max then .ok value else .fail ()

def bitLength (value : Nat) : Nat := if value = 0 then 0 else 256 - clz 256 value

def ceilDiv (value denominator : Nat) : Option Nat := do
  let quotient ← divTrap value denominator
  let remainder ← remTrap value denominator
  addTrap 256 quotient (if remainder ≠ 0 then 1 else 0)

/-- `@memcpy(out[start..][0..part.len], part)`. -/
def copyInto (out : List UInt8) (start : Nat) (part : List UInt8) : Option (List UInt8) :=
  if start + part.length ≤ out.length then
    some (out.take start ++ part ++ out.drop (start + part.length))
  else none

def zeros (count : Nat) : List UInt8 := List.replicate count 0

def paddedWord (input : Slice) (wordIndex : Nat) : Option (List UInt8) := do
  let start ← mulTrap 64 wordIndex 32
  if start ≥ input.len then return zeros 32
  else do
    let rest ← subUsize input.len start
    let stop ← addUsize start (min 32 rest)
    let part ← input.sub start stop
    copyInto (zeros 32) 0 part.bytes

def modexpExponentHead (input : Slice) (exponentOffset exponentLen : Nat) : Option Nat :=
  -- `orelse return 0`
  if usizeMax < exponentOffset then some 0
  else if exponentOffset ≥ input.len ∨ exponentLen = 0 then some 0
  else do
    let rest ← subUsize input.len exponentOffset
    if exponentLen ≤ 32 then do
      let start ← subUsize 32 exponentLen
      let stop ← addUsize exponentOffset (min exponentLen rest)
      let part ← input.sub exponentOffset stop
      let word ← copyInto (zeros 32) start part.bytes
      return beValue word
    else do
      let stop ← addUsize exponentOffset (min 32 rest)
      let part ← input.sub exponentOffset stop
      let word ← copyInto (zeros 32) 0 part.bytes
      return beValue word

/-! ## Pricing -/

inductive ModexpPricing where
  | eip198
  | eip2565
  | eip7883
  deriving DecidableEq, Repr

/-- The fields of a configuration that `modexp` reads; `validateConfig` has checked the gas
parameters. -/
structure Config where
  modexpMinimum : Nat
  modexpDivisor : Nat
  modexpPricing : ModexpPricing
  modexpMaxInputLen : Option Nat
  deriving Repr

def byzantiumConfig : Config where
  modexpMinimum := 0
  modexpDivisor := 20
  modexpPricing := .eip198
  modexpMaxInputLen := none

def berlinConfig : Config :=
  { byzantiumConfig with modexpMinimum := 200, modexpDivisor := 3, modexpPricing := .eip2565 }

def osakaConfig : Config :=
  { berlinConfig with
    modexpMinimum := 500, modexpPricing := .eip7883, modexpMaxInputLen := some 1024 }

/-- `@max(base_len, ..) <= max_input_len`, where the configuration has a maximum. -/
def modexpLengthsWithinLimit (baseLen exponentLen modulusLen maxInputLen : Nat) : Prop :=
  baseLen ≤ maxInputLen ∧ exponentLen ≤ maxInputLen ∧ modulusLen ≤ maxInputLen

instance (baseLen exponentLen modulusLen maxInputLen : Nat) :
    Decidable (modexpLengthsWithinLimit baseLen exponentLen modulusLen maxInputLen) :=
  inferInstanceAs (Decidable (_ ∧ _))

def modexpOsakaMultComplexity (maxLen : Nat) : Checked Unit Nat :=
  if maxLen ≤ 32 then .ok 16
  else do
    let words ← ceilDiv maxLen 8
    let square ← checkedMul words words
    checkedMul 2 square

/-- `multiplier * (exponent_len - 32)` and the bits of the head, for both iteration counts. -/
def longExponent (multiplier exponentLen bitLen : Nat) : Checked Unit Nat := do
  let beyond ← subTrap exponentLen 32
  let tail ← checkedMul multiplier beyond
  if bitLen = 0 then return tail
  else do
    let bits ← subTrap bitLen 1
    checkedAdd tail bits

def modexpOsakaIterationCount (exponentLen exponentHead : Nat) : Checked Unit Nat :=
  let bitLen := bitLength exponentHead
  if exponentLen ≤ 32 then
    if bitLen = 0 then .ok 1
    else do
      let bits ← subTrap bitLen 1
      return max bits 1
  else do
    let adjusted ← longExponent 16 exponentLen bitLen
    return max adjusted 1

def adjustedExponentLength (exponentLen exponentHead : Nat) : Checked Unit Nat :=
  let bitLen := bitLength exponentHead
  if exponentLen ≤ 32 then
    if bitLen = 0 then .ok 0 else Checked.ofOption (subTrap bitLen 1)
  else longExponent 8 exponentLen bitLen

def eip198MultComplexity (x : Nat) : Checked Unit Nat := do
  let square ← checkedMul x x
  if x ≤ 64 then return square
  else if x ≤ 1024 then do
    let linear ← checkedMul 96 x
    let combined ← checkedAdd (square / 4) linear
    subTrap combined 3072
  else do
    let linear ← checkedMul 480 x
    let combined ← checkedAdd (square / 16) linear
    subTrap combined 199680

def modexpGas (config : Config) (baseLen exponentLen modulusLen exponentHead : Nat) :
    Checked Unit Nat :=
  let maxLen := max baseLen modulusLen
  match config.modexpPricing with
  | .eip7883 => do
      let complexity ← modexpOsakaMultComplexity maxLen
      let iterationCount ← modexpOsakaIterationCount exponentLen exponentHead
      let cost ← checkedMul complexity iterationCount
      castI64 (max cost config.modexpMinimum)
  | .eip2565 => do
      let words ← ceilDiv maxLen 8
      let complexity ← checkedMul words words
      if complexity = 0 then return config.modexpMinimum
      else do
        let iterationCount ← adjustedExponentLength exponentLen exponentHead
        let numerator ← checkedMul complexity (max iterationCount 1)
        let quotient ← divTrap numerator config.modexpDivisor
        castI64 (max quotient config.modexpMinimum)
  | .eip198 => do
      let complexity ← eip198MultComplexity maxLen
      if complexity = 0 then return 0
      else do
        let iterationCount ← adjustedExponentLength exponentLen exponentHead
        let numerator ← checkedMul complexity (max iterationCount 1)
        let cost ← divTrap numerator config.modexpDivisor
        castI64 cost

/-! ## The call -/

inductive Event where
  | charged (cost : Nat)
  | allocated (len : Nat)
  deriving DecidableEq, Repr

inductive Error where
  | outOfMemory
  deriving DecidableEq, Repr

inductive Status where
  | success
  | failure
  | outOfGas
  deriving DecidableEq, Repr

structure Result where
  status : Status
  outputData : List UInt8
  gasLeft : Int
  deriving DecidableEq, Repr

def emptyResult (status : Status) : Result := ⟨status, [], 0⟩

def successOutput (output : List UInt8) (gasLeft : Int) : Result := ⟨.success, output, gasLeft⟩

/-- What `precompile_backend.modexp` answers, with the output it wrote. -/
inductive BackendAnswer where
  | ok (output : List UInt8)
  | invalid
  | oom
  deriving DecidableEq, Repr

/-- The allocator, which may refuse at any point, and the backend: the operands are the base, the
exponent and the modulus. -/
structure Host where
  grants : List Event → Nat → Bool
  backend : List UInt8 → List UInt8 → List UInt8 → BackendAnswer

structure Call where
  inputData : Slice
  gas : Int
  gasFits : FitsI64 gas

/-- A call records its events, oldest first. -/
abbrev Run (α : Type) : Type := Action (List Event) Error α

/-- `orelse return emptyResult(.out_of_gas)`. -/
def orOutOfGas {α : Type} (value : Checked Unit α) (next : α → Run Result) : Run Result :=
  match value with
  | .ok value => next value
  | .fail () => pure (emptyResult .outOfGas)
  | .illegal => Action.illegal

def charge (gas : Int) (cost : Nat) (next : Int → Run Result) : Run Result :=
  if gas < cost then pure (emptyResult .outOfGas)
  else do
    let gasLeft ← subI64 gas cost
    Action.modify (· ++ [.charged cost])
    next gasLeft

/-- `allocator.alloc(u8, len)`, and the `@memset` to zero that follows it. -/
def allocZeros (host : Host) (len : Nat) : Run (List UInt8) := fun events =>
  if host.grants events len then .ok (zeros len) (events ++ [.allocated len])
  else .fail .outOfMemory events

def paddedBytes (host : Host) (input : Slice) (offset len : Nat) : Run (List UInt8) := do
  let bytes ← allocZeros host len
  if offset < input.len then do
    let rest ← subUsize input.len offset
    let stop ← addUsize offset (min len rest)
    let part ← input.sub offset stop
    copyInto bytes 0 part.bytes
  else return bytes

/-- The operands padded, and the backend run on them. -/
def runBackend (host : Host) (input : Slice) (gasLeft : Int)
    (baseLen exponentLen modulusLen exponentOffset modulusOffset : Nat) : Run Result := do
  let baseBytes ← paddedBytes host input 96 baseLen
  let exponentBytes ← paddedBytes host input exponentOffset exponentLen
  let modulusBytes ← paddedBytes host input modulusOffset modulusLen
  let output ← allocZeros host modulusLen
  if modulusBytes.all (· = 0) then return successOutput output gasLeft
  else
    match host.backend baseBytes exponentBytes modulusBytes with
    | .ok output => return successOutput output gasLeft
    | .invalid => return emptyResult .failure
    | .oom => Action.fail .outOfMemory

/-- The call once its cost has been charged. -/
def modexpCharged (host : Host) (input : Slice) (baseLen exponentLen modulusLen : Nat)
    (gasLeft : Int) : Run Result :=
  orOutOfGas (castUsize modulusLen) fun modulusLen =>
    if modulusLen = 0 then pure ⟨.success, [], gasLeft⟩
    else
      orOutOfGas (castUsize baseLen) fun baseLen =>
      orOutOfGas (castUsize exponentLen) fun exponentLen =>
      orOutOfGas (orNull (addUsize 96 baseLen)) fun exponentOffset =>
      orOutOfGas (orNull (addUsize exponentOffset exponentLen)) fun modulusOffset =>
        runBackend host input gasLeft baseLen exponentLen modulusLen exponentOffset modulusOffset

def modexp (host : Host) (config : Config) (call : Call) : Run Result := do
  let baseWord ← paddedWord call.inputData 0
  let exponentWord ← paddedWord call.inputData 1
  let modulusWord ← paddedWord call.inputData 2
  let baseLen := beValue baseWord
  let exponentLen := beValue exponentWord
  let modulusLen := beValue modulusWord
  let within : Bool :=
    match config.modexpMaxInputLen with
    | some maxInputLen => modexpLengthsWithinLimit baseLen exponentLen modulusLen maxInputLen
    | none => true
  if within = false then return emptyResult .outOfGas
  else
    orOutOfGas (checkedAdd 96 baseLen) fun exponentOffset => do
      let exponentHead ← modexpExponentHead call.inputData exponentOffset exponentLen
      orOutOfGas (modexpGas config baseLen exponentLen modulusLen exponentHead) fun cost =>
        charge call.gas cost
          (modexpCharged host call.inputData baseLen exponentLen modulusLen)

end EvmZig.Precompile
