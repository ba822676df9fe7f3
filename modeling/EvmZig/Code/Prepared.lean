import EvmZig.Code.JumpDests
import EvmZig.Primitives

/-!
# Prepared code (`src/prepared_code/Execution.zig`, `src/prepared_code/Backend.zig`)

An execution resolves code to a prepared view through a memo of two, the lane of
its backend by index, a map of its own, and the lane of its backend by hash.
The backend is a service of the embedding, over a state of its own.
-/

set_option autoImplicit false

namespace EvmZig.Code

open Zig

/-! ## Bytecode -/

/-- `Bytecode.View`, with the storage it points to. -/
structure View where
  bytes : List UInt8
  jumpdestMasks : List Mask
  deriving DecidableEq, Repr

def View.empty : View := ⟨[], []⟩

inductive ResolveError where
  | codeHashMismatch
  | preparedCodeCapacityExceeded
  deriving DecidableEq, Repr

/-- The allocations of one resolution that succeed. -/
structure Grants where
  readBytes : Bool
  masks : Bool
  ownedEntry : Bool
  transientEntry : Bool

def zeroPaddingLen : Nat := 33

/-- `scanner.markJumpDests`, with the block scan on targets that have it. -/
def markJumpDests (blockScan : Option Arch) (masks : List Mask) (bytes : List UInt8) :
    Option (List Mask) :=
  match blockScan with
  | some arch => markJumpDestBlocks arch masks bytes
  | none => markJumpDestWords masks bytes

/-- `JumpDestMap.analyze` of a fresh map. -/
def analyze (blockScan : Option Arch) (granted : Bool) (bytes : List UInt8) :
    Checked ResolveError (List Mask) :=
  if bytes = [] then .ok []
  else if granted then
    Checked.ofOption
      (markJumpDests blockScan (List.replicate ((bytes.length + 63) / 64) 0#64) bytes)
  else .fail .preparedCodeCapacityExceeded

/-- `Bytecode.init`, whose only error is mapped by `prepareTransient`. -/
def initBytecode (blockScan : Option Arch) (grants : Grants) (bytes : List UInt8) :
    Checked ResolveError View :=
  if usizeMax < bytes.length + zeroPaddingLen then .fail .preparedCodeCapacityExceeded
  else if grants.readBytes then do
    let masks ← analyze blockScan grants.masks bytes
    return { bytes, jumpdestMasks := masks }
  else .fail .preparedCodeCapacityExceeded

/-! ## The backend -/

/-- What a fallible backend function answers. -/
inductive Answer where
  | returned (view : Option View)
  | codeHashMismatch
  | failed

/-- The vtable; the indexed lane is optional. -/
structure Backend (σ : Type) where
  lookup : Hash → σ → Answer × σ
  admitHashed : Hash → List UInt8 → σ → Answer × σ
  lookupIndexed : Option (Nat → Hash → σ → Option View × σ)
  admitIndexed : Option (Nat → Hash → List UInt8 → σ → Answer × σ)

/-! ## The execution -/

def maxIndex : Nat := 2 ^ 32 - 1 - 2

structure MemoEntry where
  hash : Hash
  view : View

/-- An execution with the state of its backend.  A memo entry is absent while `memo_valid` is
false. -/
structure Execution (σ : Type) where
  backend : σ
  transientEntries : List MemoEntry
  memo0 : Option MemoEntry
  memo1 : Option MemoEntry
  memoVictim : Bool

structure ResolveCall where
  codeHash : Hash
  rawCode : List UInt8
  index : Nat
  admits : Bool
  grants : Grants

section

variable {σ : Type}

/-- `catch |err| switch (err) { error.CodeHashMismatch => return err, else => null }`. -/
def admission (execution : Execution σ) : Answer × σ → Outcome (Execution σ) ResolveError (Option View)
  | (.returned view, state) => .ok view { execution with backend := state }
  | (.codeHashMismatch, state) => .fail .codeHashMismatch { execution with backend := state }
  | (.failed, state) => .ok none { execution with backend := state }

/-- The indexed lane of the backend. -/
def resolveIndexed (backend : Backend σ) (call : ResolveCall) :
    Action (Execution σ) ResolveError (Option View) := fun execution =>
  if call.index ≤ maxIndex then
    match backend.lookupIndexed, backend.admitIndexed with
    | some lookup, some adding =>
        match lookup call.index call.codeHash execution.backend with
        | (some view, state) => .ok (some view) { execution with backend := state }
        | (none, state) =>
            if call.admits then
              admission execution (adding call.index call.codeHash call.rawCode state)
            else .ok none { execution with backend := state }
    | _, _ => .ok none execution
  else .ok none execution

/-- The lane of the backend by hash. -/
def resolveHashed (backend : Backend σ) (call : ResolveCall) :
    Action (Execution σ) ResolveError (Option View) := fun execution =>
  match backend.lookup call.codeHash execution.backend with
  | (.returned (some view), state) => .ok (some view) { execution with backend := state }
  | (_, state) =>
      if call.admits then admission execution (backend.admitHashed call.codeHash call.rawCode state)
      else .ok none { execution with backend := state }

def transientGet (execution : Execution σ) (hash : Hash) : Option View :=
  (execution.transientEntries.find? fun entry => entry.hash = hash).map MemoEntry.view

/-- `prepareTransient`, and the entry it leaves if there is room. -/
def resolveTransient (blockScan : Option Arch) (call : ResolveCall) :
    Action (Execution σ) ResolveError View := fun execution =>
  match initBytecode blockScan call.grants call.rawCode with
  | .illegal => .illegal
  | .fail error => .fail error execution
  | .ok view =>
      if call.grants.ownedEntry then
        if call.grants.transientEntry then
          -- `putNoClobber`
          if (transientGet execution call.codeHash).isSome then .illegal
          else .ok view { execution with
            transientEntries := ⟨call.codeHash, view⟩ :: execution.transientEntries }
        else .ok view execution
      else .fail .preparedCodeCapacityExceeded execution

/-- A lane that gives nothing goes on to the next. -/
def orNext (lane : Action (Execution σ) ResolveError (Option View))
    (next : Action (Execution σ) ResolveError View) : Action (Execution σ) ResolveError View := do
  match ← lane with
  | some view => return view
  | none => next

/-- `if (self.backend) |backend|`. -/
def onBackend (backend : Option (Backend σ))
    (lane : Backend σ → Action (Execution σ) ResolveError (Option View)) :
    Action (Execution σ) ResolveError (Option View) :=
  match backend with
  | some backend => lane backend
  | none => pure none

def resolveUncached (blockScan : Option Arch) (backend : Option (Backend σ)) (call : ResolveCall) :
    Action (Execution σ) ResolveError View :=
  orNext (onBackend backend fun backend => resolveIndexed backend call)
    (orNext (Action.read fun execution => transientGet execution call.codeHash)
      (orNext (onBackend backend fun backend => resolveHashed backend call)
        (resolveTransient blockScan call)))

def memoGet (execution : Execution σ) (hash : Hash) : Option View :=
  match execution.memo0, execution.memo1 with
  | some first, some second =>
      if first.hash = hash then some first.view
      else if second.hash = hash then some second.view else none
  | some first, none => if first.hash = hash then some first.view else none
  | none, some second => if second.hash = hash then some second.view else none
  | none, none => none

/-- The victim is overwritten, and the other becomes the victim. -/
def memoPut (entry : MemoEntry) (execution : Execution σ) : Execution σ :=
  if execution.memoVictim then
    { execution with memo1 := some entry, memoVictim := false }
  else
    { execution with memo0 := some entry, memoVictim := true }

def resolve (blockScan : Option Arch) (backend : Option (Backend σ)) (call : ResolveCall) :
    Action (Execution σ) ResolveError View := fun execution =>
  if call.rawCode = [] then .ok .empty execution
  else
    match memoGet execution call.codeHash with
    | some view => .ok view execution
    | none =>
        match resolveUncached blockScan backend call execution with
        | .ok view after => .ok view (memoPut ⟨call.codeHash, view⟩ after)
        | .fail error after => .fail error after
        | .illegal => .illegal

/-- The results of calls one after another. -/
def resolveAll (blockScan : Option Arch) (backend : Option (Backend σ)) :
    List ResolveCall → Execution σ → Option (List (ResolveCall × Except ResolveError View))
  | [], _ => some []
  | call :: rest, execution =>
      match resolve blockScan backend call execution with
      | .ok view after => do
          let results ← resolveAll blockScan backend rest after
          return (call, .ok view) :: results
      | .fail error after => do
          let results ← resolveAll blockScan backend rest after
          return (call, .error error) :: results
      | .illegal => none

/-- `init`; the map and the memo are empty. -/
def initExecution (state : σ) : Execution σ :=
  { backend := state, transientEntries := [], memo0 := none, memo1 := none, memoVictim := false }

end

end EvmZig.Code
