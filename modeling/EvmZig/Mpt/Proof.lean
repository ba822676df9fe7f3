import EvmZig.Mpt.Node

/-!
# Witness-backed proof reads (`pkg/mpt/src/proof.zig`)

A sealed index finds encoded nodes by their hashes, and a lookup walks from a
root along the nibbles of a key.  A lookup cache keeps decoded nodes by their
place in the index, for as long as it is used with that index.
-/

set_option autoImplicit false

namespace EvmZig.Mpt

open Zig

inductive LookupError where
  | codec (error : CodecError)
  | missingNode
  | resourceLimitExceeded
  | outOfMemory
  deriving DecidableEq, Repr

/-- Why a key resolved to no value during a lookup. -/
inductive Absence where
  | emptyTrie
  | missingBranchChild
  | emptyBranchValue
  | divergentPath
  deriving DecidableEq, Repr

inductive Lookup where
  | present (value : Slice)
  | absent (reason : Absence)
  deriving DecidableEq

/-- `hash.empty_root`. -/
def emptyRoot : Hash :=
  ⟨[0x56, 0xe8, 0x1f, 0x17, 0x1b, 0xcc, 0x55, 0xa6, 0xff, 0x83, 0x45, 0xe6, 0x92, 0xc0, 0xf8, 0x6e,
    0x5b, 0x48, 0xe0, 0x1b, 0x99, 0x6c, 0xad, 0xc0, 0x01, 0x62, 0x2f, 0xb5, 0xe3, 0x63, 0xb4, 0x21],
    rfl⟩

/-! ## The index -/

/-- `NodeRecord`, whose key is the digest in words. -/
structure NodeRecord where
  key : Hash
  encoded : Slice
  deriving DecidableEq

structure IndexedNode where
  encoded : Slice
  position : Nat
  deriving DecidableEq

/-- `IndexData`: a table slot holds the place of a record plus one, or zero. -/
structure IndexData where
  records : List NodeRecord
  table : List Nat
  deriving DecidableEq

namespace IndexData

/-- Word 0 of a digest on a little-endian machine. -/
def keyWord (digest : Hash) : Nat :=
  (digest.val.take 8).foldr (fun byte word => byte.toNat + 256 * word) 0

/-- The loop of `find` and `findBorrowed`; undefined where it does not end. -/
def probe (self : IndexData) (digest : Hash) : Nat → Nat → Option (Option IndexedNode)
  | 0, _ => none
  | fuel + 1, slot => do
      match ← self.table[slot]? with
      | 0 => return none
      | position + 1 =>
          let record ← self.records[position]?
          if record.key = digest then return some { encoded := record.encoded, position }
          else probe self digest fuel ((slot + 1) &&& (self.table.length - 1))

/-- The node whose hash equals `digest`. -/
def find (self : IndexData) (digest : Hash) : Option (Option IndexedNode) :=
  if self.table.length = 0 then some none
  else self.probe digest self.table.length (keyWord digest &&& (self.table.length - 1))

end IndexData

/-! ## The cache -/

structure LookupCache where
  /-- The address of the index in use. -/
  index : Option Nat := none
  /-- The place of the decoded node of each record; `none` is `empty_slot`. -/
  slots : List (Option Nat) := []
  entries : List Node := []
  /-- How many allocations were asked for. -/
  requested : Nat := 0
  deriving DecidableEq

namespace LookupCache

/-- Ask for an allocation; `grants` tells which ones succeed. -/
def allocate (grants : Nat → Bool) : Action LookupCache LookupError Unit := fun self =>
  let asked := { self with requested := self.requested + 1 }
  if grants self.requested then .ok () asked else .fail .outOfMemory asked

def prepareIndex (grants : Nat → Bool) (address : Nat) (index : IndexData) :
    Action LookupCache LookupError Unit := fun self =>
  if self.index = some address then .ok () self
  else
    (do
      allocate grants
      Action.modify fun self => { self with
        slots := List.replicate index.records.length none
        entries := []
        index := some address }) self

/-- Widen a codec error. -/
def codec {α : Type} (result : Checked CodecError α) : Checked LookupError α :=
  match result with
  | .ok value => .ok value
  | .fail error => .fail (.codec error)
  | .illegal => .illegal

def isBranch : Node → Bool
  | .branch _ => true
  | _ => false

/-- `LookupCache.decode` once the slots are those of the index. -/
def fetch (grants : Nat → Bool) (position : Nat) (encoded : Slice) (requireBranch : Bool) :
    Action LookupCache LookupError Node := do
  match ← liftM (← Action.read fun self => self.slots[position]?) with
  | some entry =>
      let decoded ← liftM (← Action.read fun self => self.entries[entry]?)
      if requireBranch ∧ ¬ isBranch decoded then Action.fail (.codec .nonCanonicalNode)
      else return decoded
  | none =>
      let decoded ← Action.attempt id (codec (decode encoded requireBranch))
      allocate grants
      Action.modify fun self => { self with
        slots := self.slots.set position (some self.entries.length)
        entries := self.entries ++ [decoded] }
      return decoded

/-- `LookupCache.decode`. -/
def decodeAt (grants : Nat → Bool) (address : Nat) (index : IndexData) (position : Nat)
    (encoded : Slice) (requireBranch : Bool) : Action LookupCache LookupError Node := do
  prepareIndex grants address index
  fetch grants position encoded requireBranch

end LookupCache

/-! ## The walk -/

structure ResolvedReference where
  encoded : Slice
  position : Option Nat
  deriving DecidableEq

/-- `resolveReference`; the inner `none` is `null`. -/
def resolveReference (index : IndexData) : Reference → Checked LookupError (Option ResolvedReference)
  | .empty => .ok none
  | .embedded child => .ok (some { encoded := child, position := none })
  | .hashed digest =>
      match index.find digest with
      | none => .illegal
      | some none => .fail .missingNode
      | some (some indexed) =>
          if indexed.encoded.len < 32 then .fail (.codec .invalidNodeReference)
          else .ok (some { encoded := indexed.encoded, position := some indexed.position })

def resolveRequiredReference (index : IndexData) (reference : Reference) :
    Checked LookupError ResolvedReference := do
  match ← resolveReference index reference with
  | some resolved => return resolved
  | none => Checked.fail (.codec .invalidNodeReference)

/-- The child a key selects at a depth. -/
def selectedChild (key : Slice) (depth : Nat) : Checked LookupError (Option Nat) :=
  if depth < keyNibbleLen key then
    match keyNibbleAt key depth with
    | none => .illegal
    | some nibble => .ok (some nibble.toNat)
  else .ok none

def decodeForPath (encoded : Slice) (requireBranch : Bool) (key : Slice) (depth : Nat) :
    Checked LookupError Node := do
  LookupCache.codec (decodeForLookup encoded requireBranch (← selectedChild key depth))

/-- What a decoded node says of a key: the answer, or where to go on. -/
inductive Advance where
  | done (result : Lookup)
  | next (resolved : ResolvedReference) (depth : Nat) (extensionParent : Bool)
  deriving DecidableEq

/-- The switch on the decoded node. -/
def advance (index : IndexData) (key : Slice) (depth : Nat) : Node → Checked LookupError Advance
  | .leaf decoded => do
      if ← decoded.path.matchesKey key depth then
        if depth + decoded.path.len ≠ keyNibbleLen key then return .done (.absent .divergentPath)
        else return .done (.present decoded.value)
      else return .done (.absent .divergentPath)
  | .extension decoded => do
      if ← decoded.path.matchesKey key depth then
        let resolved ← resolveRequiredReference index decoded.child
        return .next resolved (depth + decoded.path.len) true
      else return .done (.absent .divergentPath)
  | .branch decoded =>
      if depth = keyNibbleLen key then
        match decoded.value with
        | some value => .ok (.done (.present value))
        | none => .ok (.done (.absent .emptyBranchValue))
      else if keyNibbleLen key < depth then .fail (.codec .invalidNode)
      else do
        let nibble ← (liftM (keyNibbleAt key depth) : Checked LookupError UInt8)
        let selected ← (liftM decoded.children[nibble.toNat]? : Checked LookupError Reference)
        match ← resolveReference index selected with
        | none => return .done (.absent .missingBranchChild)
        | some resolved => return .next resolved (depth + 1) false

/-- The node at a reference: from the cache where there is one and the node has a place in the index. -/
def decodeResolved (grants : Nat → Bool) (address : Nat) (index : IndexData) (key : Slice)
    (resolved : ResolvedReference) (depth : Nat) (extensionParent : Bool) :
    Action (Option LookupCache) LookupError Node := fun cache =>
  match cache, resolved.position with
  | some active, some position =>
      match LookupCache.decodeAt grants address index position resolved.encoded extensionParent
        active with
      | .ok decoded after => .ok decoded (some after)
      | .fail error after => .fail error (some after)
      | .illegal => .illegal
  | cache, _ =>
      match decodeForPath resolved.encoded extensionParent key depth with
      | .ok decoded => .ok decoded cache
      | .fail error => .fail error cache
      | .illegal => .illegal

/-- The loop of `lookupWithCache`; the first argument is what is left of `step_capacity`. -/
def walk (grants : Nat → Bool) (address : Nat) (index : IndexData) (key : Slice) :
    Nat → ResolvedReference → Nat → Bool → Action (Option LookupCache) LookupError Lookup
  | 0, _, _, _ => Action.fail .resourceLimitExceeded
  | left + 1, resolved, depth, extensionParent => do
      let decoded ← decodeResolved grants address index key resolved depth extensionParent
      match ← Action.attempt id (advance index key depth decoded) with
      | .done result => return result
      | .next resolved depth extensionParent =>
          walk grants address index key left resolved depth extensionParent

def lookupWithCache (grants : Nat → Bool) (address : Nat) (index : IndexData) (root : Hash)
    (key : Slice) : Action (Option LookupCache) LookupError Lookup :=
  if root = emptyRoot then pure (.absent .emptyTrie)
  else
    match mulChecked 64 key.len 2 with
    | none => Action.fail .resourceLimitExceeded
    | some keyNibbles =>
        match addChecked 64 keyNibbles 1 with
        | none => Action.fail .resourceLimitExceeded
        | some stepCapacity =>
            match index.find root with
            | none => Action.illegal
            | some none => Action.fail .missingNode
            | some (some rootNode) =>
                walk grants address index key stepCapacity
                  { encoded := rootNode.encoded, position := some rootNode.position } 0 false

/-- `WitnessIndex.lookup`. -/
def lookup (index : IndexData) (root : Hash) (key : Slice) : Checked LookupError Lookup :=
  match lookupWithCache (fun _ => true) 0 index root key none with
  | .ok result _ => .ok result
  | .fail .outOfMemory _ => .illegal
  | .fail error _ => .fail error
  | .illegal => .illegal

/-- `WitnessIndex.lookupCached`. -/
def lookupCached (grants : Nat → Bool) (address : Nat) (index : IndexData) (root : Hash)
    (key : Slice) : Action LookupCache LookupError Lookup := fun cache =>
  match lookupWithCache grants address index root key (some cache) with
  | .ok result (some after) => .ok result after
  | .fail error (some after) => .fail error after
  | _ => .illegal

end EvmZig.Mpt
