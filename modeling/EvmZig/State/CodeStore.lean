import EvmZig.State.Types
import EvmZig.Zig.Slice

/-!
# Code store (`src/eth/bal/claim_artifacts.zig`)

Parent code is sorted by hash and searched; introduced code is a dense table in
order of introduction.  One index space covers both, parent code first.
-/

set_option autoImplicit false

namespace EvmZig.State

open Lib Zig

structure ParentCode where
  hash : CodeHash
  bytes : Bytes
  deriving DecidableEq

structure CodeStore where
  parent : List ParentCode
  introduced : Table CodeHash Bytes

namespace CodeStore

/-- The loop of `std.sort.binarySearch` over `low..high`. -/
def binarySearch (items : List ParentCode) (target : CodeHash) : Nat → Nat → Nat → Option Nat
  | 0, _, _ => none
  | fuel + 1, low, high =>
      if low < high then
        let mid := low + (high - low) / 2
        match items[mid]? with
        | none => none
        | some item =>
            match memOrder target.val item.hash.val with
            | .eq => some mid
            | .gt => binarySearch items target fuel (mid + 1) high
            | .lt => binarySearch items target fuel low mid
      else none

/-- `parentIndex`; each round of the search shrinks the range. -/
def parentIndex (self : CodeStore) (hash : CodeHash) : Option Nat :=
  binarySearch self.parent hash (self.parent.length + 1) 0 self.parent.length

def introducedLen (self : CodeStore) : Nat := self.introduced.count

def bind (self : CodeStore) (hash : CodeHash) : CodeRef :=
  if hash = keccak256Empty then .empty
  else
    match self.parentIndex hash with
    | some index => .index index
    | none =>
        match self.introduced.find hash with
        | some id => .index (self.parent.length + id)
        | none => .missing

def bindParent (self : CodeStore) (hash : CodeHash) : Option CodeRef :=
  if hash = keccak256Empty then some .empty
  else (self.parentIndex hash).map .index

def introducedEntry (self : CodeStore) (id : Nat) : Option ParentCode := do
  let hash ← self.introduced.key id
  let bytes ← self.introduced.row id
  return { hash, bytes }

/-- `view`: an index outside both lists is illegal. -/
def view (self : CodeStore) (ref : CodeRef) : Option (Option CodeView) :=
  match ref with
  | .empty => some (some { codeHash := keccak256Empty, bytes := [], ref := .empty })
  | .missing => some none
  | .index index => do
      let entry ←
        if index < self.parent.length then self.parent[index]?
        else self.introducedEntry (index - self.parent.length)
      return some { codeHash := entry.hash, bytes := entry.bytes, ref }

def lookup (self : CodeStore) (hash : CodeHash) : Option (Option CodeView) :=
  self.view (self.bind hash)

/-- `truncateIntroduced` once its assertion passed. -/
def truncateIntroduced (self : CodeStore) (len : Nat) : CodeStore :=
  { self with introduced := self.introduced.truncate len }

structure CacheResult where
  view : CodeView
  ref : CodeRef
  newlyIntroduced : Option Nat

/-- The branches of `cacheIntroduced` that leave the store alone, or the fresh hash. -/
inductive Lookahead where
  | known (result : CacheResult)
  | collision
  | fresh (hash : CodeHash)

def lookahead (self : CodeStore) (keccak256 : Bytes → CodeHash) (bytes : Bytes) :
    Option Lookahead :=
  if bytes.length = 0 then
    some (.known {
      view := { codeHash := keccak256Empty, bytes := [], ref := .empty }
      ref := .empty
      newlyIntroduced := none })
  else
    let hash := keccak256 bytes
    let existingRef := self.bind hash
    match self.view existingRef with
    | none => none
    | some (some existing) =>
        if existing.bytes = bytes then
          some (.known { view := existing, ref := existingRef, newlyIntroduced := none })
        else some .collision
    | some none => some (.fresh hash)

end CodeStore

end EvmZig.State
