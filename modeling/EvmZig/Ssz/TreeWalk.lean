import EvmZig.Lib.PerfectTree
import EvmZig.Primitives
import EvmZig.Zig.Unsigned
import Mathlib.Data.Nat.Log
import Mathlib.Tactic.Ring

/-!
# Sparse SSZ tree traversal (`pkg/ssz/src/merkle/tree.zig`)

The walker hashes the chunks of a source up to the depth of a schema capacity
and reports the nodes in post-order.  Subtrees past the last chunk come from a
table of zero roots and its extension, also where indices leave `usize`.
-/

set_option autoImplicit false

namespace EvmZig.Ssz

open Zig Lib

abbrev Root : Type := Hash

theorem length_zeros : (List.replicate 32 (0 : UInt8)).length = 32 := rfl

def zero : Root := ⟨List.replicate 32 0, length_zeros⟩

inductive Direction
  | left
  | right
  deriving DecidableEq

/-- `TreePath`: the directions from a node back to the root. -/
abbrev TreePath : Type := List Direction

def TreePath.child (self : TreePath) (direction : Direction) : TreePath := direction :: self

inductive NodeKind
  | leaf
  | branch
  | zeroSubtree (depth : Nat)
  deriving DecidableEq

structure TreeNode where
  root : Root
  kind : NodeKind

/-- The members of `Error` that the walker returns. -/
inductive SszError
  | listLimitExceeded
  | encodedLengthOverflow
  deriving DecidableEq

/-- A hash provider and a visitor, beside the stored table of zero roots, which
is that of SHA-256 under every provider; `codec` puts an SSZ error into the error
set of the walk. -/
structure TreeWalker (σ ε : Type) where
  hash64 : List UInt8 → Root
  zeroRoots : List Root
  visit : TreePath → TreeNode → Action σ ε Unit
  codec : SszError → ε

/-- Leaves produced on demand. -/
structure Source (σ ε : Type) where
  count : Action σ ε Nat
  leaf : Nat → TreePath → Action σ ε Root

section Hashing

variable (hash64 : List UInt8 → Root)

def hashPair (left right : Root) : Root := hash64 (left.val ++ right.val)

/-- The table of `tools/generate-zero-roots.zig`, root by root. -/
def generateZeroRoots : (count : Nat) → List Root
  | 0 => [zero]
  | count + 1 =>
      let roots := generateZeroRoots count
      let previous := roots.getLastD zero
      roots ++ [hashPair hash64 previous previous]

/-- The last depth of the table, of `precomputed_zero_root_count` entries. -/
@[irreducible] def lastZeroRoot : Nat := 255

/-- `ZeroHashes`. -/
structure ZeroHashes where
  extensionRoot : Root
  extensionDepth : Nat

namespace ZeroHashes

variable (zeroRoots : List Root)

def init : ZeroHashes where
  extensionRoot := zeroRoots.getLastD zero
  extensionDepth := zeroRoots.length - 1

/-- `at`; the extension only grows. -/
def rootAt (self : ZeroHashes) (depth : Nat) : Root × ZeroHashes :=
  match zeroRoots[depth]? with
  | some root => (root, self)
  | none =>
      if depth < self.extensionDepth then
        ((fun root => hashPair hash64 root root)^[depth - (zeroRoots.length - 1)]
          (zeroRoots.getLastD zero), self)
      else
        let extended := (fun root => hashPair hash64 root root)^[depth - self.extensionDepth]
          self.extensionRoot
        (extended, ⟨extended, depth⟩)

end ZeroHashes

end Hashing

/-- `declaredTreeDepth`: how often `capacity - 1` is shifted until it is zero. -/
def shiftDepth (remaining : Nat) : Nat :=
  if remaining = 0 then 0 else shiftDepth (remaining >>> 1) + 1
  termination_by remaining
  decreasing_by
    rw [Nat.shiftRight_one]
    omega

def declaredTreeDepth (capacity : Nat) : Nat :=
  if capacity ≤ 1 then 0 else shiftDepth (capacity - 1)

/-- `schema_limit.exceededBy`. -/
def exceededBy (actual limit : Nat) : Bool :=
  if limit > usizeMax then false else decide (actual > limit)

namespace TreeWalker

variable {σ ε : Type} (self : TreeWalker σ ε)

def leaf (path : TreePath) (root : Root) : Action σ ε Root := do
  self.visit path ⟨root, .leaf⟩
  return root

def zeroSubtree (path : TreePath) (depth : Nat) (root : Root) : Action σ ε Root := do
  self.visit path ⟨root, .zeroSubtree depth⟩
  return root

def branch (path : TreePath) (left right : Root) : Action σ ε Root := do
  let root := hashPair self.hash64 left right
  self.visit path ⟨root, .branch⟩
  return root

/-- The zero subtree of a depth, and the table after it was asked. -/
def blank (zeroHashes : ZeroHashes) (path : TreePath) (depth : Nat) :
    Action σ ε (Root × ZeroHashes) := do
  let answer := zeroHashes.rootAt self.hash64 self.zeroRoots depth
  let root ← self.zeroSubtree path depth answer.1
  return (root, answer.2)

/-- Where the right half of a subtree starts, unless that leaves `usize`. -/
def rightStart (start childDepth : Nat) : Option Nat :=
  if childDepth ≥ 64 then none else addChecked 64 start (2 ^ childDepth)

def merkleizeSourceDepthInto (source : Source σ ε) (count : Nat) :
    (depth start : Nat) → ZeroHashes → TreePath → Action σ ε (Root × ZeroHashes)
  | 0, start, zeroHashes, path =>
      if start ≥ count then self.blank zeroHashes path 0
      else do
        let root ← source.leaf start path
        return (root, zeroHashes)
  | childDepth + 1, start, zeroHashes, path =>
      if start ≥ count then self.blank zeroHashes path (childDepth + 1)
      else do
        let left ← merkleizeSourceDepthInto source count childDepth start zeroHashes
          (path.child .left)
        let right ←
          (match rightStart start childDepth with
          | none => self.blank left.2 (path.child .right) childDepth
          | some rightStart =>
              merkleizeSourceDepthInto source count childDepth rightStart left.2
                (path.child .right))
        let root ← self.branch path left.1 right.1
        return (root, right.2)

def merkleizeSourceAtDepth (source : Source σ ε) (count depth : Nat) (path : TreePath) :
    Action σ ε Root := do
  let walked ← self.merkleizeSourceDepthInto source count depth 0 (.init self.zeroRoots) path
  return walked.1

def merkleizeSource (source : Source σ ε) (limit : Nat) (path : TreePath) : Action σ ε Root := do
  let count ← source.count
  if exceededBy count limit then Action.fail (self.codec .listLimitExceeded)
  else self.merkleizeSourceAtDepth source count (declaredTreeDepth limit) path

/-- One group of `numLeaves` leaves and the groups after it; the groups grow by
four until their size leaves `usize`, so `groups` bounds them all. -/
def merkleizeProgressiveSourceRangeInto (source : Source σ ε) (count : Nat) :
    (groups start numLeaves : Nat) → ZeroHashes → TreePath → Action σ ε Root
  | 0, _, _, _, _ => Action.illegal
  | groups + 1, start, numLeaves, zeroHashes, path =>
      if start ≥ count then self.zeroSubtree path 0 zero
      else do
        -- `treeDepth`
        Action.assert fun _ => 2 ^ Nat.log 2 numLeaves = numLeaves
        let left ← self.merkleizeSourceDepthInto source count (Nat.log 2 numLeaves) start zeroHashes
          (path.child .left)
        match addChecked 64 start numLeaves with
        | none => Action.fail (self.codec .encodedLengthOverflow)
        | some nextStart => do
            let right ←
              (if nextStart ≥ count then self.zeroSubtree (path.child .right) 0 zero
              else
                match mulChecked 64 numLeaves 4 with
                | none => Action.fail (self.codec .encodedLengthOverflow)
                | some nextLeaves =>
                    merkleizeProgressiveSourceRangeInto source count groups nextStart nextLeaves
                      left.2 (path.child .right))
            self.branch path left.1 right

def merkleizeProgressiveSource (source : Source σ ε) (path : TreePath) : Action σ ε Root := do
  let count ← source.count
  self.merkleizeProgressiveSourceRangeInto source count 33 0 1 (.init self.zeroRoots) path

/-- `RootSource` behind its `SourceAdapter`. -/
def rootSource (chunks : List Root) : Source σ ε where
  count := return chunks.length
  leaf index path :=
    match chunks[index]? with
    | some root => self.leaf path root
    | none => Action.illegal

end TreeWalker

/-! ## Zero roots -/

section ZeroRoots

variable {hash64 : List UInt8 → Root}

theorem generateZeroRoots_last (count : Nat) :
    (generateZeroRoots hash64 count).getLastD zero = blankRoot (hashPair hash64) zero count := by
  induction count with
  | zero => rfl
  | succ count ih =>
      rw [generateZeroRoots, List.getLastD_concat, ih, blankRoot]

theorem generateZeroRoots_length (count : Nat) :
    (generateZeroRoots hash64 count).length = count + 1 := by
  induction count with
  | zero => rfl
  | succ count ih => rw [generateZeroRoots, List.length_append, ih, List.length_singleton]

theorem generateZeroRoots_getElem {count depth : Nat} (inside : depth ≤ count) :
    (generateZeroRoots hash64 count)[depth]? = some (blankRoot (hashPair hash64) zero depth) := by
  induction count with
  | zero =>
      obtain rfl := Nat.le_zero.mp inside
      rfl
  | succ count ih =>
      rw [generateZeroRoots]
      by_cases below : depth ≤ count
      · rw [List.getElem?_append_left (by rw [generateZeroRoots_length]; omega), ih below]
      · obtain rfl : depth = count + 1 := by omega
        rw [List.getElem?_append_right (by rw [generateZeroRoots_length]),
          generateZeroRoots_length, Nat.sub_self, generateZeroRoots_last]
        rfl

/-- The extension is the zero root of its depth. -/
def ZeroHashes.Sound (hash64 : List UInt8 → Root) (hashes : ZeroHashes) : Prop :=
  hashes.extensionRoot = blankRoot (hashPair hash64) zero hashes.extensionDepth

section Generated

variable {zeroRoots : List Root} (generated : zeroRoots = generateZeroRoots hash64 lastZeroRoot)

include generated

theorem generated_last : zeroRoots.length - 1 = lastZeroRoot := by
  rw [generated, generateZeroRoots_length, Nat.add_sub_cancel]

theorem generated_root :
    zeroRoots.getLastD zero = blankRoot (hashPair hash64) zero lastZeroRoot := by
  rw [generated, generateZeroRoots_last]

theorem ZeroHashes.init_sound : (ZeroHashes.init zeroRoots).Sound hash64 := by
  rw [Sound, init, generated_root generated, generated_last generated]

theorem ZeroHashes.Sound.rootAt {hashes : ZeroHashes} (sound : hashes.Sound hash64) (depth : Nat) :
    (hashes.rootAt hash64 zeroRoots depth).1 = blankRoot (hashPair hash64) zero depth ∧
      (hashes.rootAt hash64 zeroRoots depth).2.Sound hash64 := by
  have last := generated_last generated
  have lastRoot := generated_root generated
  unfold ZeroHashes.rootAt
  by_cases tabled : depth ≤ lastZeroRoot
  · rw [generated, generateZeroRoots_getElem tabled]
    exact ⟨rfl, sound⟩
  · have past : zeroRoots[depth]? = none := by
      rw [List.getElem?_eq_none_iff, generated, generateZeroRoots_length]
      omega
    rw [past]
    dsimp only
    split
    · refine ⟨?_, sound⟩
      rw [last, lastRoot, blankRoot_iterate, Nat.add_sub_cancel' (by omega)]
    · have extended : (fun root => hashPair hash64 root root)^[depth - hashes.extensionDepth]
          hashes.extensionRoot = blankRoot (hashPair hash64) zero depth := by
        rw [sound, blankRoot_iterate, Nat.add_sub_cancel' (by omega)]
      exact ⟨extended, extended⟩

end Generated

end ZeroRoots

end EvmZig.Ssz
