import EvmZig.Mpt.Nibble
import EvmZig.Primitives

/-!
# Trie nodes (`pkg/mpt/src/node.zig`)

Three decoders read one grammar: `decode` makes every child of a branch,
`decodeForLookup` the one a key selects, and `decodeForCatalog` the spans the
children take up in the encoded node.
-/

set_option autoImplicit false

namespace EvmZig.Mpt

open Zig

/-- Reference to a child node: absent, inline, or by hash. -/
inductive Reference where
  | empty
  | embedded (child : Slice)
  | hashed (digest : Hash)
  deriving DecidableEq

/-- `Node.Leaf`. -/
structure Leaf where
  path : CompactPath
  value : Slice
  deriving DecidableEq

/-- `Node.Extension`. -/
structure Extension where
  path : CompactPath
  child : Reference
  deriving DecidableEq

/-- `Node.Branch`, whose children are sixteen. -/
structure Branch where
  children : List Reference
  value : Option Slice
  deriving DecidableEq

inductive Node where
  | leaf (leaf : Leaf)
  | extension (extension : Extension)
  | branch (branch : Branch)
  deriving DecidableEq

/-- `CatalogReference.Kind`. -/
inductive CatalogKind where
  | empty
  | embedded
  | hashed
  deriving DecidableEq

structure CatalogReference where
  offset : Nat
  len : Nat
  kind : CatalogKind
  deriving DecidableEq

structure CatalogBranch where
  children : List CatalogReference
  value : Option Slice
  deriving DecidableEq

inductive CatalogNode where
  | leaf (leaf : Leaf)
  | extension (extension : Extension)
  | branch (branch : CatalogBranch)
  deriving DecidableEq

/-! ## Fields -/

/-- An RLP call on its own: `try`. -/
def parse {α : Type} : Checked Rlp.ParseError α → Checked CodecError α
  | .ok value => .ok value
  | .fail error => .fail (.parse error)
  | .illegal => .illegal

/-- `catch return error.InvalidNode`. -/
def orInvalidNode {α : Type} : Checked Rlp.ParseError α → Checked CodecError α
  | .ok value => .ok value
  | .fail _ => .fail .invalidNode
  | .illegal => .illegal

/-- `try fields.next()`: the item and the cursor past it. -/
def nextField (fields : Rlp.Cursor) : Checked CodecError (Rlp.Item × Rlp.Cursor) :=
  match Rlp.Cursor.next fields with
  | .ok item after => .ok (item, after)
  | .fail error _ => .fail (.parse error)
  | .illegal => .illegal

/-- The fields that are left, at most `room` of them. -/
def collectFields : Nat → Rlp.Cursor → Checked CodecError (List Rlp.Item)
  | room, fields =>
      if fields.isDone then .ok []
      else
        match room with
        | 0 => .fail .invalidNode
        | room + 1 => do
            let (item, fields) ← nextField fields
            return item :: (← collectFields room fields)

/-! ## References -/

def hasReference : Rlp.Item → Checked CodecError Bool
  | .list span => if 32 ≤ span.encoded.len then .fail .invalidNodeReference else .ok true
  | .bytes span =>
      if span.payload.len = 0 then .ok false
      else if span.payload.len = 32 then .ok true
      else .fail .invalidNodeReference

def decodeReference : Rlp.Item → Checked CodecError Reference
  | .list span =>
      if 32 ≤ span.encoded.len then .fail .invalidNodeReference else .ok (.embedded span.encoded)
  | .bytes span =>
      if span.payload.len = 0 then .ok .empty
      else if exact : span.payload.len = 32 then .ok (.hashed ⟨span.payload.bytes, exact⟩)
      else .fail .invalidNodeReference

/-! ## The full and the lookup decoder -/

inductive BranchMode where
  | full
  | none
  | selected (index : Nat)
  deriving DecidableEq

def BranchMode.materializes : BranchMode → Nat → Bool
  | .full, _ => true
  | .none, _ => false
  | .selected chosen, index => index == chosen

/-- The mode of a lookup that selects a child, or none. -/
def BranchMode.ofSelected : Option Nat → BranchMode
  | .some index => .selected index
  | .none => .none

/-- The loop of `decodeBranch` from a child on: the children, and how many are there. -/
def decodeChildren (mode : BranchMode) :
    Nat → List Rlp.Item → Checked CodecError (List Reference × Nat)
  | _, [] => .ok ([], 0)
  | index, item :: rest =>
      if mode.materializes index then do
        let child ← decodeReference item
        let (children, occupied) ← decodeChildren mode (index + 1) rest
        return (child :: children, occupied + if child = .empty then 0 else 1)
      else do
        let filled ← hasReference item
        let (children, occupied) ← decodeChildren mode (index + 1) rest
        return (.empty :: children, occupied + if filled then 1 else 0)

/-- The end of both branch decoders: the value, and the count of what is there. -/
def branchValue (value : Slice) (occupied : Nat) : Checked CodecError (Option Slice) :=
  if value.len = 0 then
    if occupied < 2 then .fail .nonCanonicalNode else .ok none
  else
    if occupied + 1 < 2 then .fail .nonCanonicalNode else .ok (some value)

def decodeBranch (mode : BranchMode) (items : List Rlp.Item) : Checked CodecError Node := do
  let (children, occupied) ← decodeChildren mode 0 (items.take 16)
  let last ← (liftM items[16]? : Checked CodecError Rlp.Item)
  let value ← branchValue (← orInvalidNode last.asBytes) occupied
  return .branch { children, value }

/-- `decodeShort`, whose result is never a branch. -/
def decodeShort (compactItem valueOrReference : Rlp.Item) : Checked CodecError (Leaf ⊕ Extension) := do
  let compact ← orInvalidNode compactItem.asBytes
  let path ← CompactPath.decode compact
  if path.terminal then
    let value ← orInvalidNode valueOrReference.asBytes
    if value.len = 0 then Checked.fail .nonCanonicalNode
    else return .inl { path, value }
  else if path.len = 0 then Checked.fail .nonCanonicalNode
  else
    let child ← decodeReference valueOrReference
    if child = .empty then Checked.fail .invalidNodeReference
    else return .inr { path, child }

def decodeFields (requireBranch : Bool) (mode : BranchMode) (items : List Rlp.Item) :
    Checked CodecError Node :=
  if requireBranch ∧ items.length ≠ 17 then .fail .nonCanonicalNode
  else
    match items with
    | [first, second] => do
        match ← decodeShort first second with
        | .inl leaf => return .leaf leaf
        | .inr extension => return .extension extension
    | items => if items.length = 17 then decodeBranch mode items else .fail .invalidNode

def decodeWithBranchMode (encoded : Slice) (requireBranch : Bool) (mode : BranchMode) :
    Checked CodecError Node := do
  let item ← parse (Rlp.parseExact encoded)
  let fields ← orInvalidNode item.listCursor
  decodeFields requireBranch mode (← collectFields 17 fields)

/-- Decode one RLP-encoded node. -/
def decode (encoded : Slice) (requireBranch : Bool) : Checked CodecError Node :=
  decodeWithBranchMode encoded requireBranch .full

/-- Decode one node for a single proof path. -/
def decodeForLookup (encoded : Slice) (requireBranch : Bool) (selectedChild : Option Nat) :
    Checked CodecError Node :=
  decodeWithBranchMode encoded requireBranch (.ofSelected selectedChild)

/-! ## The catalog decoder -/

/-- `catalogOffset` of a span that starts `offset` bytes into the encoded node. -/
def catalogOffset (encoded : Slice) (offset : Nat) (span : Slice) : Checked CodecError Nat :=
  if encoded.len < offset ∨ encoded.len - offset < span.len then .fail .invalidNode
  else
    match castChecked 32 offset with
    | none => .fail .invalidNode
    | some offset => .ok offset

/-- `decodeCatalogReference` of an item that ends `stop` bytes into the encoded node. -/
def decodeCatalogReference (encoded : Slice) (stop : Nat) (item : Rlp.Item) :
    Checked CodecError CatalogReference := do
  match ← decodeReference item with
  | .empty => return { offset := 0, len := 0, kind := .empty }
  | .embedded child =>
      return { offset := ← catalogOffset encoded (stop - child.len) child, len := child.len,
               kind := .embedded }
  | .hashed _ =>
      return { offset := ← catalogOffset encoded (stop - 32) item.payload, len := 32, kind := .hashed }

/-- `nextCatalogReference`; the fields begin `base` bytes into the encoded node. -/
def nextCatalogReference (encoded : Slice) (base : Nat) (fields : Rlp.Cursor) :
    Checked CodecError (CatalogReference × Rlp.Cursor) := do
  let remaining ← (liftM (fields.input.sub fields.offset fields.input.len) : Checked CodecError Slice)
  match remaining.bytes with
  | [] => Checked.fail (.parse .inputTooShort)
  | 0x80 :: _ =>
      return ({ offset := 0, len := 0, kind := .empty }, { fields with offset := fields.offset + 1 })
  | 0xa0 :: _ =>
      if remaining.len < 33 then Checked.fail (.parse .inputTooShort)
      else
        let digest ← (liftM (remaining.sub 1 33) : Checked CodecError Slice)
        let offset ← catalogOffset encoded (base + fields.offset + 1) digest
        return ({ offset, len := 32, kind := .hashed }, { fields with offset := fields.offset + 33 })
  | _ :: _ => do
      let (item, fields) ← nextField fields
      return (← decodeCatalogReference encoded (base + fields.offset) item, fields)

/-- The loop of `decodeForCatalog` over the children that are left. -/
def catalogChildren (encoded : Slice) (base : Nat) :
    Nat → Rlp.Cursor → Checked CodecError ((List CatalogReference × Nat) × Rlp.Cursor)
  | 0, fields => .ok (([], 0), fields)
  | left + 1, fields =>
      if fields.isDone then .fail .invalidNode
      else do
        let (child, fields) ← nextCatalogReference encoded base fields
        let ((children, occupied), fields) ← catalogChildren encoded base left fields
        return ((child :: children, occupied + if child.kind = .empty then 0 else 1), fields)

/-- Decode short nodes normally while compacting branch references. -/
def decodeForCatalog (encoded : Slice) : Checked CodecError CatalogNode := do
  let item ← parse (Rlp.parseExact encoded)
  let fields ← orInvalidNode item.listCursor
  let base := encoded.len - item.payload.len
  if fields.isDone then Checked.fail .invalidNode
  else
    let (first, fields) ← nextField fields
    let firstStop := base + fields.offset
    if fields.isDone then Checked.fail .invalidNode
    else
      let (second, fields) ← nextField fields
      let secondStop := base + fields.offset
      if fields.isDone then
        match ← decodeShort first second with
        | .inl leaf => return .leaf leaf
        | .inr extension => return .extension extension
      else
        let child0 ← decodeCatalogReference encoded firstStop first
        let child1 ← decodeCatalogReference encoded secondStop second
        let ((children, occupied), fields) ← catalogChildren encoded base 14 fields
        if fields.isDone then Checked.fail .invalidNode
        else
          let (last, fields) ← nextField fields
          let value ← orInvalidNode last.asBytes
          if ¬ fields.isDone then Checked.fail .invalidNode
          else
            let value ← branchValue value
              (occupied + (if child0.kind = .empty then 0 else 1) + if child1.kind =
                .empty then 0 else 1)
            return .branch { children := child0 :: child1 :: children, value }

end EvmZig.Mpt
