import EvmZig.State.View
import EvmZig.Zig.Discipline
import EvmZig.Lib.MarkedList

/-!
# What every call keeps

`Inv` is the invariant of a state relative to a point of its journal, and
`Follows` is what a call owes to the scopes around it: unwinding the journal to
that point gives the same cells as before, and every list that a rollback
truncates was only continued.
-/

set_option autoImplicit false

namespace EvmZig.State

open Lib Zig

namespace WorldState

/-! ## Cells -/

section Cells

variable (env : Env)

structure AccountConsistent (clock : Generation) (address : Address) (cell : AccountCell) :
    Prop where
  unchanged : cell.flags.blockChanged = false → cell.current = env.parentAccount address
  unwiped : cell.flags.storageWiped = false → cell.storageIncarnation = 0
  scope : cell.journaledScope ≤ clock
  wiped : cell.wipedTransaction ≤ clock
  dirty : cell.dirtyTransaction ≤ clock

structure SlotConsistent (clock : Generation) (address : Address) (slot : U256)
    (account : AccountCell) (cell : SlotCell) : Prop where
  unchanged : cell.flags.blockDirty = false → account.flags.storageWiped = false →
    cell.current = env.parentStorage address slot ∧ cell.storageIncarnation = 0
  scope : cell.journaledScope ≤ clock
  undo : cell.transactionUndo.transaction ≤ clock

/-- What holds of the cells at any time. -/
structure Consistent (clock : Generation) (cells : Cells) : Prop where
  account : ∀ address, AccountConsistent env clock address (cells (.account address))
  slot : ∀ address slot,
    SlotConsistent env clock address slot (cells (.account address)) (cells (.slot address slot))

/-- A stale slot belongs to an account wiped in the running transaction. -/
structure Settling (transaction : Generation) (cells : Cells) : Prop where
  wiped : ∀ address, (cells (.account address)).wipedTransaction = transaction →
    (cells (.account address)).flags.storageWiped = true
  current : ∀ address slot, (cells (.slot address slot)).flags.blockDirty = true →
    (cells (.slot address slot)).storageIncarnation =
        (cells (.account address)).storageIncarnation ∨
      (cells (.account address)).wipedTransaction = transaction

theorem Consistent.mono {env : Env} {clock clock' : Generation} {cells : Cells}
    (held : Consistent env clock cells) (later : clock ≤ clock') :
    Consistent env clock' cells where
  account address := {
    unchanged := (held.account address).unchanged
    unwiped := (held.account address).unwiped
    scope := (held.account address).scope.trans later
    wiped := (held.account address).wiped.trans later
    dirty := (held.account address).dirty.trans later }
  slot address slot := {
    unchanged := (held.slot address slot).unchanged
    scope := (held.slot address slot).scope.trans later
    undo := (held.slot address slot).undo.trans later }

end Cells

/-! ## Marks -/

section Marks

variable (env : Env)

def accountMark (marked : AccountCell → Bool) (self : WorldState) (id : AccountId) : Bool :=
  ((self.world.accounts.key id).map fun address =>
    marked (self.view env (.account address))).getD false

def slotMark (marked : SlotCell → Bool) (self : WorldState) (id : StorageId) : Bool :=
  ((self.slotOf id).map fun place => marked (self.view env (.slot place.1 place.2))).getD false

def blockChangedMark (cell : AccountCell) : Bool := cell.flags.blockChanged

def storageWipedMark (cell : AccountCell) : Bool := cell.flags.storageWiped

def wipedMark (transaction : Generation) (cell : AccountCell) : Bool :=
  cell.wipedTransaction = transaction

def blockDirtyMark (cell : SlotCell) : Bool := cell.flags.blockDirty

/-- The block lists and the wipe list of the attempt, in step with their marks. -/
structure Lists (state : WorldState) : Prop where
  changes : Tracked (fun id => state.accountMark env blockChangedMark id = true)
    state.blockChangedAccounts state.acceptedLen.blockChangedAccounts
    (state.transactionScopeReverted = true)
  wipes : Tracked (fun id => state.accountMark env storageWipedMark id = true)
    state.blockStorageWipes state.acceptedLen.blockStorageWipes
    (state.transactionScopeReverted = true)
  dirty : Tracked (fun id => state.slotMark env blockDirtyMark id = true)
    state.dirtyStorage state.acceptedLen.dirtyStorage (state.transactionScopeReverted = true)
  transactionWipes : Tracked
    (fun id => state.accountMark env (wipedMark state.lifetime.transaction) id = true)
    state.transactionStorageWipes 0 (state.transactionScopeReverted = true)

end Marks

/-! ## The invariant -/

/-- A handle of the running transaction leads to the record of its own row. -/
structure Handles (state : WorldState) : Prop where
  account : ∀ id row, state.world.accounts.row id = some row →
    row.observation.transaction = state.lifetime.transaction →
    (state.observedAccounts[row.observation.index]?).map (·.account) = some id
  storage : ∀ id row, state.world.storage.row id = some row →
    row.observation.transaction = state.lifetime.transaction →
    (state.observedStorage[row.observation.index]?).map (·.storage) = some id

/-- Stamps that rollback does not restore are in the past too; a slot's account has a row. -/
structure RowStamps (state : WorldState) : Prop where
  account : ∀ id row, state.world.accounts.row id = some row →
    row.warmTransaction ≤ state.clock ∧ row.observation.transaction ≤ state.clock
  storage : ∀ id row, state.world.storage.row id = some row →
    row.warmTransaction ≤ state.clock ∧ row.observation.transaction ≤ state.clock
  owner : ∀ id key, state.world.storage.key id = some key →
    (state.world.accounts.key key.account).isSome

/-- How many introduced codes the journal can take back. -/
def introducedEntries (journal : Journal) : Nat :=
  journal.countP fun entry =>
    match entry with
    | .introducedCode => true
    | _ => false

/-- The block's list of introduced codes names the store's entries in order. -/
structure Introduced (state : WorldState) : Prop where
  list : state.blockIntroducedCodes = List.range state.code.introduced.count
  count : state.code.introduced.count =
    state.acceptedLen.blockIntroducedCodes + introducedEntries state.journal

/-- A patch that restores every cell of an account row. -/
def RestoresAccount (patch : Patch Cell.Value) (address : Address) : Prop :=
  (patch (.account address)).isSome ∧ (patch (.storageDirty address)).isSome ∧
    (patch (.accountEffect address)).isSome

def RestoresSlot (patch : Patch Cell.Value) (address : Address) (slot : U256) : Prop :=
  (patch (.slot address slot)).isSome ∧ (patch (.slotEffect address slot)).isSome

section Invariant

variable (env : Env)

/-- A row stamped with the open scope has its undo entry above the base. -/
structure CoveredAbove (base : Nat) (state : WorldState) : Prop where
  account : ∀ address,
    (state.view env (.account address)).journaledScope = state.lifetime.scope →
    ∃ patch ∈ UndoLog.above state.log base, RestoresAccount patch address
  slot : ∀ address slot,
    (state.view env (.slot address slot)).journaledScope = state.lifetime.scope →
    ∃ patch ∈ UndoLog.above state.log base, RestoresSlot patch address slot

structure Active (base : Nat) (state : WorldState) : Prop where
  transaction : state.lifetime.transaction ≠ 0
  transactionPast : state.lifetime.transaction ≤ state.clock
  scope : state.lifetime.scope ≠ 0
  scopePast : state.lifetime.scope ≤ state.clock
  handles : Handles state
  entries : ∀ entry ∈ state.journal, state.EntryValid entry
  covered : CoveredAbove env base state
  settling : Settling state.lifetime.transaction (state.view env)
  introduced : Introduced state
  lists : Lists env state

structure Idle (state : WorldState) : Prop where
  journal : state.journal = []
  lifecycle : state.lifecycleAccounts = []
  transient : state.transientStorage = Table.empty
  deferred : state.deferredWarmth = ⟨Table.empty, Table.empty⟩
  scopeDepth : state.scopeDepth = 0
  notReverted : state.transactionScopeReverted = false
  closed : state.attemptOpen = false
  notSealed : state.sealed = false
  current : ∀ address slot, (state.view env (.slot address slot)).flags.blockDirty = true →
    (state.view env (.slot address slot)).storageIncarnation =
      (state.view env (.account address)).storageIncarnation
  introduced : state.blockIntroducedCodes = List.range state.code.introduced.count
  changes : Exact (fun id => state.accountMark env blockChangedMark id = true)
    state.blockChangedAccounts
  wipes : Exact (fun id => state.accountMark env storageWipedMark id = true)
    state.blockStorageWipes
  dirty : Exact (fun id => state.slotMark env blockDirtyMark id = true) state.dirtyStorage

structure Inv (base : Nat) (scope : Generation) (state : WorldState) : Prop where
  inside : base ≤ state.journal.length
  scope : state.lifetime.scope = scope
  consistent : Consistent env state.clock (state.view env)
  stamps : RowStamps state
  active : state.transactionActive = true → Active env base state
  idle : state.transactionActive = false → Idle env state

/-! ## What a call owes to the scopes around it -/

/-- The cells rollback restores; without `strict`, transient storage is left out. -/
def watched (strict : Prop) : Cell → Prop
  | .transient _ _ => strict
  | _ => True

structure ListsGrow (before after : WorldState) : Prop where
  blockChangedAccounts : before.blockChangedAccounts <+: after.blockChangedAccounts
  blockStorageWipes : before.blockStorageWipes <+: after.blockStorageWipes
  dirtyStorage : before.dirtyStorage <+: after.dirtyStorage
  changedAccounts : before.changedAccounts <+: after.changedAccounts
  changedStorage : before.changedStorage <+: after.changedStorage
  transactionStorageWipes : before.transactionStorageWipes <+: after.transactionStorageWipes
  introduced : before.code.introduced.rows <+: after.code.introduced.rows
  parentCode : after.code.parent = before.code.parent
  codeCache : before.world.code <+: after.world.code

/-- The fields only the scope and attempt calls assign. -/
structure Control where
  clock : Generation
  lifetime : Lifetimes
  sealed : Bool
  attemptOpen : Bool
  scopeDepth : Nat
  transactionActive : Bool
  reverted : Bool
  acceptedLen : AcceptedLen
  worldEpoch : Nat

def control (self : WorldState) : Control where
  clock := self.clock
  lifetime := self.lifetime
  sealed := self.sealed
  attemptOpen := self.attemptOpen
  scopeDepth := self.scopeDepth
  transactionActive := self.transactionActive
  reverted := self.transactionScopeReverted
  acceptedLen := self.acceptedLen
  worldEpoch := self.worldEpoch

def SameControl (before after : WorldState) : Prop := after.control = before.control

namespace SameControl

variable {before after : WorldState}

theorem clock (same : SameControl before after) : after.clock = before.clock :=
  congrArg Control.clock same

theorem lifetime (same : SameControl before after) : after.lifetime = before.lifetime :=
  congrArg Control.lifetime same

theorem sealed (same : SameControl before after) : after.sealed = before.sealed :=
  congrArg Control.sealed same

theorem attemptOpen (same : SameControl before after) : after.attemptOpen = before.attemptOpen :=
  congrArg Control.attemptOpen same

theorem scopeDepth (same : SameControl before after) : after.scopeDepth = before.scopeDepth :=
  congrArg Control.scopeDepth same

theorem transactionActive (same : SameControl before after) :
    after.transactionActive = before.transactionActive :=
  congrArg Control.transactionActive same

theorem reverted (same : SameControl before after) :
    after.transactionScopeReverted = before.transactionScopeReverted :=
  congrArg Control.reverted same

theorem acceptedLen (same : SameControl before after) : after.acceptedLen = before.acceptedLen :=
  congrArg Control.acceptedLen same

theorem worldEpoch (same : SameControl before after) : after.worldEpoch = before.worldEpoch :=
  congrArg Control.worldEpoch same

theorem trans {last : WorldState} (left : SameControl before after) (right : SameControl after last) :
    SameControl before last :=
  Eq.trans right left

end SameControl

/-- The lists of marked rows. -/
structure Marks where
  blockChangedAccounts : List AccountId
  blockStorageWipes : List AccountId
  dirtyStorage : List StorageId
  changedAccounts : List AccountId
  changedStorage : List StorageId
  transactionStorageWipes : List AccountId

def marks (self : WorldState) : Marks where
  blockChangedAccounts := self.blockChangedAccounts
  blockStorageWipes := self.blockStorageWipes
  dirtyStorage := self.dirtyStorage
  changedAccounts := self.changedAccounts
  changedStorage := self.changedStorage
  transactionStorageWipes := self.transactionStorageWipes

/-- The lists and stores an assignment to a row leaves alone. -/
structure Stores where
  marks : Marks
  code : CodeStore
  codeCache : List (CodeHash × Bytes)

def stores (self : WorldState) : Stores where
  marks := self.marks
  code := self.code
  codeCache := self.world.code

def SameLists (before after : WorldState) : Prop := after.stores = before.stores

namespace SameLists

variable {before after : WorldState}

theorem blockChangedAccounts (same : SameLists before after) :
    after.blockChangedAccounts = before.blockChangedAccounts :=
  congrArg (·.marks.blockChangedAccounts) same

theorem blockStorageWipes (same : SameLists before after) :
    after.blockStorageWipes = before.blockStorageWipes :=
  congrArg (·.marks.blockStorageWipes) same

theorem dirtyStorage (same : SameLists before after) : after.dirtyStorage = before.dirtyStorage :=
  congrArg (·.marks.dirtyStorage) same

theorem changedAccounts (same : SameLists before after) :
    after.changedAccounts = before.changedAccounts :=
  congrArg (·.marks.changedAccounts) same

theorem changedStorage (same : SameLists before after) :
    after.changedStorage = before.changedStorage :=
  congrArg (·.marks.changedStorage) same

theorem transactionStorageWipes (same : SameLists before after) :
    after.transactionStorageWipes = before.transactionStorageWipes :=
  congrArg (·.marks.transactionStorageWipes) same

theorem code (same : SameLists before after) : after.code = before.code :=
  congrArg Stores.code same

theorem codeCache (same : SameLists before after) : after.world.code = before.world.code :=
  congrArg Stores.codeCache same

end SameLists

structure Follows (strict : Prop) (base : Nat) (scope : Generation)
    (before after : WorldState) : Prop where
  grows : Grows before after
  recorded : UndoLog.Recorded (watched strict) base (before.view env) before.log
    (after.view env) after.log
  journal : before.journal <:+ after.journal
  transaction : after.lifetime.transaction = before.lifetime.transaction
  transactionActive : after.transactionActive = before.transactionActive
  sealed : after.sealed = before.sealed
  attemptOpen : after.attemptOpen = before.attemptOpen
  acceptedLen : after.acceptedLen = before.acceptedLen
  worldEpoch : after.worldEpoch = before.worldEpoch
  clock : before.clock ≤ after.clock
  accountStamp : ∀ address, (after.view env (.account address)).journaledScope =
      (before.view env (.account address)).journaledScope ∨
    scope ≤ (after.view env (.account address)).journaledScope
  slotStamp : ∀ address slot, (after.view env (.slot address slot)).journaledScope =
      (before.view env (.slot address slot)).journaledScope ∨
    scope ≤ (after.view env (.slot address slot)).journaledScope
  lists : ListsGrow before after
  logs : strict → LogBuffer.Extends before.logs after.logs

theorem ListsGrow.refl (self : WorldState) : ListsGrow self self :=
  ⟨List.prefix_refl _, List.prefix_refl _, List.prefix_refl _, List.prefix_refl _,
    List.prefix_refl _, List.prefix_refl _, List.prefix_refl _, rfl, List.prefix_refl _⟩

theorem ListsGrow.trans {first second third : WorldState} (left : ListsGrow first second)
    (right : ListsGrow second third) : ListsGrow first third where
  blockChangedAccounts := left.blockChangedAccounts.trans right.blockChangedAccounts
  blockStorageWipes := left.blockStorageWipes.trans right.blockStorageWipes
  dirtyStorage := left.dirtyStorage.trans right.dirtyStorage
  changedAccounts := left.changedAccounts.trans right.changedAccounts
  changedStorage := left.changedStorage.trans right.changedStorage
  transactionStorageWipes := left.transactionStorageWipes.trans right.transactionStorageWipes
  introduced := left.introduced.trans right.introduced
  parentCode := right.parentCode.trans left.parentCode
  codeCache := left.codeCache.trans right.codeCache

variable {env} {strict : Prop} {base : Nat} {scope : Generation}

theorem log_length (self : WorldState) : self.log.length = self.journal.length :=
  List.length_map _

theorem Follows.refl (self : WorldState) (inside : base ≤ self.journal.length) :
    Follows env strict base scope self self where
  grows := Grows.refl self
  recorded := UndoLog.Recorded.refl (by rw [log_length]; exact inside)
  journal := List.suffix_refl _
  transaction := rfl
  transactionActive := rfl
  sealed := rfl
  attemptOpen := rfl
  acceptedLen := rfl
  worldEpoch := rfl
  clock := Nat.le_refl _
  accountStamp _ := .inl rfl
  slotStamp _ _ := .inl rfl
  lists := ListsGrow.refl self
  logs _ := LogBuffer.Extends.refl _

theorem Follows.trans {first second third : WorldState}
    (left : Follows env strict base scope first second)
    (right : Follows env strict base scope second third) :
    Follows env strict base scope first third where
  grows := left.grows.trans right.grows
  recorded := left.recorded.trans right.recorded
  journal := left.journal.trans right.journal
  transaction := right.transaction.trans left.transaction
  transactionActive := right.transactionActive.trans left.transactionActive
  sealed := right.sealed.trans left.sealed
  attemptOpen := right.attemptOpen.trans left.attemptOpen
  acceptedLen := right.acceptedLen.trans left.acceptedLen
  worldEpoch := right.worldEpoch.trans left.worldEpoch
  clock := left.clock.trans right.clock
  accountStamp address := by
    rcases right.accountStamp address with same | newer
    · rw [same]
      exact left.accountStamp address
    · exact .inr newer
  slotStamp address slot := by
    rcases right.slotStamp address slot with same | newer
    · rw [same]
      exact left.slotStamp address slot
    · exact .inr newer
  lists := left.lists.trans right.lists
  logs strictly := (left.logs strictly).trans (right.logs strictly)

/-- What holds for an inner scope holds for the scopes around it. -/
theorem Follows.lower {low : Nat} {outer : Generation} {before after : WorldState}
    (follows : Follows env strict base scope before after) (below : low ≤ base)
    (older : outer ≤ scope) : Follows env strict low outer before after :=
  { follows with
    recorded := follows.recorded.lower below
    accountStamp := fun address => (follows.accountStamp address).imp id older.trans
    slotStamp := fun address slot => (follows.slotStamp address slot).imp id older.trans }

theorem Follows.loosen {before after : WorldState}
    (follows : Follows env strict base scope before after) (looser : Prop)
    (implies : looser → strict) : Follows env looser base scope before after :=
  { follows with
    recorded := follows.recorded.weaken fun cell watch => by
      cases cell with
      | transient address slot => exact implies watch
      | _ => trivial
    logs := fun holds => follows.logs (implies holds) }

variable (env strict base scope)

/-- The discipline of calls that leave the scope open. -/
def calls : Discipline WorldState where
  inv := Inv env base scope
  rel before after := Follows env strict base scope before after ∧
    after.lifetime = before.lifetime ∧ after.scopeDepth = before.scopeDepth
  refl invariant := ⟨Follows.refl _ invariant.inside, rfl, rfl⟩
  trans left right := ⟨left.1.trans right.1, right.2.1.trans left.2.1,
    right.2.2.trans left.2.2⟩

end Invariant

end WorldState

end EvmZig.State
