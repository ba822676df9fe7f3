import EvmZig.State.Readable

/-!
# Branch snapshots (`BranchSnapshot` of `src/state/world_state.zig`)

A snapshot copies row values by position, without their keys, and the lengths
of the introduced code.  Restoring assigns the values to the rows that are now
in those positions, so it gives back the captured branch when these still are
the rows of the captured keys.
-/

set_option autoImplicit false

namespace EvmZig.State

open Lib Zig

variable {scope : Generation}

structure RowSnapshot where
  accounts : List AccountRow
  storage : List StorageRow

/-- `BranchSnapshot`; every snapshot here is owned by the one state. -/
structure BranchSnapshot where
  rows : RowSnapshot
  retainedLogs : LogBuffer
  blockChangedAccounts : List AccountId
  blockStorageWipes : List AccountId
  dirtyStorage : List StorageId
  blockIntroducedCodesLen : Nat
  introducedCodeLen : Nat
  worldEpoch : Nat
  resolved : Bool := false

namespace WorldState

variable (env : Env)

/-- What `branchSnapshot` copies. -/
def captured (self : WorldState) : BranchSnapshot where
  rows := {
    accounts := self.world.accounts.rows.map Prod.snd
    storage := self.world.storage.rows.map Prod.snd }
  retainedLogs := self.retainedLogs
  blockChangedAccounts := self.blockChangedAccounts
  blockStorageWipes := self.blockStorageWipes
  dirtyStorage := self.dirtyStorage
  blockIntroducedCodesLen := self.blockIntroducedCodes.length
  introducedCodeLen := self.code.introducedLen
  worldEpoch := self.worldEpoch

/-- Fallible copies made one after the other. -/
def reserveEach (count : Nat) : Method Unit :=
  Action.forEach (fun _ => reserve env) (List.range count)

def branchSnapshot : Method BranchSnapshot := do
  Action.assert fun self => self.transactionActive = false
  reserveEach env 8
  Action.read captured

/-- `BranchSnapshot.clone`. -/
def cloneSnapshot (snapshot : BranchSnapshot) : Method BranchSnapshot := do
  Action.assert fun _ => snapshot.resolved = false
  reserveEach env 8
  return snapshot

/-- `restoreSnapshot`: an open world may have grown, a closed one has the same rows. -/
def restoreSnapshot (rows : RowSnapshot) : Method Unit := do
  Action.assert fun self =>
    if env.growsOnTouch then
      rows.accounts.length ≤ self.world.accounts.count ∧
        rows.storage.length ≤ self.world.storage.count
    else
      rows.accounts.length = self.world.accounts.count ∧
        rows.storage.length = self.world.storage.count
  Action.modify fun self =>
    { self with world := { self.world with
        accounts := self.world.accounts.overwrite rows.accounts
        storage := self.world.storage.overwrite rows.storage } }

/-- `restoreBranch` once no attempt is active; the snapshot it leaves is resolved. -/
def restoreAccepted (snapshot : BranchSnapshot) : Method BranchSnapshot := do
  restoreSnapshot env snapshot.rows
  Action.modify fun self =>
    { self with
      blockChangedAccounts := snapshot.blockChangedAccounts
      blockStorageWipes := snapshot.blockStorageWipes
      dirtyStorage := snapshot.dirtyStorage }
  Action.assert fun self => snapshot.blockIntroducedCodesLen ≤ self.blockIntroducedCodes.length
  Action.modify fun self =>
    { self with
      blockIntroducedCodes := self.blockIntroducedCodes.take snapshot.blockIntroducedCodesLen }
  Action.assert fun self => snapshot.introducedCodeLen ≤ self.code.introducedLen
  let logs ← Action.read (·.retainedLogs)
  Action.modify fun self =>
    { self with
      code := self.code.truncateIntroduced snapshot.introducedCodeLen
      retainedLogs := snapshot.retainedLogs }
  return { snapshot with retainedLogs := logs, resolved := true }

def restoreBranch (snapshot : BranchSnapshot) : Method BranchSnapshot := do
  Action.assert fun self => snapshot.worldEpoch = self.worldEpoch
  Action.assert fun _ => snapshot.resolved = false
  let self ← Action.get
  Action.when (self.transactionActive = true) (discardAttempt self.lifetime.transaction)
  restoreAccepted env snapshot

/-! ## Restoring what is still in place -/

/-- The keys `of` had rows for still have them in the same places, and so has its introduced
code among the accepted code. -/
structure Intact (of state : WorldState) : Prop where
  accounts : of.world.accounts.rows.map Prod.fst <+: state.world.accounts.rows.map Prod.fst
  storage : of.world.storage.rows.map Prod.fst <+: state.world.storage.rows.map Prod.fst
  code : of.code.introduced.rows <+:
    if state.transactionActive then
      state.code.introduced.rows.take state.acceptedLen.blockIntroducedCodes
    else state.code.introduced.rows

/-- `current` can come back to `of`: a quiet state of the same epoch, with stamps in the past. -/
structure Recalls (of current : WorldState) : Prop where
  inv : Inv env 0 of.lifetime.scope of
  idle : of.transactionActive = false
  epoch : of.worldEpoch ≤ current.worldEpoch
  clock : of.worldEpoch = current.worldEpoch → of.clock ≤ current.clock
  parentCode : current.code.parent = of.code.parent

variable {env} {of before after state : WorldState}

theorem row_prefix_keys {κ ρ : Type} {earlier later : Table κ ρ}
    (keys : ∀ index key, earlier.key index = some key → later.key index = some key) :
    earlier.rows.map Prod.fst <+: later.rows.map Prod.fst := by
  rw [List.prefix_iff_getElem?]
  intro index inside
  have earlierKey : earlier.key index = some ((earlier.rows.map Prod.fst)[index]) := by
    rw [Table.key, ← List.getElem?_map]
    exact List.getElem?_eq_getElem inside
  have laterKey := keys index _ earlierKey
  rw [Table.key, ← List.getElem?_map] at laterKey
  exact laterKey

theorem key_of_prefixed {κ ρ : Type} {earlier later : Table κ ρ}
    (grows : earlier.rows.map Prod.fst <+: later.rows.map Prod.fst) {index : Nat} {key : κ}
    (found : earlier.key index = some key) : later.key index = some key := by
  rw [Table.key, ← List.getElem?_map] at found ⊢
  obtain ⟨rest, restEq⟩ := grows
  have inside : index < (earlier.rows.map Prod.fst).length := by
    by_contra outside
    rw [List.getElem?_eq_none (Nat.le_of_not_lt outside)] at found
    cases found
  rw [← restEq, List.getElem?_append_left inside]
  exact found

/-- `mid` brought back to the branch of `of`. -/
def restored (of mid : WorldState) : WorldState :=
  { mid with
    world := { mid.world with accounts := of.world.accounts, storage := of.world.storage }
    code := of.code
    retainedLogs := of.retainedLogs
    blockChangedAccounts := of.blockChangedAccounts
    blockStorageWipes := of.blockStorageWipes
    dirtyStorage := of.dirtyStorage
    blockIntroducedCodes := of.blockIntroducedCodes }

theorem restored_cells (of mid : WorldState) {cell : Cell} (accepted : Accepted cell) :
    (restored of mid).view env cell = of.view env cell := by
  cases cell with
  | account address => rfl
  | storageDirty address => rfl
  | slot address slot => rfl
  | accountEffect address => exact accepted.elim
  | slotEffect address slot => exact accepted.elim
  | accountWarm address => exact accepted.elim
  | slotWarm address slot => exact accepted.elim
  | deferredAccount address => exact accepted.elim
  | deferredSlot address slot => exact accepted.elim
  | transient address slot => exact accepted.elim

theorem restored_inv {mid : WorldState} (recalls : Recalls env of mid)
    (sameEpoch : of.worldEpoch = mid.worldEpoch) (inv : Inv env 0 scope mid)
    (notActive : mid.transactionActive = false) : Inv env 0 scope (restored of mid) := by
  have idle := inv.idle notActive
  have ofIdle := recalls.inv.idle recalls.idle
  have later := recalls.clock sameEpoch
  refine ⟨Nat.zero_le _, inv.scope, ?_, ?_, fun running => ?_, fun _ => ?_⟩
  · exact (recalls.inv.consistent.mono later).of_accepted fun cell => restored_cells of mid
  · have stamps := recalls.inv.stamps
    refine ⟨fun id row held => ?_, fun id row held => ?_, stamps.owner⟩
    · have past := stamps.account id row held
      exact ⟨past.1.trans later, past.2.trans later⟩
    · have past := stamps.storage id row held
      exact ⟨past.1.trans later, past.2.trans later⟩
  · have contradiction : mid.transactionActive = true := running
    rw [notActive] at contradiction
    cases contradiction
  · exact {
      journal := idle.journal
      lifecycle := idle.lifecycle
      transient := idle.transient
      deferred := idle.deferred
      scopeDepth := idle.scopeDepth
      notReverted := idle.notReverted
      closed := idle.closed
      notSealed := idle.notSealed
      current := ofIdle.current
      introduced := ofIdle.introduced
      changes := ofIdle.changes
      wipes := ofIdle.wipes
      dirty := ofIdle.dirty }

/-- The rows, the lists and the code of a snapshot. -/
def reinstated (snapshot : BranchSnapshot) (self : WorldState) : WorldState :=
  { self with
    world := { self.world with
      accounts := self.world.accounts.overwrite snapshot.rows.accounts
      storage := self.world.storage.overwrite snapshot.rows.storage }
    blockChangedAccounts := snapshot.blockChangedAccounts
    blockStorageWipes := snapshot.blockStorageWipes
    dirtyStorage := snapshot.dirtyStorage
    blockIntroducedCodes := self.blockIntroducedCodes.take snapshot.blockIntroducedCodesLen
    code := self.code.truncateIntroduced snapshot.introducedCodeLen
    retainedLogs := snapshot.retainedLogs }

theorem restoreAccepted_reinstates {snapshot left : BranchSnapshot} {self : WorldState}
    (ran : restoreAccepted env snapshot self = .ok left after) :
    left = { snapshot with retainedLogs := self.retainedLogs, resolved := true } ∧
      after = reinstated snapshot self := by
  unfold restoreAccepted at ran
  obtain ⟨_, rewritten, rows, rest⟩ := Action.bind_eq_ok.mp ran
  unfold restoreSnapshot at rows
  obtain ⟨_, _, fits, wrote⟩ := Action.bind_eq_ok.mp rows
  obtain ⟨-, rfl⟩ := Action.assert_eq_ok.mp fits
  cases wrote
  rw [Action.bind_run, Action.modify_run] at rest
  dsimp only at rest
  obtain ⟨_, _, listFits, rest⟩ := Action.bind_eq_ok.mp rest
  obtain ⟨-, rfl⟩ := Action.assert_eq_ok.mp listFits
  rw [Action.bind_run, Action.modify_run] at rest
  dsimp only at rest
  obtain ⟨_, _, codeFits, rest⟩ := Action.bind_eq_ok.mp rest
  obtain ⟨-, rfl⟩ := Action.assert_eq_ok.mp codeFits
  cases rest
  exact ⟨rfl, rfl⟩

theorem restoreAccepted_ran {mid : WorldState} {left : BranchSnapshot}
    (recalls : Recalls env of mid) (inv : Inv env 0 scope mid)
    (notActive : mid.transactionActive = false)
    (accounts : of.world.accounts.rows.map Prod.fst <+: mid.world.accounts.rows.map Prod.fst)
    (storage : of.world.storage.rows.map Prod.fst <+: mid.world.storage.rows.map Prod.fst)
    (code : of.code.introduced.rows <+: mid.code.introduced.rows)
    (ran : restoreAccepted env of.captured mid = .ok left after) :
    left.resolved = true ∧ after = restored of mid := by
  have idle := inv.idle notActive
  have ofIdle := recalls.inv.idle recalls.idle
  obtain ⟨rfl, rfl⟩ := restoreAccepted_reinstates ran
  refine ⟨rfl, ?_⟩
  have counted : of.code.introduced.count ≤ mid.code.introduced.count := code.length_le
  have listEq : mid.blockIntroducedCodes.take of.captured.blockIntroducedCodesLen =
      of.blockIntroducedCodes := by
    show mid.blockIntroducedCodes.take of.blockIntroducedCodes.length = _
    rw [ofIdle.introduced, idle.introduced, List.length_range, List.take_range,
      Nat.min_eq_left counted]
  have codeEq : mid.code.truncateIntroduced of.captured.introducedCodeLen = of.code := by
    show ({ mid.code with
      introduced := mid.code.introduced.truncate of.code.introduced.count } : CodeStore) = of.code
    rw [Table.truncate_of_prefixed code]
    exact congrArg (fun parent => ({ parent, introduced := of.code.introduced } : CodeStore))
      recalls.parentCode
  have accountsEq : mid.world.accounts.overwrite of.captured.rows.accounts = of.world.accounts :=
    Table.overwrite_of_prefixed accounts
  have storageEq : mid.world.storage.overwrite of.captured.rows.storage = of.world.storage :=
    Table.overwrite_of_prefixed storage
  simp only [reinstated, restored, accountsEq, storageEq, listEq, codeEq]
  rfl

theorem restored_sameBranch (recalls : Recalls env of before) (mid : WorldState) :
    SameBranch env of (restored of mid) :=
  SameBranch.of_cells (recalls.inv.idle recalls.idle) (fun _ => restored_cells of mid) rfl rfl rfl
    rfl rfl (fun _ _ found => found) fun _ _ found => found

/-- Restoring an intact snapshot of a quiet state gives back the branch it captured. -/
theorem restoreBranch_idle {left : BranchSnapshot} (recalls : Recalls env of state)
    (inv : Inv env 0 scope state) (notActive : state.transactionActive = false)
    (intact : Intact of state) (ran : restoreBranch env of.captured state = .ok left after) :
    left.resolved = true ∧ after = restored of state := by
  unfold restoreBranch at ran
  obtain ⟨_, _, epoch, rest⟩ := Action.bind_eq_ok.mp ran
  obtain ⟨-, rfl⟩ := Action.assert_eq_ok.mp epoch
  obtain ⟨_, _, unresolved, rest⟩ := Action.bind_eq_ok.mp rest
  obtain ⟨-, rfl⟩ := Action.assert_eq_ok.mp unresolved
  rw [Action.bind_run, Action.get_run] at rest
  dsimp only at rest
  rw [Action.bind_run, Action.when, if_neg (by rw [notActive]; exact Bool.false_ne_true)] at rest
  have code := intact.code
  rw [notActive, if_neg Bool.false_ne_true] at code
  exact restoreAccepted_ran recalls inv notActive intact.accounts intact.storage code rest

theorem restoreBranch_active {start : WorldState} {left : BranchSnapshot}
    (recalls : Recalls env of state) (since : Since env start state) (inv : Inv env 0 scope start)
    (notActive : start.transactionActive = false) (intact : Intact of state)
    (ran : restoreBranch env of.captured state = .ok left after) :
    left.resolved = true ∧ ∃ mid, Discarded env start state mid ∧ after = restored of mid := by
  unfold restoreBranch at ran
  obtain ⟨_, _, epoch, rest⟩ := Action.bind_eq_ok.mp ran
  obtain ⟨sameEpoch, rfl⟩ := Action.assert_eq_ok.mp epoch
  obtain ⟨_, _, unresolved, rest⟩ := Action.bind_eq_ok.mp rest
  obtain ⟨-, rfl⟩ := Action.assert_eq_ok.mp unresolved
  rw [Action.bind_run, Action.get_run] at rest
  dsimp only at rest
  have running : state.transactionActive = true := since.running
  obtain ⟨_, mid, discards, rest⟩ := Action.bind_eq_ok.mp rest
  rw [Action.when, if_pos running] at discards
  have closed : ¬state.SessionActive := by
    intro session
    simp only [discardAttempt, assertCurrent, Action.bind_run, Action.assert, if_pos running,
      if_neg (not_not_intro session), if_true] at discards
    cases discards
  obtain ⟨found, ranFound, discarded⟩ := discardAttempt_run since inv notActive closed
  obtain rfl : found = mid := by
    rw [ranFound] at discards
    cases discards
    rfl
  have recallsMid : Recalls env of found := {
    inv := recalls.inv
    idle := recalls.idle
    epoch := by
      rw [discarded.worldEpoch, ← since.worldEpoch]
      exact recalls.epoch
    clock := by
      rw [discarded.worldEpoch, ← since.worldEpoch, discarded.clock]
      exact recalls.clock
    parentCode := by
      rw [discarded.code, ← since.parentCode]
      exact recalls.parentCode }
  have code := intact.code
  have lengths : start.lengths.blockIntroducedCodes = start.code.introduced.count := by
    show start.blockIntroducedCodes.length = _
    rw [(inv.idle notActive).introduced, List.length_range]
  rw [running, if_pos rfl, since.acceptedLen, lengths,
    show state.code.introduced.rows.take start.code.introduced.count = start.code.introduced.rows
      from (List.prefix_iff_eq_take.mp since.introduced).symm, ← discarded.code] at code
  have accounts := row_prefix_keys fun index key found =>
    discarded.accountKept index key (key_of_prefixed intact.accounts found)
  have storage := row_prefix_keys fun index key found =>
    discarded.storageKept index key (key_of_prefixed intact.storage found)
  obtain ⟨resolved, afterEq⟩ := restoreAccepted_ran recallsMid discarded.inv discarded.idle
    accounts storage code rest
  exact ⟨resolved, found, discarded, afterEq⟩

end WorldState

end EvmZig.State
