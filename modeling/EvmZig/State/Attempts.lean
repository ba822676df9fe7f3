import EvmZig.State.Compaction

/-!
# Attempts

Beginning an attempt keeps every cell; whatever runs inside it is undone by
unwinding the whole journal.  Retaining compacts the block lists to exactly the
marked rows.
-/

set_option autoImplicit false

namespace EvmZig.State

open Lib Zig

namespace WorldState

variable {env : Env} {strict : Prop} {before after self start state : WorldState} {observe : Bool}
  {attempt scope : Generation} {id : StorageId}

/-! ## Beginning -/

def lengths (self : WorldState) : AcceptedLen where
  blockChangedAccounts := self.blockChangedAccounts.length
  blockStorageWipes := self.blockStorageWipes.length
  dirtyStorage := self.dirtyStorage.length
  blockIntroducedCodes := self.blockIntroducedCodes.length

/-- What `beginAttemptMode` leaves behind. -/
def begun (observe : Bool) (self : WorldState) : WorldState :=
  { self with
    clock := self.clock + 2
    lifetime := { transaction := self.clock + 1, scope := self.clock + 2, root := self.clock + 2 }
    observedAttempt := observe
    sealed := false
    transactionActive := true
    attemptOpen := true
    acceptedLen := self.lengths
    changedAccounts := []
    changedStorage := []
    transactionStorageWipes := []
    observedAccounts := []
    observedStorage := []
    logs := {}
    retainedLogs := {} }

theorem tick_eq_ok {stamp : Generation} :
    tick self = .ok stamp after ↔ self.clock < u32Max ∧ stamp = self.clock + 1 ∧
      after = { self with clock := self.clock + 1 } := by
  unfold tick
  rw [Action.bind_eq_ok]
  constructor
  · rintro ⟨_, _, asserted, rest⟩
    obtain ⟨room, rfl⟩ := Action.assert_eq_ok.mp asserted
    cases rest
    exact ⟨room, rfl, rfl⟩
  · rintro ⟨room, rfl, rfl⟩
    exact ⟨(), self, Action.assert_eq_ok.mpr ⟨room, rfl⟩, rfl⟩

theorem openRoot_ran (ran : openRoot self = .ok () after) :
    after = { self with
      clock := self.clock + 1
      lifetime := { self.lifetime with scope := self.clock + 1, root := self.clock + 1 } } := by
  unfold openRoot at ran
  obtain ⟨stamp, _, ticked, rest⟩ := Action.bind_eq_ok.mp ran
  obtain ⟨-, rfl, rfl⟩ := tick_eq_ok.mp ticked
  cases rest
  rfl

theorem beginAttemptMode_ran (ran : beginAttemptMode observe self = .ok attempt after) :
    self.transactionActive = false ∧ attempt = self.clock + 1 ∧ after = begun observe self := by
  unfold beginAttemptMode at ran
  obtain ⟨_, _, idle, rest⟩ := Action.bind_eq_ok.mp ran
  obtain ⟨notActive, rfl⟩ := Action.assert_eq_ok.mp idle
  obtain ⟨_, _, empty, rest⟩ := Action.bind_eq_ok.mp rest
  obtain ⟨-, rfl⟩ := Action.assert_eq_ok.mp empty
  obtain ⟨stamp, ticking, ticked, rest⟩ := Action.bind_eq_ok.mp rest
  obtain ⟨-, rfl, rfl⟩ := tick_eq_ok.mp ticked
  rw [Action.bind_run, Action.modify_run] at rest
  dsimp only at rest
  obtain ⟨_, rooted, opens, rest⟩ := Action.bind_eq_ok.mp rest
  have rootedEq := openRoot_ran opens
  dsimp only at rootedEq
  obtain ⟨_, _, settled, rest⟩ := Action.bind_eq_ok.mp rest
  obtain ⟨-, rfl⟩ := Action.assert_eq_ok.mp settled
  rw [Action.bind_run, Action.modify_run] at rest
  dsimp only at rest
  obtain ⟨_, _, clear, rest⟩ := Action.bind_eq_ok.mp rest
  obtain ⟨-, rfl⟩ := Action.assert_eq_ok.mp clear
  cases rest
  refine ⟨notActive, rfl, ?_⟩
  rw [rootedEq]
  rfl

/-- The cells that outlive an attempt. -/
def Accepted : Cell → Prop
  | .account _ => True
  | .storageDirty _ => True
  | .slot _ _ => True
  | _ => False

/-- States over the same rows have the same accepted cells. -/
theorem view_of_world (world : after.world = before.world) {cell : Cell} (accepted : Accepted cell) :
    after.view env cell = before.view env cell := by
  cases cell with
  | account address => simp only [view, accountAt, world]
  | storageDirty address => simp only [view, accountAt, world]
  | slot address slot => simp only [view, storageAt, world]
  | accountEffect address => exact accepted.elim
  | slotEffect address slot => exact accepted.elim
  | accountWarm address => exact accepted.elim
  | slotWarm address slot => exact accepted.elim
  | deferredAccount address => exact accepted.elim
  | deferredSlot address slot => exact accepted.elim
  | transient address slot => exact accepted.elim

theorem Consistent.of_accepted {clock : Generation} {cells cells' : Cells}
    (held : Consistent env clock cells) (same : ∀ cell, Accepted cell → cells' cell = cells cell) :
    Consistent env clock cells' where
  account address := by
    rw [same (.account address) trivial]
    exact held.account address
  slot address slot := by
    rw [same (.account address) trivial, same (.slot address slot) trivial]
    exact held.slot address slot

theorem accountMark_of_world (world : after.world = before.world) (marked : AccountCell → Bool)
    (id : AccountId) : after.accountMark env marked id = before.accountMark env marked id := by
  have cell : ∀ address, after.view env (.account address) = before.view env (.account address) :=
    fun address => view_of_world world trivial
  simp only [accountMark, world, cell]

theorem slotMark_of_world (world : after.world = before.world) (marked : SlotCell → Bool)
    (id : StorageId) : after.slotMark env marked id = before.slotMark env marked id := by
  have cell : ∀ address slot,
      after.view env (.slot address slot) = before.view env (.slot address slot) :=
    fun address slot => view_of_world world trivial
  simp only [slotMark, slotOf, world, cell]

theorem begun_inv (inv : Inv env 0 scope self) (notActive : self.transactionActive = false) :
    Inv env 0 (self.clock + 2) (begun observe self) := by
  have idle := inv.idle notActive
  have world : (begun observe self).world = self.world := rfl
  have later : self.clock ≤ self.clock + 2 := Nat.le_add_right _ _
  have cells : ∀ cell, Accepted cell → (begun observe self).view env cell = self.view env cell :=
    fun cell => view_of_world world
  have account : ∀ address, (begun observe self).view env (.account address) =
      self.view env (.account address) := fun address => cells _ trivial
  have slot : ∀ address slot, (begun observe self).view env (.slot address slot) =
      self.view env (.slot address slot) := fun address slot => cells _ trivial
  refine ⟨Nat.zero_le _, rfl, (inv.consistent.mono later).of_accepted cells,
    inv.stamps.of_world world later, ?_, fun contradiction => nomatch contradiction⟩
  intro _
  refine ⟨Nat.succ_ne_zero _, Nat.le_succ _, Nat.succ_ne_zero _, Nat.le_refl _, ?_, ?_, ?_, ?_, ?_,
    ?_⟩
  · -- no row was observed yet: every stamp is older than the transaction
    refine ⟨?_, ?_⟩
    · intro id row found current
      have past := (inv.stamps.account id row found).2
      rw [current] at past
      exact absurd past (Nat.not_succ_le_self _)
    · intro id row found current
      have past := (inv.stamps.storage id row found).2
      rw [current] at past
      exact absurd past (Nat.not_succ_le_self _)
  · have empty : (begun observe self).journal = [] := idle.journal
    rw [empty]
    intro entry member
    exact absurd member List.not_mem_nil
  · refine ⟨?_, ?_⟩
    · intro address stamped
      rw [account] at stamped
      have past := (inv.consistent.account address).scope
      rw [stamped] at past
      exact absurd past (by show ¬self.clock + 2 ≤ self.clock; omega)
    · intro address place stamped
      rw [slot] at stamped
      have past := (inv.consistent.slot address place).scope
      rw [stamped] at past
      exact absurd past (by show ¬self.clock + 2 ≤ self.clock; omega)
  · refine ⟨?_, ?_⟩
    · intro address wiped
      rw [account] at wiped
      have past := (inv.consistent.account address).wiped
      rw [wiped] at past
      exact absurd past (Nat.not_succ_le_self _)
    · intro address place dirty
      rw [slot] at dirty ⊢
      rw [account]
      exact .inl (idle.current address place dirty)
  · refine ⟨idle.introduced, ?_⟩
    have empty : (begun observe self).journal = [] := idle.journal
    have accepted : (begun observe self).acceptedLen.blockIntroducedCodes =
        self.blockIntroducedCodes.length := rfl
    rw [empty, accepted, idle.introduced, List.length_range]
    rfl
  · refine ⟨(idle.changes.congr fun id => ?_).tracked _, (idle.wipes.congr fun id => ?_).tracked _,
      (idle.dirty.congr fun id => ?_).tracked _, (Exact.empty fun id marked => ?_).tracked _⟩
    · rw [accountMark_of_world world]
    · rw [accountMark_of_world world]
    · rw [slotMark_of_world world]
    · rw [accountMark_of_world world] at marked
      simp only [accountMark] at marked
      cases key : self.world.accounts.key id with
      | none =>
          rw [key] at marked
          cases marked
      | some address =>
          rw [key] at marked
          have wiped : (self.view env (.account address)).wipedTransaction = self.clock + 1 :=
            of_decide_eq_true marked
          have past := (inv.consistent.account address).wiped
          rw [wiped] at past
          exact absurd past (Nat.not_succ_le_self _)

/-! ## Inside an attempt -/

/-- `state` belongs to an attempt begun on `start`. -/
structure Since (env : Env) (start state : WorldState) : Prop where
  inv : Inv env 0 state.lifetime.scope state
  running : Running state
  unwound : ∀ cell, Accepted cell →
    UndoLog.unwind state.log (state.view env) cell = start.view env cell
  grows : Grows (begun false start) state
  transaction : state.lifetime.transaction = start.clock + 1
  clock : start.clock ≤ state.clock
  worldEpoch : state.worldEpoch = start.worldEpoch
  acceptedLen : state.acceptedLen = start.lengths
  blockChangedAccounts : start.blockChangedAccounts <+: state.blockChangedAccounts
  blockStorageWipes : start.blockStorageWipes <+: state.blockStorageWipes
  dirtyStorage : start.dirtyStorage <+: state.dirtyStorage
  introduced : start.code.introduced.rows <+: state.code.introduced.rows
  parentCode : state.code.parent = start.code.parent
  codeCache : start.world.code <+: state.world.code

theorem Accepted.watched {cell : Cell} (accepted : Accepted cell) : watched strict cell := by
  cases cell with
  | transient address slot => exact accepted.elim
  | _ => trivial

theorem Since.begin (inv : Inv env 0 scope start) (notActive : start.transactionActive = false) :
    Since env start (begun observe start) := by
  have idle := inv.idle notActive
  have empty : (begun observe start).log = [] := by
    rw [log, show (begun observe start).journal = [] from idle.journal]
    rfl
  have world : (begun observe start).world = start.world := rfl
  refine {
    inv := begun_inv inv notActive
    running := rfl
    unwound := fun cell accepted => ?_
    grows := ⟨fun _ _ found => found, fun _ _ found => found, fun _ _ found => found,
      fun _ _ found => found, fun _ found => found, fun _ row found same => ⟨row, found, same⟩⟩
    transaction := rfl
    clock := Nat.le_add_right _ _
    worldEpoch := rfl
    acceptedLen := rfl
    blockChangedAccounts := List.prefix_refl _
    blockStorageWipes := List.prefix_refl _
    dirtyStorage := List.prefix_refl _
    introduced := List.prefix_refl _
    parentCode := rfl
    codeCache := List.prefix_refl _ }
  rw [empty, UndoLog.unwind_nil]
  exact view_of_world world accepted

theorem Since.next {scope : Generation} (since : Since env start state)
    (inv : Inv env 0 scope after) (follows : Follows env False 0 scope state after) :
    Since env start after where
  inv := by
    rw [inv.scope]
    exact inv
  running := follows.transactionActive.trans since.running
  unwound cell accepted := by
    have same := follows.recorded.same cell accepted.watched
    simp only [UndoLog.undone, UndoLog.above_zero] at same
    rw [same]
    exact since.unwound cell accepted
  grows := since.grows.trans follows.grows
  transaction := follows.transaction.trans since.transaction
  clock := since.clock.trans follows.clock
  worldEpoch := follows.worldEpoch.trans since.worldEpoch
  acceptedLen := follows.acceptedLen.trans since.acceptedLen
  blockChangedAccounts := since.blockChangedAccounts.trans follows.lists.blockChangedAccounts
  blockStorageWipes := since.blockStorageWipes.trans follows.lists.blockStorageWipes
  dirtyStorage := since.dirtyStorage.trans follows.lists.dirtyStorage
  introduced := since.introduced.trans follows.lists.introduced
  parentCode := follows.lists.parentCode.trans since.parentCode
  codeCache := since.codeCache.trans follows.lists.codeCache

/-- A step that assigns to no row, block list or journal. -/
theorem Since.same (since : Since env start state) (rows : SameRows state after)
    (inv : Inv env 0 after.lifetime.scope after)
    (transactionActive : after.transactionActive = state.transactionActive)
    (journal : after.journal = state.journal) (clock : state.clock ≤ after.clock)
    (worldEpoch : after.worldEpoch = state.worldEpoch)
    (acceptedLen : after.acceptedLen = state.acceptedLen)
    (changes : after.blockChangedAccounts = state.blockChangedAccounts)
    (wipes : after.blockStorageWipes = state.blockStorageWipes)
    (dirty : after.dirtyStorage = state.dirtyStorage) (code : after.code = state.code) :
    Since env start after where
  inv := inv
  running := transactionActive.trans since.running
  unwound cell accepted := by
    rw [rows.log journal (since.inv.active since.running).entries, rows.view]
    exact since.unwound cell accepted
  grows := since.grows.trans rows.grows
  transaction := rows.transaction.trans since.transaction
  clock := since.clock.trans clock
  worldEpoch := worldEpoch.trans since.worldEpoch
  acceptedLen := acceptedLen.trans since.acceptedLen
  blockChangedAccounts := by
    rw [changes]
    exact since.blockChangedAccounts
  blockStorageWipes := by
    rw [wipes]
    exact since.blockStorageWipes
  dirtyStorage := by
    rw [dirty]
    exact since.dirtyStorage
  introduced := by
    rw [code]
    exact since.introduced
  parentCode := by
    rw [code]
    exact since.parentCode
  codeCache := by
    rw [rows.world]
    exact since.codeCache

theorem openSession_ran (ran : openSession self = .ok () after) :
    Running self ∧ self.scopeDepth = 0 ∧ after = rescoped (self.clock + 1) 1 self := by
  unfold openSession assertMutable at ran
  obtain ⟨_, middle, mutable, rest⟩ := Action.bind_eq_ok.mp ran
  obtain ⟨_, _, active, mutable⟩ := Action.bind_eq_ok.mp mutable
  obtain ⟨running, rfl⟩ := Action.assert_eq_ok.mp active
  have looks : Looks (do
      Action.assert fun self => self.sealed = false
      Action.assert fun self => self.attemptOpen = true) :=
    (Looks.assert _).bind fun _ => Looks.assert _
  have same : self = middle := looks.eq_of_ok mutable
  subst same
  obtain ⟨_, _, flat, rest⟩ := Action.bind_eq_ok.mp rest
  obtain ⟨depth, rfl⟩ := Action.assert_eq_ok.mp flat
  obtain ⟨_, rooted, opens, rest⟩ := Action.bind_eq_ok.mp rest
  have rootedEq := openRoot_ran opens
  subst rootedEq
  cases rest
  exact ⟨running, depth, rfl⟩

theorem closeSession_ran (ran : closeSession self = .ok () after) :
    Running self ∧ self.scopeDepth = 1 ∧ after = rescoped (self.clock + 1) 0 self := by
  unfold closeSession assertSession at ran
  obtain ⟨_, _, session, rest⟩ := Action.bind_eq_ok.mp ran
  obtain ⟨_, _, active, session⟩ := Action.bind_eq_ok.mp session
  obtain ⟨running, rfl⟩ := Action.assert_eq_ok.mp active
  obtain ⟨-, rfl⟩ := Action.assert_eq_ok.mp session
  obtain ⟨_, _, flat, rest⟩ := Action.bind_eq_ok.mp rest
  obtain ⟨depth, rfl⟩ := Action.assert_eq_ok.mp flat
  obtain ⟨_, rooted, opens, rest⟩ := Action.bind_eq_ok.mp rest
  have rootedEq := openRoot_ran opens
  subst rootedEq
  cases rest
  exact ⟨running, depth, rfl⟩

theorem Since.rescope (since : Since env start state) (root : Generation) (scopeDepth : Nat) :
    Since env start (rescoped root scopeDepth state) := by
  have rows : SameRows state (rescoped root scopeDepth state) := ⟨rfl, rfl, rfl, rfl, rfl, rfl⟩
  exact since.same rows (rescoped_inv since.inv since.running (Nat.zero_le _)) rfl rfl
    (Nat.le_succ _) rfl rfl rfl rfl rfl rfl

/-! ## Sealing -/

theorem accountMark_eq_rowMark {marked : AccountCell → Bool} {rowMarked : AccountRow → Bool}
    (same : ∀ row : AccountRow, marked row.cell = rowMarked row) (id : AccountId) :
    self.accountMark env marked id = self.rowMark rowMarked id := by
  rw [accountMark, rowMark]
  cases key : self.world.accounts.key id with
  | none =>
      cases held : self.world.accounts.row id with
      | none => rfl
      | some row =>
          obtain ⟨address, found⟩ := Table.key_eq_some_of_row held
          rw [key] at found
          cases found
  | some address =>
      obtain ⟨row, held⟩ := Table.row_eq_some_of_key key
      rw [held]
      simp only [Option.map_some, Option.getD_some, view]
      rw [accountAt_of_row key held, same]

/-- What `sealAttempt` leaves behind. -/
def afterSeal (self : WorldState) : WorldState :=
  { self with
    changedStorage := self.changedStorage.filter self.slotLive
    transactionStorageWipes :=
      if self.transactionScopeReverted then
        compact (self.rowMark self.wipedNow) self.transactionStorageWipes
      else self.transactionStorageWipes
    sealed := true
    attemptOpen := false }

theorem assertCurrent_ran (ran : assertCurrent attempt self = .ok () after) :
    self.transactionActive = true ∧ self.lifetime.transaction = attempt ∧ self = after := by
  unfold assertCurrent at ran
  obtain ⟨_, _, active, rest⟩ := Action.bind_eq_ok.mp ran
  obtain ⟨running, rfl⟩ := Action.assert_eq_ok.mp active
  obtain ⟨current, rfl⟩ := Action.assert_eq_ok.mp rest
  exact ⟨running, current, rfl⟩

theorem lifecycleSettled_ran {ids : List AccountId}
    (ran : Action.forEach (fun id => do
      let row ← accountRow id
      Action.assert fun _ => row.flags.created = false ∧ row.flags.selfdestructed = false) ids
        self = .ok () after) : self = after := by
  induction ids with
  | nil =>
      cases ran
      rfl
  | cons id ids ih =>
      unfold Action.forEach at ran
      obtain ⟨_, _, first, rest⟩ := Action.bind_eq_ok.mp ran
      obtain ⟨row, _, looked, asserted⟩ := Action.bind_eq_ok.mp first
      obtain ⟨-, rfl⟩ := accountRow_eq_ok.mp looked
      obtain ⟨-, rfl⟩ := Action.assert_eq_ok.mp asserted
      exact ih rest

theorem sealAttempt_ran (transaction : self.lifetime.transaction ≠ 0)
    (ran : sealAttempt attempt self = .ok () after) :
    self.sealed = false ∧ ¬self.SessionActive ∧ after = self.afterSeal := by
  unfold sealAttempt at ran
  obtain ⟨_, _, current, rest⟩ := Action.bind_eq_ok.mp ran
  obtain ⟨-, -, rfl⟩ := assertCurrent_ran current
  obtain ⟨_, _, unsealed, rest⟩ := Action.bind_eq_ok.mp rest
  obtain ⟨notSealed, rfl⟩ := Action.assert_eq_ok.mp unsealed
  obtain ⟨_, _, noSession, rest⟩ := Action.bind_eq_ok.mp rest
  obtain ⟨closed, rfl⟩ := Action.assert_eq_ok.mp noSession
  rw [Action.bind_run, Action.get_run] at rest
  dsimp only at rest
  obtain ⟨_, _, settled, rest⟩ := Action.bind_eq_ok.mp rest
  have same := lifecycleSettled_ran settled
  subst same
  obtain ⟨_, compacted, changes, rest⟩ := Action.bind_eq_ok.mp rest
  unfold compactTransactionStorageChanges at changes
  rw [Action.bind_run, Action.get_run] at changes
  dsimp only at changes
  obtain ⟨kept, _, live, wrote⟩ := Action.bind_eq_ok.mp changes
  obtain ⟨rfl, rfl⟩ := liveSlots_ran live
  cases wrote
  refine ⟨notSealed, closed, ?_⟩
  obtain ⟨_, wiped, wipes, rest⟩ := Action.bind_eq_ok.mp rest
  cases rest
  unfold Action.when at wipes
  split at wipes
  · rename_i reverted
    dsimp only at wipes
    rw [compactTransactionStorageWipes_ran (by exact transaction) wipes, afterSeal,
      if_pos reverted]
    rfl
  · rename_i reverted
    cases wipes
    rw [afterSeal, if_neg reverted]

theorem compacted_tracked {marked : AccountId → Bool} {items : List AccountId} {takenBack : Prop}
    (held : Tracked (fun id => marked id = true) items 0 takenBack) (holds : takenBack) :
    Tracked (fun id => marked id = true) (compact marked items) 0 takenBack where
  inside := Nat.zero_le _
  listed id isMarked := mem_compact.mpr ⟨held.listed id isMarked, isMarked⟩
  kept _ member := absurd member List.not_mem_nil
  once := List.nodup_nil
  apart _ _ := List.not_mem_nil
  exact notTaken := absurd holds notTaken

/-- A step that assigns to no row keeps the invariant when its lists do. -/
theorem Inv.of_rows {base : Nat} (inv : Inv env base scope self) (running : Running self)
    (rows : SameRows self after) (lists : Lists env after)
    (lifetime : after.lifetime = self.lifetime) (clock : after.clock = self.clock)
    (journal : after.journal = self.journal) (code : after.code = self.code)
    (introduced : after.blockIntroducedCodes = self.blockIntroducedCodes)
    (acceptedLen : after.acceptedLen = self.acceptedLen)
    (transactionActive : after.transactionActive = self.transactionActive) :
    Inv env base scope after := by
  have active := inv.active running
  have isRunning : after.transactionActive = true := transactionActive.trans running
  refine ⟨by rw [journal]; exact inv.inside, by rw [lifetime]; exact inv.scope, ?_,
    rows.stamps clock.symm.le inv.stamps, fun _ => ?_, fun idle => ?_⟩
  · rw [clock, rows.view]
    exact inv.consistent
  · refine ⟨?_, ?_, ?_, ?_, rows.handles active.handles, ?_, ⟨?_, ?_⟩, ?_, ⟨?_, ?_⟩, lists⟩
    · rw [lifetime]
      exact active.transaction
    · rw [lifetime, clock]
      exact active.transactionPast
    · rw [lifetime]
      exact active.scope
    · rw [lifetime, clock]
      exact active.scopePast
    · rw [journal]
      exact fun entry member => rows.grows.entryValid (active.entries entry member)
    · intro address
      rw [rows.view, rows.log journal active.entries, lifetime]
      exact active.covered.account address
    · intro address place
      rw [rows.view, rows.log journal active.entries, lifetime]
      exact active.covered.slot address place
    · rw [rows.view, lifetime]
      exact active.settling
    · rw [introduced, code]
      exact active.introduced.list
    · rw [code, acceptedLen, journal]
      exact active.introduced.count
  · rw [idle] at isRunning
    cases isRunning

theorem afterSeal_inv {base : Nat} (inv : Inv env base scope self) (running : Running self) :
    Inv env base scope self.afterSeal := by
  have rows : SameRows self self.afterSeal := ⟨rfl, rfl, rfl, rfl, rfl, rfl⟩
  obtain ⟨changes, wipes, dirty, transactionWipes⟩ := (inv.active running).lists
  have lists : Lists env self.afterSeal := by
    refine ⟨changes.congr fun id => by rw [rows.accountMark],
      wipes.congr fun id => by rw [rows.accountMark],
      dirty.congr fun id => by rw [rows.slotMark], ?_⟩
    have marks : ∀ id, self.afterSeal.accountMark env
        (wipedMark self.afterSeal.lifetime.transaction) id = true ↔
        self.accountMark env (wipedMark self.lifetime.transaction) id = true := by
      intro id
      rw [rows.accountMark]
      rfl
    refine Tracked.congr marks ?_
    unfold afterSeal
    dsimp only
    split
    · rename_i reverted
      have sameMark : self.rowMark self.wipedNow =
          self.accountMark env (wipedMark self.lifetime.transaction) := by
        funext id
        rw [accountMark_eq_rowMark]
        intro row
        rfl
      rw [sameMark]
      exact compacted_tracked transactionWipes reverted
    · exact transactionWipes
  exact inv.of_rows running rows lists rfl rfl rfl rfl rfl rfl rfl

theorem Since.seal (since : Since env start state) : Since env start state.afterSeal := by
  have rows : SameRows state state.afterSeal := ⟨rfl, rfl, rfl, rfl, rfl, rfl⟩
  exact since.same rows (afterSeal_inv since.inv since.running) rfl rfl (Nat.le_refl _) rfl rfl rfl
    rfl rfl rfl

/-! ## Ending -/

/-- What has to hold of the rows and the lists for an attempt to end on them. -/
structure Settled (env : Env) (state : WorldState) : Prop where
  consistent : Consistent env state.clock (state.view env)
  stamps : RowStamps state
  current : ∀ address slot, (state.view env (.slot address slot)).flags.blockDirty = true →
    (state.view env (.slot address slot)).storageIncarnation =
      (state.view env (.account address)).storageIncarnation
  introduced : state.blockIntroducedCodes = List.range state.code.introduced.count
  changes : Exact (fun id => state.accountMark env blockChangedMark id = true)
    state.blockChangedAccounts
  wipes : Exact (fun id => state.accountMark env storageWipedMark id = true)
    state.blockStorageWipes
  dirty : Exact (fun id => state.slotMark env blockDirtyMark id = true) state.dirtyStorage

theorem finishTransaction_inv (settled : Settled env state) :
    Inv env 0 0 (finishTransaction state) := by
  have world : (finishTransaction state).world = state.world := rfl
  have cells : ∀ cell, Accepted cell →
      (finishTransaction state).view env cell = state.view env cell :=
    fun cell => view_of_world world
  refine ⟨Nat.zero_le _, rfl, settled.consistent.of_accepted cells,
    settled.stamps.of_world world (Nat.le_refl _), (fun contradiction => nomatch contradiction), ?_⟩
  intro _
  refine ⟨rfl, rfl, rfl, rfl, rfl, rfl, rfl, rfl, ?_, settled.introduced,
    settled.changes.congr fun id => ?_, settled.wipes.congr fun id => ?_,
    settled.dirty.congr fun id => ?_⟩
  · intro address slot
    rw [cells (.slot address slot) trivial, cells (.account address) trivial]
    exact settled.current address slot
  · rw [accountMark_of_world world]
  · rw [accountMark_of_world world]
  · rw [slotMark_of_world world]

/-! ### Discarding -/

/-- The state a discarded attempt leaves behind. -/
structure Discarded (env : Env) (start state after : WorldState) : Prop where
  inv : Inv env 0 0 after
  idle : after.transactionActive = false
  cells : ∀ cell, Accepted cell → after.view env cell = start.view env cell
  blockChangedAccounts : after.blockChangedAccounts = start.blockChangedAccounts
  blockStorageWipes : after.blockStorageWipes = start.blockStorageWipes
  dirtyStorage : after.dirtyStorage = start.dirtyStorage
  blockIntroducedCodes : after.blockIntroducedCodes = start.blockIntroducedCodes
  code : after.code = start.code
  clock : after.clock = state.clock
  worldEpoch : after.worldEpoch = start.worldEpoch
  accountKey : ∀ id address, start.world.accounts.key id = some address →
    after.world.accounts.key id = some address
  storageKey : ∀ id key, start.world.storage.key id = some key →
    after.world.storage.key id = some key
  accountKept : ∀ id address, state.world.accounts.key id = some address →
    after.world.accounts.key id = some address
  storageKept : ∀ id key, state.world.storage.key id = some key →
    after.world.storage.key id = some key

theorem Since.undoable (since : Since env start state) : Undoable state := by
  have active := since.inv.active since.running
  exact {
    transaction := active.transaction
    handles := active.handles
    stamps := since.inv.stamps
    entries := active.entries
    introduced := active.introduced }

theorem discardAttempt_run (since : Since env start state) (inv : Inv env 0 scope start)
    (notActive : start.transactionActive = false) (closed : ¬state.SessionActive) :
    ∃ after, discardAttempt state.lifetime.transaction state = .ok () after ∧
      Discarded env start state after := by
  have active := since.inv.active since.running
  have idle := inv.idle notActive
  obtain ⟨middle, ran, rewound⟩ : ∃ after, revertJournalTo 0 state = .ok () after ∧
      Rewound env state.journal state after :=
    revertJournalTo_run since.undoable (List.append_nil _).symm rfl
  have left : middle.journal = [] := rewound.left_journal (List.append_nil _).symm
  have cells : ∀ cell, Accepted cell → middle.view env cell = start.view env cell := by
    intro cell accepted
    rw [rewound.view]
    exact since.unwound cell accepted
  have account : ∀ address, middle.view env (.account address) =
      start.view env (.account address) := fun address => cells _ trivial
  have slot : ∀ address slot, middle.view env (.slot address slot) =
      start.view env (.slot address slot) := fun address slot => cells _ trivial
  have begunIntroduced : Introduced (begun false start) :=
    ((begun_inv inv notActive).active rfl).introduced
  have beganEmpty : (begun false start).journal = [] := idle.journal
  obtain ⟨codeEq, listEq⟩ := code_of_introduced begunIntroduced
    (rewound.introduced active.introduced) (left.trans beganEmpty.symm)
    (rewound.control.acceptedLen.trans since.acceptedLen) since.introduced rewound.code
    (rewound.parentCode.trans since.parentCode)
  let shortened : WorldState := { middle with
    blockChangedAccounts :=
      middle.blockChangedAccounts.take middle.acceptedLen.blockChangedAccounts
    blockStorageWipes := middle.blockStorageWipes.take middle.acceptedLen.blockStorageWipes
    dirtyStorage := middle.dirtyStorage.take middle.acceptedLen.dirtyStorage
    blockIntroducedCodes :=
      middle.blockIntroducedCodes.take middle.acceptedLen.blockIntroducedCodes }
  have acceptedLen : middle.acceptedLen = start.lengths :=
    rewound.control.acceptedLen.trans since.acceptedLen
  have changes : shortened.blockChangedAccounts = start.blockChangedAccounts := by
    show middle.blockChangedAccounts.take middle.acceptedLen.blockChangedAccounts = _
    rw [acceptedLen, rewound.blockChangedAccounts]
    exact (List.prefix_iff_eq_take.mp since.blockChangedAccounts).symm
  have wipes : shortened.blockStorageWipes = start.blockStorageWipes := by
    show middle.blockStorageWipes.take middle.acceptedLen.blockStorageWipes = _
    rw [acceptedLen, rewound.blockStorageWipes]
    exact (List.prefix_iff_eq_take.mp since.blockStorageWipes).symm
  have dirty : shortened.dirtyStorage = start.dirtyStorage := by
    show middle.dirtyStorage.take middle.acceptedLen.dirtyStorage = _
    rw [acceptedLen, rewound.dirtyStorage]
    exact (List.prefix_iff_eq_take.mp since.dirtyStorage).symm
  have introduced : shortened.blockIntroducedCodes = start.blockIntroducedCodes := by
    show middle.blockIntroducedCodes.take middle.acceptedLen.blockIntroducedCodes = _
    rw [acceptedLen, listEq]
    exact List.take_length
  have clock : middle.clock = state.clock := rewound.control.clock
  have grows : Grows (begun false start) middle := since.grows.trans rewound.grows
  have world : shortened.world = middle.world := rfl
  have begunAccount : ∀ address, (begun false start).view env (.account address) =
      start.view env (.account address) := fun address => view_of_world rfl trivial
  have begunSlot : ∀ address place, (begun false start).view env (.slot address place) =
      start.view env (.slot address place) := fun address place => view_of_world rfl trivial
  have accountMark : ∀ {marked : AccountCell → Bool},
      (∀ current, marked (AccountRow.admitted current).cell = false) → ∀ id,
      shortened.accountMark env marked id = start.accountMark env marked id := by
    intro marked fresh id
    rw [accountMark_of_world world, grows.accountMark fresh fun address _ => ?_]
    · exact accountMark_of_world rfl marked id
    · rw [account, begunAccount]
  have slotMark : ∀ id, shortened.slotMark env blockDirtyMark id =
      start.slotMark env blockDirtyMark id := by
    intro id
    rw [slotMark_of_world world, grows.slotMark (fun _ => rfl) fun address place _ => ?_]
    · exact slotMark_of_world rfl blockDirtyMark id
    · rw [slot, begunSlot]
  have settled : Settled env shortened := {
    consistent := by
      show Consistent env middle.clock (middle.view env)
      rw [clock]
      exact (inv.consistent.mono since.clock).of_accepted cells
    stamps := RowStamps.of_world world (Nat.le_refl _) (rewound.stamps since.inv.stamps)
    current := by
      show ∀ address slot, (middle.view env (.slot address slot)).flags.blockDirty = true → _
      intro address place
      show _ → (middle.view env (.slot address place)).storageIncarnation =
        (middle.view env (.account address)).storageIncarnation
      rw [account, slot]
      exact idle.current address place
    introduced := by
      rw [introduced, idle.introduced]
      show _ = List.range middle.code.introduced.count
      rw [codeEq]
      rfl
    changes := by
      rw [changes]
      exact idle.changes.congr fun id => by rw [accountMark fun _ => rfl]
    wipes := by
      rw [wipes]
      exact idle.wipes.congr fun id => by rw [accountMark fun _ => rfl]
    dirty := by
      rw [dirty]
      exact idle.dirty.congr fun id => by rw [slotMark] }
  refine ⟨finishTransaction shortened, ?_, ?_⟩
  · have current : assertCurrent state.lifetime.transaction state = .ok () state := by
      have running : state.transactionActive = true := since.running
      simp only [assertCurrent, Action.bind_run, Action.assert, if_pos running, if_true]
    rw [discardAttempt, Action.bind_run, current]
    dsimp only
    simp only [Action.bind_run, Action.assert, if_pos closed, ran]
    rfl
  · exact {
      inv := finishTransaction_inv settled
      idle := rfl
      cells := fun cell accepted =>
        (view_of_world (show (finishTransaction shortened).world = middle.world from rfl)
          accepted).trans (cells cell accepted)
      blockChangedAccounts := changes
      blockStorageWipes := wipes
      dirtyStorage := dirty
      blockIntroducedCodes := introduced
      code := codeEq
      clock := clock
      worldEpoch := rewound.control.worldEpoch.trans since.worldEpoch
      accountKey := grows.accountKey
      storageKey := grows.storageKey
      accountKept := rewound.grows.accountKey
      storageKept := rewound.grows.storageKey }

/-! ### Retaining -/

/-- The row id of a slot. -/
def slotIdAt (self : WorldState) (address : Address) (slot : U256) : Option StorageId :=
  (self.world.accounts.find address).bind fun account => self.world.storage.find { account, slot }

theorem storageAt_eq_row (address : Address) (slot : U256) :
    self.storageAt env address slot =
      ((self.slotIdAt address slot).bind self.world.storage.row).getD
        { current := env.parentStorage address slot } := by
  rw [storageAt, slotIdAt]
  cases self.world.accounts.find address with
  | none => rfl
  | some account => rfl

theorem slotOf_slotIdAt {address : Address} {slot : U256}
    (found : self.slotIdAt address slot = some id) : self.slotOf id = some (address, slot) := by
  obtain ⟨account, foundAccount, foundSlot⟩ := Option.bind_eq_some_iff.mp found
  exact slotOf_eq_some.mpr
    ⟨account, Table.find_eq_some.mp foundSlot, Table.find_eq_some.mp foundAccount⟩

theorem slotMark_eq_slotDirty (stamps : RowStamps self) (id : StorageId) :
    self.slotMark env blockDirtyMark id = self.slotDirty id := by
  rw [slotMark, slotDirty]
  cases held : self.world.storage.row id with
  | none =>
      cases place : self.slotOf id with
      | none => rfl
      | some found =>
          obtain ⟨account, key, -⟩ := slotOf_eq_some.mp place
          obtain ⟨row, rowEq⟩ := Table.row_eq_some_of_key key
          rw [held] at rowEq
          cases rowEq
  | some row =>
      obtain ⟨key, keyEq⟩ := Table.key_eq_some_of_row held
      obtain ⟨address, addressEq⟩ := Option.isSome_iff_exists.mp (stamps.owner id key keyEq)
      have place : self.slotOf id = some (address, key.slot) :=
        slotOf_eq_some.mpr ⟨key.account, keyEq, addressEq⟩
      rw [place]
      simp only [Option.map_some, Option.getD_some, view]
      rw [storageAt_of_row place held]
      rfl

/-- Liveness read off the cells. -/
theorem slotLive_eq {address : Address} {slot : U256}
    (place : self.slotOf id = some (address, slot)) :
    self.slotLive id = decide ((self.view env (.slot address slot)).storageIncarnation =
      (self.view env (.account address)).storageIncarnation) := by
  obtain ⟨account, keyEq, addressEq⟩ := slotOf_eq_some.mp place
  obtain ⟨row, held⟩ := Table.row_eq_some_of_key keyEq
  obtain ⟨accountRow, accountHeld⟩ := Table.row_eq_some_of_key addressEq
  have slotCell : self.view env (.slot address slot) = row.cell := by
    simp only [view]
    rw [storageAt_of_row place held]
  have accountCell : self.view env (.account address) = accountRow.cell := by
    simp only [view]
    rw [accountAt_of_row addressEq accountHeld]
  rw [slotLive, held, keyEq, slotCell, accountCell]
  simp only [Option.bind_some, accountHeld, Option.map_some, Option.getD_some]
  rfl

/-- A dirty slot a wipe left behind is listed where the scan looks. -/
theorem stale_scanned (inv : Inv env 0 self.lifetime.scope self) (running : Running self)
    (dirty : self.slotDirty id = true) (stale : self.slotLive id = false) :
    self.transactionStorageWipes ≠ [] ∧ id ∈ self.dirtyStorage := by
  have active := inv.active running
  have marked : self.slotMark env blockDirtyMark id = true := by
    rw [slotMark_eq_slotDirty inv.stamps, dirty]
  refine ⟨?_, active.lists.dirty.listed id marked⟩
  intro none
  rw [slotMark] at marked
  cases place : self.slotOf id with
  | none =>
      rw [place] at marked
      cases marked
  | some found =>
      obtain ⟨address, slot⟩ := found
      rw [place] at marked
      rw [slotLive_eq place, decide_eq_false_iff_not] at stale
      rcases active.settling.current address slot marked with live | wiped
      · exact stale live
      · obtain ⟨account, -, addressEq⟩ := slotOf_eq_some.mp place
        have listed := active.lists.transactionWipes.listed account (by
          rw [accountMark, addressEq]
          exact decide_eq_true wiped)
        rw [none] at listed
        exact absurd listed List.not_mem_nil

/-- Stale slots lose their dirty flag, and nothing else happens to the rows. -/
def Swept (before after : WorldState) : Prop :=
  Scanned StorageRow.clearDirty before after fun id => before.slotDirty id && !before.slotLive id

theorem Swept.slotIdAt (swept : Swept before after) (address : Address) (slot : U256) :
    after.slotIdAt address slot = before.slotIdAt address slot := by
  have find : ∀ key, after.world.storage.find key = before.world.storage.find key := by
    intro key
    cases found : before.world.storage.find key with
    | none =>
        rw [Table.find_eq_none] at found ⊢
        intro index
        rw [swept.key]
        exact found index
    | some id =>
        rw [Table.find_eq_some] at found ⊢
        rw [swept.key, found]
  rw [WorldState.slotIdAt, WorldState.slotIdAt, swept.accounts]
  cases before.world.accounts.find address with
  | none => rfl
  | some account => exact find _

theorem Swept.account (swept : Swept before after) (address : Address) :
    after.accountAt env address = before.accountAt env address := by
  rw [accountAt, accountAt, swept.accounts]

theorem Swept.slot (swept : Swept before after) (address : Address) (slot : U256) :
    (after.storageAt env address slot = before.storageAt env address slot ∧
        ((before.view env (.slot address slot)).flags.blockDirty = true →
          (before.view env (.slot address slot)).storageIncarnation =
            (before.view env (.account address)).storageIncarnation)) ∨
      ((before.view env (.slot address slot)).flags.blockDirty = true ∧
        (before.view env (.slot address slot)).storageIncarnation ≠
          (before.view env (.account address)).storageIncarnation ∧
        after.storageAt env address slot = (before.storageAt env address slot).clearDirty) := by
  rw [storageAt_eq_row, swept.slotIdAt, storageAt_eq_row]
  cases found : before.slotIdAt address slot with
  | none =>
      refine .inl ⟨rfl, fun dirty => ?_⟩
      simp only [view] at dirty
      rw [storageAt_eq_row, found] at dirty
      cases dirty
  | some id =>
      simp only [Option.bind_some]
      rw [swept.row]
      have place := slotOf_slotIdAt found
      cases held : before.world.storage.row id with
      | none =>
          obtain ⟨account, keyEq, -⟩ := slotOf_eq_some.mp place
          obtain ⟨row, rowEq⟩ := Table.row_eq_some_of_key keyEq
          rw [held] at rowEq
          cases rowEq
      | some row =>
          have dirtyEq : before.slotDirty id = row.flags.blockDirty := by
            rw [slotDirty, held]
            rfl
          have cell : before.view env (.slot address slot) = row.cell := by
            simp only [view]
            rw [storageAt_of_row place held]
          split
          · rename_i touched
            rw [Bool.and_eq_true, Bool.not_eq_true', slotLive_eq place,
              decide_eq_false_iff_not, dirtyEq] at touched
            refine .inr ⟨?_, touched.2, rfl⟩
            rw [cell]
            exact touched.1
          · rename_i untouched
            refine .inl ⟨rfl, fun dirty => ?_⟩
            by_contra stale
            rw [cell] at dirty
            apply untouched
            have isStale : before.slotLive id = false := by
              rw [slotLive_eq place, decide_eq_false stale]
            rw [isStale, dirtyEq]
            exact (Bool.and_true _).trans dirty

/-- The compaction of the accepted slot list, and the list it leaves. -/
theorem acceptedStorage_swept (inv : Inv env 0 self.lifetime.scope self) (running : Running self)
    (ran : Action.when (self.transactionScopeReverted = true ∨ self.transactionStorageWipes ≠ [])
      compactAcceptedStorageChanges self = .ok () after) :
    ∃ middle dirtyStorage, Swept self middle ∧ after = { middle with dirtyStorage } ∧
      Exact (fun id => (self.slotDirty id && self.slotLive id) = true) dirtyStorage := by
  have active := inv.active running
  have dirtyMark : ∀ id, self.slotMark env blockDirtyMark id = true ↔ self.slotDirty id = true := by
    intro id
    rw [slotMark_eq_slotDirty inv.stamps]
  have tracked := active.lists.dirty.congr fun id => (dirtyMark id).symm
  unfold Action.when at ran
  split at ran
  · rename_i compacts
    obtain ⟨start, middle, startEq, scanned, rfl⟩ := compactAcceptedStorageChanges_ran ran
    refine ⟨middle, _, scanned.congr fun id => ?_, rfl, ?_⟩
    · -- every stale slot lies in the part of the list that was scanned
      cases dirty : self.slotDirty id with
      | false => simp
      | true =>
          cases live : self.slotLive id with
          | true => simp
          | false =>
              obtain ⟨wiped, listed⟩ := stale_scanned inv running dirty live
              rw [if_pos wiped] at startEq
              rw [startEq, List.drop_zero, decide_eq_true listed]
              rfl
    · by_cases wiped : self.transactionStorageWipes ≠ []
      · rw [if_pos wiped] at startEq
        rw [startEq, List.take_zero, List.drop_zero, List.nil_append]
        refine ⟨?_, fun id => ?_⟩
        · cases reverted : self.transactionScopeReverted with
          | true => exact nodup_compact _ _
          | false =>
              exact (tracked.exact (by rw [reverted]; exact Bool.false_ne_true)).nodup.filter _
        · rw [mem_keptSlots]
          constructor
          · exact fun kept => kept.2
          · intro isMarked
            exact ⟨tracked.listed id (Bool.and_eq_true .. ▸ isMarked).1, isMarked⟩
      · rw [if_neg wiped] at startEq
        have reverted : self.transactionScopeReverted = true := compacts.resolve_right wiped
        have allLive : (fun id => self.slotDirty id && self.slotLive id) = self.slotDirty := by
          funext id
          cases dirty : self.slotDirty id with
          | false => rfl
          | true =>
              cases live : self.slotLive id with
              | true => rfl
              | false => exact absurd (stale_scanned inv running dirty live).1 wiped
        rw [startEq, reverted, keptSlots, if_pos rfl, allLive]
        refine tracked.compacted.congr fun id => ?_
        rw [show (self.slotDirty id && self.slotLive id) = self.slotDirty id from
          congrFun allLive id]
  · rename_i skips
    obtain rfl : self = after := by
      cases ran
      rfl
    rw [not_or, not_not, Bool.not_eq_true] at skips
    obtain ⟨notReverted, noWipes⟩ := skips
    have noStale : ∀ id, (self.slotDirty id && !self.slotLive id) = false := by
      intro id
      cases dirty : self.slotDirty id with
      | false => rfl
      | true =>
          cases live : self.slotLive id with
          | true => rfl
          | false => exact absurd noWipes (stale_scanned inv running dirty live).1
    refine ⟨_, _, Scanned.refl.congr noStale, rfl, ?_⟩
    refine (tracked.exact (by rw [notReverted]; exact Bool.false_ne_true)).congr fun id => ?_
    have stale := noStale id
    cases live : self.slotLive id with
    | true => rw [Bool.and_true]
    | false =>
        rw [live, Bool.not_false, Bool.and_true] at stale
        rw [stale]
        rfl

/-- The state a retained attempt leaves behind. -/
structure Retained (env : Env) (state after : WorldState) : Prop where
  inv : Inv env 0 0 after
  idle : after.transactionActive = false
  accounts : after.world.accounts = state.world.accounts
  slot : ∀ address slot, after.storageAt env address slot = state.storageAt env address slot ∨
    after.storageAt env address slot = (state.storageAt env address slot).clearDirty
  code : after.code = state.code
  clock : after.clock = state.clock
  worldEpoch : after.worldEpoch = state.worldEpoch

/-- The two compactions of account lists, made where a scope was reverted. -/
def compactedAccounts (self : WorldState) : WorldState :=
  { self with
    blockChangedAccounts :=
      if self.transactionScopeReverted then
        self.blockChangedAccounts.take self.acceptedLen.blockChangedAccounts ++
          compact (self.rowMark (·.flags.blockChanged))
            (self.blockChangedAccounts.drop self.acceptedLen.blockChangedAccounts)
      else self.blockChangedAccounts
    blockStorageWipes :=
      if self.transactionScopeReverted then
        self.blockStorageWipes.take self.acceptedLen.blockStorageWipes ++
          compact (self.rowMark (·.flags.storageWiped))
            (self.blockStorageWipes.drop self.acceptedLen.blockStorageWipes)
      else self.blockStorageWipes }

theorem retainAttempt_parts (ran : retainAttempt attempt self = .ok () after) :
    self.sealed = true ∧ ¬self.SessionActive ∧ ∃ last,
      Action.when (self.transactionScopeReverted = true ∨ self.transactionStorageWipes ≠ [])
        compactAcceptedStorageChanges
        (compactedAccounts { self with logs := self.retainedLogs, retainedLogs := self.logs }) =
          .ok () last ∧
      after = finishTransaction last := by
  unfold retainAttempt at ran
  obtain ⟨_, _, current, rest⟩ := Action.bind_eq_ok.mp ran
  obtain ⟨-, -, rfl⟩ := assertCurrent_ran current
  obtain ⟨_, _, sealedCheck, rest⟩ := Action.bind_eq_ok.mp rest
  obtain ⟨isSealed, rfl⟩ := Action.assert_eq_ok.mp sealedCheck
  obtain ⟨_, _, noSession, rest⟩ := Action.bind_eq_ok.mp rest
  obtain ⟨closed, rfl⟩ := Action.assert_eq_ok.mp noSession
  rw [Action.bind_run, Action.modify_run] at rest
  dsimp only at rest
  rw [Action.bind_run, Action.get_run] at rest
  dsimp only at rest
  obtain ⟨_, changed, changes, rest⟩ := Action.bind_eq_ok.mp rest
  obtain ⟨_, wiped, wipes, rest⟩ := Action.bind_eq_ok.mp rest
  obtain ⟨_, last, dirty, rest⟩ := Action.bind_eq_ok.mp rest
  cases rest
  refine ⟨isSealed, closed, last, ?_, rfl⟩
  have accounts : wiped =
      compactedAccounts { self with logs := self.retainedLogs, retainedLogs := self.logs } := by
    unfold Action.when at changes wipes
    by_cases reverted : self.transactionScopeReverted = true
    · rw [if_pos reverted] at changes wipes
      rw [compactAcceptedStorageWipes_ran wipes, compactAcceptedAccountChanges_ran changes]
      simp only [compactedAccounts, if_pos reverted]
      rfl
    · rw [if_neg reverted] at changes wipes
      cases changes
      cases wipes
      simp only [compactedAccounts, if_neg reverted]
  rw [← accounts]
  exact dirty

/-- The lists of accounts are exact after their compaction. -/
theorem compactedAccounts_exact (inv : Inv env 0 self.lifetime.scope self) (running : Running self) :
    Exact (fun id => self.accountMark env blockChangedMark id = true)
        self.compactedAccounts.blockChangedAccounts ∧
      Exact (fun id => self.accountMark env storageWipedMark id = true)
        self.compactedAccounts.blockStorageWipes := by
  have active := inv.active running
  have changed : self.accountMark env blockChangedMark = self.rowMark (·.flags.blockChanged) :=
    funext fun id => accountMark_eq_rowMark (fun _ => rfl) id
  have wiped : self.accountMark env storageWipedMark = self.rowMark (·.flags.storageWiped) :=
    funext fun id => accountMark_eq_rowMark (fun _ => rfl) id
  by_cases reverted : self.transactionScopeReverted = true
  · simp only [compactedAccounts, if_pos reverted, ← changed, ← wiped]
    exact ⟨active.lists.changes.compacted, active.lists.wipes.compacted⟩
  · simp only [compactedAccounts, if_neg reverted]
    exact ⟨active.lists.changes.exact reverted, active.lists.wipes.exact reverted⟩

theorem compactedAccounts_inv (inv : Inv env 0 self.lifetime.scope self) (running : Running self) :
    Inv env 0 self.lifetime.scope self.compactedAccounts := by
  have rows : SameRows self self.compactedAccounts := ⟨rfl, rfl, rfl, rfl, rfl, rfl⟩
  obtain ⟨changes, wipes, dirty, transactionWipes⟩ := (inv.active running).lists
  obtain ⟨exactChanges, exactWipes⟩ := compactedAccounts_exact inv running
  have insideChanges : self.acceptedLen.blockChangedAccounts ≤
      self.compactedAccounts.blockChangedAccounts.length := by
    have inside := changes.inside
    simp only [compactedAccounts]
    split
    · rw [List.length_append, List.length_take]
      omega
    · exact inside
  have insideWipes : self.acceptedLen.blockStorageWipes ≤
      self.compactedAccounts.blockStorageWipes.length := by
    have inside := wipes.inside
    simp only [compactedAccounts]
    split
    · rw [List.length_append, List.length_take]
      omega
    · exact inside
  exact inv.of_rows running rows
    ⟨(exactChanges.congr fun id => by rw [rows.accountMark]).tracked_of_le insideChanges _,
      (exactWipes.congr fun id => by rw [rows.accountMark]).tracked_of_le insideWipes _,
      dirty.congr fun id => by rw [rows.slotMark],
      transactionWipes.congr fun id => by rw [rows.accountMark]; rfl⟩ rfl rfl rfl rfl rfl rfl rfl

theorem swappedLogs_inv (inv : Inv env 0 self.lifetime.scope self) (running : Running self)
    (logs retainedLogs : LogBuffer) :
    Inv env 0 self.lifetime.scope { self with logs, retainedLogs } := by
  have rows : SameRows self { self with logs, retainedLogs } := ⟨rfl, rfl, rfl, rfl, rfl, rfl⟩
  obtain ⟨changes, wipes, dirty, transactionWipes⟩ := (inv.active running).lists
  exact inv.of_rows running rows ⟨changes.congr fun id => by rw [rows.accountMark],
    wipes.congr fun id => by rw [rows.accountMark], dirty.congr fun id => by rw [rows.slotMark],
    transactionWipes.congr fun id => by rw [rows.accountMark]⟩ rfl rfl rfl rfl rfl rfl rfl

theorem Swept.settled {list : List StorageId} (inv : Inv env 0 self.lifetime.scope self)
    (running : Running self) (swept : Swept self after)
    (introduced : after.blockIntroducedCodes = List.range after.code.introduced.count)
    (clock : after.clock = self.clock)
    (changes : Exact (fun id => self.accountMark env blockChangedMark id = true)
      after.blockChangedAccounts)
    (wipes : Exact (fun id => self.accountMark env storageWipedMark id = true)
      after.blockStorageWipes)
    (dirty : Exact (fun id => (self.slotDirty id && self.slotLive id) = true) list) :
    Settled env { after with dirtyStorage := list } := by
  have active := inv.active running
  have account : ∀ address, after.view env (.account address) = self.view env (.account address) := by
    intro address
    simp only [view]
    rw [swept.account]
  have accountMark : ∀ marked id,
      after.accountMark env marked id = self.accountMark env marked id := by
    intro marked id
    rw [WorldState.accountMark, WorldState.accountMark, swept.accounts]
    simp only [account]
  have stamps : RowStamps after := {
    account := fun id row held => by
      rw [swept.accounts] at held
      rw [clock]
      exact inv.stamps.account id row held
    storage := fun id row held => by
      rw [swept.row] at held
      rw [clock]
      split at held
      · obtain ⟨original, originalEq, rfl⟩ := Option.map_eq_some_iff.mp held
        exact inv.stamps.storage id original originalEq
      · exact inv.stamps.storage id row held
    owner := fun id key found => by
      rw [swept.key] at found
      rw [swept.accounts]
      exact inv.stamps.owner id key found }
  have world : ({ after with dirtyStorage := list } : WorldState).world = after.world := rfl
  have cells : ∀ cell, Accepted cell →
      ({ after with dirtyStorage := list } : WorldState).view env cell = after.view env cell :=
    fun cell => view_of_world world
  have consistent : Consistent env after.clock (after.view env) := by
    rw [clock]
    refine ⟨?_, ?_⟩
    · intro address
      rw [account]
      exact inv.consistent.account address
    · intro address slot
      rw [account]
      have held := inv.consistent.slot address slot
      rcases swept.slot address slot with ⟨same, -⟩ | ⟨isDirty, stale, cleared⟩
      · have cell : after.view env (.slot address slot) = self.view env (.slot address slot) := by
          simp only [view]
          rw [same]
        rw [cell]
        exact held
      · have cell : after.view env (.slot address slot) =
            (self.storageAt env address slot).clearDirty.cell := by
          simp only [view]
          rw [cleared]
        rw [cell]
        refine ⟨fun _ notWiped => ?_, held.scope, held.undo⟩
        -- a stale slot belongs to an account wiped in this transaction
        rcases active.settling.current address slot isDirty with live | wipedNow
        · exact absurd live stale
        · rw [active.settling.wiped address wipedNow] at notWiped
          cases notWiped
  exact {
    consistent := consistent.of_accepted cells
    stamps := stamps.of_world world (Nat.le_refl _)
    current := fun address slot isDirty => by
      rw [cells (.slot address slot) trivial] at isDirty ⊢
      rw [cells (.account address) trivial, account]
      rcases swept.slot address slot with ⟨same, live⟩ | ⟨-, -, cleared⟩
      · have cell : after.view env (.slot address slot) = self.view env (.slot address slot) := by
          simp only [view]
          rw [same]
        rw [cell] at isDirty ⊢
        exact live isDirty
      · have cell : after.view env (.slot address slot) =
            (self.storageAt env address slot).clearDirty.cell := by
          simp only [view]
          rw [cleared]
        rw [cell] at isDirty
        cases isDirty
    introduced := introduced
    changes := changes.congr fun id => by rw [accountMark_of_world world, accountMark]
    wipes := wipes.congr fun id => by rw [accountMark_of_world world, accountMark]
    dirty := dirty.congr fun id => by
      rw [slotMark_of_world world, slotMark_eq_slotDirty stamps, swept.slotDirty]
      cases self.slotDirty id <;> cases self.slotLive id <;> simp }

theorem retainAttempt_ran (since : Since env start state)
    (ran : retainAttempt attempt state = .ok () after) : Retained env state after := by
  obtain ⟨-, -, last, compacts, rfl⟩ := retainAttempt_parts ran
  let swapped : WorldState := { state with logs := state.retainedLogs, retainedLogs := state.logs }
  have swappedRunning : Running swapped := since.running
  have swappedInv : Inv env 0 swapped.lifetime.scope swapped :=
    swappedLogs_inv since.inv since.running _ _
  obtain ⟨exactChanges, exactWipes⟩ := compactedAccounts_exact swappedInv swappedRunning
  have inv : Inv env 0 swapped.compactedAccounts.lifetime.scope swapped.compactedAccounts :=
    compactedAccounts_inv swappedInv swappedRunning
  have running : Running swapped.compactedAccounts := since.running
  obtain ⟨middle, dirtyStorage, swept, rfl, exactDirty⟩ :=
    acceptedStorage_swept inv running compacts
  have rows : SameRows swapped swapped.compactedAccounts := ⟨rfl, rfl, rfl, rfl, rfl, rfl⟩
  have rest := swept.rest
  have active := inv.active running
  have settled : Settled env { middle with dirtyStorage } := by
    refine swept.settled inv running ?_ ?_ ?_ ?_ exactDirty
    · rw [rest]
      exact active.introduced.list
    · rw [rest]
    · rw [rest]
      exact exactChanges.congr fun id => by rw [rows.accountMark]
    · rw [rest]
      exact exactWipes.congr fun id => by rw [rows.accountMark]
  exact {
    inv := finishTransaction_inv settled
    idle := rfl
    accounts := swept.accounts
    slot := fun address slot => (swept.slot address slot).imp (fun same => same.1)
      fun cleared => cleared.2.2
    code := by
      show middle.code = state.code
      rw [rest]
      rfl
    clock := by
      show middle.clock = state.clock
      rw [rest]
      rfl
    worldEpoch := by
      show middle.worldEpoch = state.worldEpoch
      rw [rest]
      rfl }

end WorldState

end EvmZig.State
