import EvmZig.State.Rollback

/-!
# Checkpoints

A checkpoint opens a scope with a stamp of its own.  Calls made under it keep
the discipline of the inner scope; committing or reverting gives back a state
that keeps the discipline of the outer one.
-/

set_option autoImplicit false

namespace EvmZig.State

open Lib Zig

namespace WorldState

variable {env : Env} {strict : Prop} {base : Nat} {scope : Generation}
  {before after self : WorldState} {entries : Journal} {held : Checkpoint} {body : Method Unit}

/-! ## Steps that assign to no row -/

/-- The fields the cells are read off are as before. -/
structure SameRows (before after : WorldState) : Prop where
  world : after.world = before.world
  deferred : after.deferredWarmth = before.deferredWarmth
  transient : after.transientStorage = before.transientStorage
  observedAccounts : after.observedAccounts = before.observedAccounts
  observedStorage : after.observedStorage = before.observedStorage
  transaction : after.lifetime.transaction = before.lifetime.transaction

namespace SameRows

theorem grows (same : SameRows before after) : Grows before after where
  accountKey id address found := by rw [same.world, found]
  storageKey id key found := by rw [same.world, found]
  deferredAccountKey entry address found := by rw [same.deferred, found]
  deferredStorageKey entry key found := by rw [same.deferred, found]
  observedAccount id seen := by
    obtain ⟨row, held, current⟩ := seen
    exact ⟨row, by rw [same.world, held], by rw [same.transaction, current]⟩
  observedStorage id row held current :=
    ⟨row, by rw [same.world, held], by rw [same.transaction, current]⟩

theorem view (same : SameRows before after) : after.view env = before.view env := by
  have accountAt : ∀ address, after.accountAt env address = before.accountAt env address := by
    intro address
    rw [WorldState.accountAt, WorldState.accountAt, same.world]
  have storageAt : ∀ address slot,
      after.storageAt env address slot = before.storageAt env address slot := by
    intro address slot
    rw [WorldState.storageAt, WorldState.storageAt, same.world]
  have accountEffect : ∀ handle, after.accountEffect handle = before.accountEffect handle := by
    intro handle
    rw [WorldState.accountEffect, WorldState.accountEffect, same.transaction,
      same.observedAccounts]
  have storageEffect : ∀ handle, after.storageEffect handle = before.storageEffect handle := by
    intro handle
    rw [WorldState.storageEffect, WorldState.storageEffect, same.transaction, same.observedStorage]
  funext cell
  cases cell with
  | account address => simp only [WorldState.view, accountAt]
  | storageDirty address => simp only [WorldState.view, accountAt]
  | accountEffect address => simp only [WorldState.view, accountAt, accountEffect]
  | slot address slot => simp only [WorldState.view, storageAt]
  | slotEffect address slot => simp only [WorldState.view, storageAt, storageEffect]
  | accountWarm address => simp only [WorldState.view, accountAt, same.transaction]
  | slotWarm address slot => simp only [WorldState.view, storageAt, same.transaction]
  | deferredAccount address => simp only [WorldState.view, same.deferred]
  | deferredSlot address slot => simp only [WorldState.view, same.deferred]
  | transient address slot => simp only [WorldState.view, transientValue, same.transient]

theorem stamps (same : SameRows before after) (clock : before.clock ≤ after.clock)
    (held : RowStamps before) : RowStamps after :=
  RowStamps.of_world same.world clock held

theorem handles (same : SameRows before after) (held : Handles before) : Handles after := by
  refine ⟨?_, ?_⟩
  · rw [same.world, same.transaction, same.observedAccounts]
    exact held.account
  · rw [same.world, same.transaction, same.observedStorage]
    exact held.storage

theorem accountMark (same : SameRows before after) (marked : AccountCell → Bool)
    (id : AccountId) : after.accountMark env marked id = before.accountMark env marked id := by
  simp only [WorldState.accountMark, same.world, same.view]

theorem slotMark (same : SameRows before after) (marked : SlotCell → Bool) (id : StorageId) :
    after.slotMark env marked id = before.slotMark env marked id := by
  simp only [WorldState.slotMark, slotOf, same.world, same.view]

theorem log (same : SameRows before after) (journal : after.journal = before.journal)
    (valid : ∀ entry ∈ before.journal, before.EntryValid entry) : after.log = before.log := by
  have unchanged : after.journal = [] ++ before.journal := journal
  exact same.grows.log valid unchanged

end SameRows

/-! ## Opening a scope -/

/-- What `checkpoint` returns. -/
def mark (self : WorldState) : Checkpoint where
  scope := self.clock + 1
  parentScope := self.lifetime.scope
  journalLen := self.journal.length
  changedAccountsLen := self.changedAccounts.length
  changedStorageLen := self.changedStorage.length
  logs := self.logs.checkpoint

/-- Open a scope with a fresh stamp. -/
def rescoped (root : Generation) (scopeDepth : Nat) (self : WorldState) : WorldState :=
  { self with
    clock := self.clock + 1
    scopeDepth
    lifetime := { self.lifetime with scope := self.clock + 1, root } }

/-- What `checkpoint` leaves behind. -/
def opened (self : WorldState) : WorldState :=
  rescoped self.lifetime.root (self.scopeDepth + 1) self

theorem checkpoint_run (self : WorldState) :
    checkpoint self = .illegal ∨
      (Running self ∧ self.SessionActive ∧ checkpoint self = .ok (mark self) (opened self)) := by
  by_cases running : self.transactionActive = true
  · by_cases session : self.SessionActive
    · by_cases depth : self.scopeDepth < u32Max
      · by_cases clock : self.clock < u32Max
        · right
          refine ⟨running, session, ?_⟩
          simp only [checkpoint, assertSession, tick, Action.bind_run, Action.assert,
            if_pos running, if_pos session, if_pos depth, if_pos clock, Action.read_run,
            Action.modify_run, Action.get_run]
          rfl
        · left
          simp only [checkpoint, assertSession, tick, Action.bind_run, Action.assert, running,
            session, depth, clock, if_true, if_false, Action.read_run]
      · left
        simp only [checkpoint, assertSession, Action.bind_run, Action.assert, running, session,
          depth, if_true, if_false]
    · left
      simp only [checkpoint, assertSession, Action.bind_run, Action.assert, running, session,
        if_true, if_false]
  · left
    simp only [checkpoint, assertSession, Action.bind_run, Action.assert, running, if_false,
      Bool.false_eq_true]

theorem opened_rows (self : WorldState) : SameRows self (opened self) := ⟨rfl, rfl, rfl, rfl, rfl, rfl⟩

/-- No row carries the stamp of a scope that was just opened, so any base will do. -/
theorem rescoped_inv {low : Nat} {root : Generation} {scopeDepth : Nat}
    (inv : Inv env base scope self) (running : Running self) (inside : low ≤ self.journal.length) :
    Inv env low (self.clock + 1) (rescoped root scopeDepth self) := by
  have active := inv.active running
  have rows : SameRows self (rescoped root scopeDepth self) := ⟨rfl, rfl, rfl, rfl, rfl, rfl⟩
  have later : self.clock ≤ self.clock + 1 := Nat.le_succ _
  have consistent : Consistent env (self.clock + 1) ((rescoped root scopeDepth self).view env) := by
    rw [rows.view]
    exact inv.consistent.mono later
  refine ⟨inside, rfl, consistent, rows.stamps later inv.stamps, ?_, ?_⟩
  · intro _
    refine ⟨active.transaction, active.transactionPast.trans later, Nat.succ_ne_zero _,
      Nat.le_refl _, rows.handles active.handles, ?_, ?_, ?_, ?_, ?_⟩
    · exact fun entry member => rows.grows.entryValid (active.entries entry member)
    · refine ⟨?_, ?_⟩
      · intro address stamped
        rw [rows.view] at stamped
        have past := (inv.consistent.account address).scope
        rw [stamped] at past
        exact absurd past (Nat.not_succ_le_self _)
      · intro address slot stamped
        rw [rows.view] at stamped
        have past := (inv.consistent.slot address slot).scope
        rw [stamped] at past
        exact absurd past (Nat.not_succ_le_self _)
    · rw [rows.view]
      exact active.settling
    · exact ⟨active.introduced.list, active.introduced.count⟩
    · obtain ⟨changes, wipes, dirty, transactionWipes⟩ := active.lists
      exact ⟨changes.congr fun id => by rw [rows.accountMark],
        wipes.congr fun id => by rw [rows.accountMark],
        dirty.congr fun id => by rw [rows.slotMark],
        transactionWipes.congr fun id => by rw [rows.accountMark]; rfl⟩
  · intro idle
    have contradiction : self.transactionActive = false := idle
    rw [Running, contradiction] at running
    cases running

theorem opened_inv (inv : Inv env base scope self) (running : Running self) :
    Inv env self.journal.length (self.clock + 1) (opened self) :=
  rescoped_inv inv running (Nat.le_refl _)

theorem opened_follows (inv : Inv env base scope self) (running : Running self) :
    Follows env strict base scope self (opened self) := by
  have rows := opened_rows self
  refine {
    grows := rows.grows
    recorded := ?_
    journal := List.suffix_refl _
    transaction := rfl
    transactionActive := rfl
    sealed := rfl
    attemptOpen := rfl
    acceptedLen := rfl
    worldEpoch := rfl
    clock := Nat.le_succ _
    accountStamp := ?_
    slotStamp := ?_
    lists := ⟨List.prefix_refl _, List.prefix_refl _, List.prefix_refl _, List.prefix_refl _,
      List.prefix_refl _, List.prefix_refl _, List.prefix_refl _, rfl, List.prefix_refl _⟩
    logs := fun _ => LogBuffer.Extends.refl _ }
  · rw [rows.view, rows.log rfl (inv.active running).entries]
    apply UndoLog.Recorded.refl
    rw [log_length]
    exact inv.inside
  · intro address
    rw [rows.view]
    exact .inl rfl
  · intro address slot
    rw [rows.view]
    exact .inl rfl

/-! ## What holds under a scope -/

/-- `state` was reached from `opened outer` by calls of the scope opened there. -/
structure Under (env : Env) (strict : Prop) (outer state : WorldState) : Prop where
  inv : Inv env outer.journal.length (outer.clock + 1) state
  follows : Follows env strict outer.journal.length (outer.clock + 1) (opened outer) state
  lifetime : state.lifetime = (opened outer).lifetime
  scopeDepth : state.scopeDepth = (opened outer).scopeDepth

theorem Under.start {outer : WorldState} (inv : Inv env base scope outer)
    (running : Running outer) : Under env strict outer (opened outer) :=
  ⟨opened_inv inv running, Follows.refl _ (Nat.le_refl _), rfl, rfl⟩

theorem Under.next {outer state later : WorldState} (under : Under env strict outer state)
    (inv : Inv env outer.journal.length (outer.clock + 1) later)
    (stepped : (calls env strict outer.journal.length (outer.clock + 1)).rel state later) :
    Under env strict outer later :=
  ⟨inv, under.follows.trans stepped.1, stepped.2.1.trans under.lifetime,
    stepped.2.2.trans under.scopeDepth⟩

theorem Under.running {outer state : WorldState} (under : Under env strict outer state)
    (running : Running outer) : Running state :=
  under.follows.transactionActive.trans running

/-- The outer scope sees the calls of the inner one as its own. -/
theorem Under.outer {outer state : WorldState} (under : Under env strict outer state)
    (inv : Inv env base scope outer) (running : Running outer) :
    Follows env strict base scope outer state := by
  have active := inv.active running
  have older : scope ≤ outer.clock + 1 := by
    rw [← inv.scope]
    exact active.scopePast.trans (Nat.le_succ _)
  exact (opened_follows inv running).trans (under.follows.lower inv.inside older)

/-! ## Committing -/

variable {outer state : WorldState}

def committed (parentScope : Generation) (self : WorldState) : WorldState :=
  { self with
    lifetime := { self.lifetime with scope := parentScope }
    scopeDepth := self.scopeDepth - 1 }

theorem commitCheckpoint_run (held : Checkpoint) (self : WorldState) :
    commitCheckpoint held self = .illegal ∨
      commitCheckpoint held self = .ok () (committed held.parentScope self) := by
  have looks : Looks (assertCheckpoint held) :=
    (Looks.assert _).bind (fun _ => Looks.assert _) |>.bind fun _ => (Looks.assert _).bind fun _ =>
      (Looks.assert _).bind fun _ => (Looks.assert _).bind fun _ => (Looks.assert _).bind fun _ =>
        Looks.assert _
  rw [commitCheckpoint, Action.bind_run]
  rcases looks self with ⟨value, ran⟩ | ran
  · right
    rw [ran]
    rfl
  · left
    rw [ran]

theorem committed_inv (under : Under env strict outer state) (inv : Inv env base scope outer)
    (running : Running outer) : Inv env base scope (committed outer.lifetime.scope state) := by
  have rows : SameRows state (committed outer.lifetime.scope state) := ⟨rfl, rfl, rfl, rfl, rfl, rfl⟩
  have outerActive := inv.active running
  have active := under.inv.active (under.running running)
  have follows : Follows env strict base scope outer state := under.outer inv running
  refine ⟨?_, inv.scope, ?_, rows.stamps (Nat.le_refl _) under.inv.stamps, ?_, ?_⟩
  · exact inv.inside.trans under.inv.inside
  · rw [rows.view]
    exact under.inv.consistent
  · intro _
    refine ⟨active.transaction, active.transactionPast, outerActive.scope,
      outerActive.scopePast.trans follows.clock, rows.handles active.handles, ?_, ?_, ?_, ?_, ?_⟩
    · exact fun entry member => rows.grows.entryValid (active.entries entry member)
    · -- a row with the outer stamp was not touched under the inner scope
      have log := rows.log rfl active.entries
      have extended := follows.recorded.grows
      have inside : base ≤ outer.log.length := by
        rw [log_length]
        exact inv.inside
      have newer : ∀ stamp, outer.clock + 1 ≤ stamp → stamp ≠ outer.lifetime.scope := by
        rintro stamp past rfl
        exact absurd (past.trans outerActive.scopePast) (Nat.not_succ_le_self _)
      obtain ⟨entries, entriesEq⟩ := extended
      refine ⟨?_, ?_⟩
      · intro address
        rw [rows.view, log, ← entriesEq]
        intro stamped
        rcases under.follows.accountStamp address with same | past
        · rw [same, (opened_rows outer).view] at stamped
          obtain ⟨patch, member, restores⟩ := outerActive.covered.account address stamped
          exact ⟨patch, mem_above_append inside member, restores⟩
        · exact absurd stamped (newer _ past)
      · intro address slot
        rw [rows.view, log, ← entriesEq]
        intro stamped
        rcases under.follows.slotStamp address slot with same | past
        · rw [same, (opened_rows outer).view] at stamped
          obtain ⟨patch, member, restores⟩ := outerActive.covered.slot address slot stamped
          exact ⟨patch, mem_above_append inside member, restores⟩
        · exact absurd stamped (newer _ past)
    · rw [rows.view]
      exact active.settling
    · exact ⟨active.introduced.list, active.introduced.count⟩
    · obtain ⟨changes, wipes, dirty, transactionWipes⟩ := active.lists
      exact ⟨changes.congr fun id => by rw [rows.accountMark],
        wipes.congr fun id => by rw [rows.accountMark],
        dirty.congr fun id => by rw [rows.slotMark],
        transactionWipes.congr fun id => by rw [rows.accountMark]; rfl⟩
  · intro idle
    have contradiction : state.transactionActive = false := idle
    have active' := under.running running
    rw [Running, contradiction] at active'
    cases active'

theorem committed_follows (under : Under env strict outer state) (inv : Inv env base scope outer)
    (running : Running outer) :
    (calls env strict base scope).rel outer (committed outer.lifetime.scope state) := by
  have rows : SameRows state (committed outer.lifetime.scope state) := ⟨rfl, rfl, rfl, rfl, rfl, rfl⟩
  have active := under.inv.active (under.running running)
  have follows := under.outer inv running
  refine ⟨?_, ?_, ?_⟩
  · refine { follows with
      grows := follows.grows.trans rows.grows
      recorded := ?_
      accountStamp := ?_
      slotStamp := ?_
      lists := ⟨follows.lists.blockChangedAccounts, follows.lists.blockStorageWipes,
        follows.lists.dirtyStorage, follows.lists.changedAccounts, follows.lists.changedStorage,
        follows.lists.transactionStorageWipes, follows.lists.introduced, follows.lists.parentCode,
        follows.lists.codeCache⟩ }
    · rw [rows.view, rows.log rfl active.entries]
      exact follows.recorded
    · rw [rows.view]
      exact follows.accountStamp
    · rw [rows.view]
      exact follows.slotStamp
  · show { state.lifetime with scope := outer.lifetime.scope } = outer.lifetime
    rw [under.lifetime]
    rfl
  · show state.scopeDepth - 1 = outer.scopeDepth
    rw [under.scopeDepth]
    rfl

/-! ## Reverting -/

theorem assertCheckpoint_run (under : Under env strict outer state) (running : Running outer)
    (reaches : state.logs.Reaches outer.logs.checkpoint) :
    assertCheckpoint (mark outer) state = .ok () state := by
  have active : state.transactionActive = true := under.running running
  have session : state.SessionActive := by
    rw [SessionActive, under.scopeDepth]
    exact Nat.succ_ne_zero _
  have stamp : (mark outer).scope = state.lifetime.scope := by
    rw [under.lifetime]
    rfl
  have journal : (mark outer).journalLen ≤ state.journal.length := under.inv.inside
  have accounts : (mark outer).changedAccountsLen ≤ state.changedAccounts.length :=
    under.follows.lists.changedAccounts.length_le
  have storage : (mark outer).changedStorageLen ≤ state.changedStorage.length :=
    under.follows.lists.changedStorage.length_le
  have logs : state.logs.Reaches (mark outer).logs := reaches
  simp only [assertCheckpoint, assertSession, Action.bind_run, Action.assert, if_pos active,
    if_pos session, if_pos stamp, if_pos journal, if_pos accounts, if_pos storage, if_pos logs]

/-- The state a revert leaves behind, from the one its scope was opened in and
the one it was called in. -/
structure Reverted (env : Env) (strict : Prop) (outer state after : WorldState) : Prop where
  view : ∀ cell, watched strict cell → after.view env cell = outer.view env cell
  grows : Grows state after
  journal : after.journal = outer.journal
  changedAccounts : after.changedAccounts = outer.changedAccounts
  changedStorage : after.changedStorage = outer.changedStorage
  logs : strict → after.logs = outer.logs
  code : after.code = outer.code
  lifetime : after.lifetime = outer.lifetime
  scopeDepth : after.scopeDepth = outer.scopeDepth
  reverted : after.transactionScopeReverted = true
  stamps : RowStamps after
  handles : Handles after
  introduced : Introduced after
  codeCache : after.world.code = state.world.code
  blockChangedAccounts : after.blockChangedAccounts = state.blockChangedAccounts
  blockStorageWipes : after.blockStorageWipes = state.blockStorageWipes
  dirtyStorage : after.dirtyStorage = state.dirtyStorage
  transactionStorageWipes : after.transactionStorageWipes = state.transactionStorageWipes
  clock : after.clock = state.clock
  sealed : after.sealed = state.sealed
  attemptOpen : after.attemptOpen = state.attemptOpen
  transactionActive : after.transactionActive = state.transactionActive
  acceptedLen : after.acceptedLen = state.acceptedLen
  worldEpoch : after.worldEpoch = state.worldEpoch

/-- Unwinding to where the log was at an earlier state gives back that state's cells. -/
theorem rewound_view {after : WorldState}
    (follows : Follows env strict outer.journal.length scope outer state)
    (journal : state.journal = entries ++ outer.journal)
    (unwound : after.view env = UndoLog.unwind (entries.map state.entryPatch) (state.view env))
    {cell : Cell} (watch : watched strict cell) : after.view env cell = outer.view env cell := by
  have recorded := follows.recorded
  rw [← log_length] at recorded
  have exact_ := recorded.exact watch
  have above : UndoLog.above state.log outer.log.length = entries.map state.entryPatch := by
    rw [UndoLog.above, log_length, log_length, WorldState.log, journal, List.length_append,
      Nat.add_sub_cancel, List.map_append, List.take_left']
    rw [List.length_map]
  rw [UndoLog.undone, above] at exact_
  rw [unwound, exact_]

/-- The introduced code of two states with the same journal. -/
theorem code_of_introduced {after : WorldState} (held : Introduced outer) (now : Introduced after)
    (journal : after.journal = outer.journal) (acceptedLen : after.acceptedLen = outer.acceptedLen)
    (earlier : outer.code.introduced.rows <+: state.code.introduced.rows)
    (later : after.code.introduced.rows <+: state.code.introduced.rows)
    (parentCode : after.code.parent = outer.code.parent) :
    after.code = outer.code ∧ after.blockIntroducedCodes = outer.blockIntroducedCodes := by
  have count : after.code.introduced.count = outer.code.introduced.count := by
    rw [now.count, held.count, journal, acceptedLen]
  have rows : after.code.introduced.rows = outer.code.introduced.rows :=
    (List.prefix_of_prefix_length_le later earlier (Nat.le_of_eq count)).eq_of_length count
  refine ⟨?_, ?_⟩
  · have table := Table.eq_of_rows rows
    revert parentCode table
    cases after.code
    cases outer.code
    rintro rfl rfl
    rfl
  · rw [now.list, held.list, count]

theorem revertJournalTo_run {targetLen : Nat} {older : Journal} (undoable : Undoable self)
    (journal : self.journal = entries ++ older) (length : older.length = targetLen) :
    ∃ after, revertJournalTo targetLen self = .ok () after ∧ Rewound env entries self after := by
  have count : self.journal.length - targetLen = entries.length := by
    rw [journal, List.length_append, length, Nat.add_sub_cancel]
  obtain ⟨after, ran, rewound⟩ : ∃ after, popEntries entries.length self = .ok () after ∧
      Rewound env entries self after := popEntries_rewound entries older undoable journal
  refine ⟨after, ?_, rewound⟩
  rw [revertJournalTo, Action.bind_run, Action.get_run]
  dsimp only
  rw [count, ran]

theorem Rewound.left_journal {older : Journal} (rewound : Rewound env entries before after)
    (journal : before.journal = entries ++ older) : after.journal = older :=
  List.append_cancel_left (rewound.journal.symm.trans journal)

theorem revertToCheckpoint_run (under : Under env strict outer state)
    (inv : Inv env base scope outer) (running : Running outer)
    (reaches : state.logs.Reaches outer.logs.checkpoint) :
    ∃ after, revertToCheckpoint (mark outer) state = .ok () after ∧
      Reverted env strict outer state after := by
  have active := under.inv.active (under.running running)
  have outerActive := inv.active running
  obtain ⟨entries, journal⟩ := under.follows.journal
  have journalEq : state.journal = entries ++ outer.journal := journal.symm
  let flagged : WorldState := { state with transactionScopeReverted := true }
  have rows : SameRows state flagged := ⟨rfl, rfl, rfl, rfl, rfl, rfl⟩
  have undoable : Undoable flagged := {
    transaction := active.transaction
    handles := rows.handles active.handles
    stamps := rows.stamps (Nat.le_refl _) under.inv.stamps
    entries := fun entry member => rows.grows.entryValid (active.entries entry member)
    introduced := ⟨active.introduced.list, active.introduced.count⟩ }
  obtain ⟨middle, ran, rewound⟩ : ∃ after, revertJournalTo outer.journal.length flagged =
      .ok () after ∧ Rewound env entries flagged after :=
    revertJournalTo_run undoable journalEq rfl
  have left := rewound.left_journal journalEq
  let after : WorldState := { middle with
    changedAccounts := middle.changedAccounts.take outer.changedAccounts.length
    changedStorage := middle.changedStorage.take outer.changedStorage.length
    logs := middle.logs.truncate outer.logs.checkpoint
    lifetime := { middle.lifetime with scope := outer.lifetime.scope }
    scopeDepth := middle.scopeDepth - 1 }
  have closed : SameRows middle after := ⟨rfl, rfl, rfl, rfl, rfl, rfl⟩
  have unwound : middle.view env = UndoLog.unwind (entries.map state.entryPatch)
      (state.view env) := by
    have patches : entries.map flagged.entryPatch = entries.map state.entryPatch := by
      apply List.map_congr_left
      intro entry member
      apply rows.grows.entryPatch
      apply active.entries
      rw [journalEq]
      exact List.mem_append_left _ member
    rw [rewound.view, rows.view, patches]
  have introduced : Introduced middle :=
    rewound.introduced ⟨active.introduced.list, active.introduced.count⟩
  have lists := under.follows.lists
  obtain ⟨codeEq, -⟩ := code_of_introduced outerActive.introduced introduced left
    (rewound.control.acceptedLen.trans under.follows.acceptedLen) lists.introduced rewound.code
    (rewound.parentCode.trans lists.parentCode)
  have fromOpened : Follows env strict (opened outer).journal.length (outer.clock + 1)
      (opened outer) state := under.follows
  refine ⟨after, ?_, ?_⟩
  · have asserted := assertCheckpoint_run under running reaches
    rw [revertToCheckpoint, Action.bind_run, asserted]
    dsimp only
    rw [Action.bind_run, Action.modify_run]
    dsimp only
    rw [Action.bind_run]
    have popped : revertJournalTo (mark outer).journalLen
        { state with transactionScopeReverted := true } = .ok () middle := ran
    rw [popped]
    rfl
  · exact {
      view := fun cell watch => by
        rw [closed.view, rewound_view fromOpened journalEq unwound watch,
          (opened_rows outer).view]
      grows := rows.grows.trans (rewound.grows.trans closed.grows)
      journal := left
      changedAccounts := by
        show middle.changedAccounts.take _ = _
        rw [rewound.changedAccounts]
        exact (List.prefix_iff_eq_take.mp lists.changedAccounts).symm
      changedStorage := by
        show middle.changedStorage.take _ = _
        rw [rewound.changedStorage]
        exact (List.prefix_iff_eq_take.mp lists.changedStorage).symm
      logs := fun strictly => by
        show middle.logs.truncate _ = _
        rw [rewound.logs]
        exact (under.follows.logs strictly).truncate
      code := codeEq
      lifetime := by
        show { middle.lifetime with scope := outer.lifetime.scope } = outer.lifetime
        rw [rewound.control.lifetime]
        show { state.lifetime with scope := outer.lifetime.scope } = outer.lifetime
        rw [under.lifetime]
        rfl
      scopeDepth := by
        show middle.scopeDepth - 1 = outer.scopeDepth
        rw [rewound.control.scopeDepth]
        show state.scopeDepth - 1 = outer.scopeDepth
        rw [under.scopeDepth]
        rfl
      reverted := rewound.control.reverted
      stamps := closed.stamps (Nat.le_refl _) (rewound.stamps undoable.stamps)
      handles := closed.handles (rewound.handles undoable.handles)
      introduced := ⟨introduced.list, introduced.count⟩
      codeCache := rewound.codeCache
      blockChangedAccounts := rewound.blockChangedAccounts
      blockStorageWipes := rewound.blockStorageWipes
      dirtyStorage := rewound.dirtyStorage
      transactionStorageWipes := rewound.transactionStorageWipes
      clock := rewound.control.clock
      sealed := rewound.control.sealed
      attemptOpen := rewound.control.attemptOpen
      transactionActive := rewound.control.transactionActive
      acceptedLen := rewound.control.acceptedLen
      worldEpoch := rewound.control.worldEpoch }

namespace Reverted

variable {outer state : WorldState}

theorem grows_outer (reverted : Reverted env strict outer state after)
    (under : Under env strict outer state) : Grows outer after :=
  ((opened_rows outer).grows.trans under.follows.grows).trans reverted.grows

theorem log (reverted : Reverted env strict outer state after)
    (under : Under env strict outer state)
    (valid : ∀ entry ∈ outer.journal, outer.EntryValid entry) : after.log = outer.log := by
  have unchanged : after.journal = [] ++ outer.journal := reverted.journal
  exact (reverted.grows_outer under).log valid unchanged

theorem accountMark (reverted : Reverted env strict outer state after)
    (under : Under env strict outer state) {marked : AccountCell → Bool}
    (fresh : ∀ current, marked (AccountRow.admitted current).cell = false) (id : AccountId) :
    after.accountMark env marked id = outer.accountMark env marked id :=
  (reverted.grows_outer under).accountMark fresh fun address _ => by
    rw [reverted.view (.account address) trivial]

theorem slotMark (reverted : Reverted env strict outer state after)
    (under : Under env strict outer state) (id : StorageId) :
    after.slotMark env blockDirtyMark id = outer.slotMark env blockDirtyMark id :=
  (reverted.grows_outer under).slotMark (fun _ => rfl) fun address slot _ => by
    rw [reverted.view (.slot address slot) trivial]

theorem lists (reverted : Reverted env strict outer state after)
    (under : Under env strict outer state) (held : Lists env outer) (later : Lists env state)
    (transaction : outer.lifetime.transaction ≠ 0) : Lists env after := by
  have grow := under.follows.lists
  have acceptedLen := under.follows.acceptedLen
  have nowTrue : (after.transactionScopeReverted = true) = True := by
    rw [reverted.reverted]
    exact eq_self true
  obtain ⟨changes, wipes, dirty, transactionWipes⟩ := held
  obtain ⟨changes', wipes', dirty', transactionWipes'⟩ := later
  rw [acceptedLen] at changes' wipes' dirty'
  refine ⟨?_, ?_, ?_, ?_⟩
  · rw [reverted.blockChangedAccounts, reverted.acceptedLen, acceptedLen, nowTrue]
    exact (changes.rewind changes' grow.blockChangedAccounts).congr fun id => by
      rw [reverted.accountMark under (fun _ => rfl)]
  · rw [reverted.blockStorageWipes, reverted.acceptedLen, acceptedLen, nowTrue]
    exact (wipes.rewind wipes' grow.blockStorageWipes).congr fun id => by
      rw [reverted.accountMark under (fun _ => rfl)]
  · rw [reverted.dirtyStorage, reverted.acceptedLen, acceptedLen, nowTrue]
    exact (dirty.rewind dirty' grow.dirtyStorage).congr fun id => by rw [reverted.slotMark under]
  · rw [reverted.transactionStorageWipes, reverted.lifetime, nowTrue]
    refine (transactionWipes.rewind transactionWipes' grow.transactionStorageWipes).congr
      fun id => ?_
    rw [reverted.accountMark under]
    intro current
    exact decide_eq_false (Ne.symm transaction)

theorem inv (reverted : Reverted env strict outer state after)
    (under : Under env strict outer state) (held : Inv env base scope outer)
    (running : Running outer) : Inv env base scope after := by
  have active := held.active running
  have follows := under.outer held running
  have log := reverted.log under active.entries
  have account : ∀ address, after.view env (.account address) = outer.view env (.account address) :=
    fun address => reverted.view _ trivial
  have slot : ∀ address slot,
      after.view env (.slot address slot) = outer.view env (.slot address slot) :=
    fun address slot => reverted.view _ trivial
  refine ⟨?_, ?_, ?_, reverted.stamps, ?_, ?_⟩
  · rw [reverted.journal]
    exact held.inside
  · rw [reverted.lifetime]
    exact held.scope
  · rw [reverted.clock]
    have later := held.consistent.mono follows.clock
    refine ⟨?_, ?_⟩
    · intro address
      rw [account]
      exact later.account address
    · intro address place
      rw [account, slot]
      exact later.slot address place
  · intro _
    refine ⟨?_, ?_, ?_, ?_, reverted.handles, ?_, ?_, ?_, reverted.introduced, ?_⟩
    · rw [reverted.lifetime]
      exact active.transaction
    · rw [reverted.lifetime, reverted.clock]
      exact active.transactionPast.trans follows.clock
    · rw [reverted.lifetime]
      exact active.scope
    · rw [reverted.lifetime, reverted.clock]
      exact active.scopePast.trans follows.clock
    · rw [reverted.journal]
      exact fun entry member =>
        (reverted.grows_outer under).entryValid (active.entries entry member)
    · refine ⟨?_, ?_⟩
      · intro address
        rw [account, reverted.lifetime, log]
        exact active.covered.account address
      · intro address place
        rw [slot, reverted.lifetime, log]
        exact active.covered.slot address place
    · rw [reverted.lifetime]
      refine ⟨?_, ?_⟩
      · intro address
        rw [account]
        exact active.settling.wiped address
      · intro address place
        rw [account, slot]
        exact active.settling.current address place
    · exact reverted.lists under active.lists
        (under.inv.active (under.running running)).lists active.transaction
  · intro idle
    have contradiction := under.running running
    rw [Running, ← reverted.transactionActive, idle] at contradiction
    cases contradiction

theorem rel (reverted : Reverted env strict outer state after)
    (under : Under env strict outer state) (held : Inv env base scope outer)
    (running : Running outer) : (calls env strict base scope).rel outer after := by
  have active := held.active running
  have follows := under.outer held running
  have grow := follows.lists
  have log := reverted.log under active.entries
  have inside : base ≤ outer.log.length := by
    rw [log_length]
    exact held.inside
  refine ⟨?_, reverted.lifetime, reverted.scopeDepth⟩
  exact {
    grows := reverted.grows_outer under
    recorded := by
      rw [log]
      refine ⟨inside, List.suffix_refl _, fun cell watch => ?_⟩
      exact UndoLog.unwind_congr _ (reverted.view cell watch)
    journal := by rw [reverted.journal]
    transaction := by rw [reverted.lifetime]
    transactionActive := reverted.transactionActive.trans follows.transactionActive
    sealed := reverted.sealed.trans follows.sealed
    attemptOpen := reverted.attemptOpen.trans follows.attemptOpen
    acceptedLen := reverted.acceptedLen.trans follows.acceptedLen
    worldEpoch := reverted.worldEpoch.trans follows.worldEpoch
    clock := follows.clock.trans (Nat.le_of_eq reverted.clock.symm)
    accountStamp := fun address => by
      rw [reverted.view (.account address) trivial]
      exact .inl rfl
    slotStamp := fun address slot => by
      rw [reverted.view (.slot address slot) trivial]
      exact .inl rfl
    lists := {
      blockChangedAccounts := by
        rw [reverted.blockChangedAccounts]
        exact grow.blockChangedAccounts
      blockStorageWipes := by
        rw [reverted.blockStorageWipes]
        exact grow.blockStorageWipes
      dirtyStorage := by
        rw [reverted.dirtyStorage]
        exact grow.dirtyStorage
      changedAccounts := by rw [reverted.changedAccounts]
      changedStorage := by rw [reverted.changedStorage]
      transactionStorageWipes := by
        rw [reverted.transactionStorageWipes]
        exact grow.transactionStorageWipes
      introduced := by rw [reverted.code]
      parentCode := by rw [reverted.code]
      codeCache := by
        rw [reverted.codeCache]
        exact grow.codeCache }
    logs := fun strictly => by
      rw [reverted.logs strictly]
      exact LogBuffer.Extends.refl _ }

end Reverted

/-! ## Calls that open a scope of their own -/

theorem Under.loosen (under : Under env True outer state) : Under env strict outer state :=
  ⟨under.inv, under.follows.loosen strict fun _ => trivial, under.lifetime, under.scopeDepth⟩

theorem Under.reaches (under : Under env True outer state) :
    state.logs.Reaches outer.logs.checkpoint :=
  (under.follows.logs trivial).reaches

theorem closing_ok {value : Unit} (ran : body self = .ok value after) :
    closing held body self = commitCheckpoint held after := by
  unfold closing
  rw [ran]

theorem closing_fail {error : StateError} {last : WorldState} (ran : body self = .fail error after)
    (reverts : revertToCheckpoint held after = .ok () last) :
    closing held body self = .fail error last := by
  unfold closing
  rw [ran]
  dsimp only
  rw [reverts]

theorem closing_illegal (ran : body self = .illegal) : closing held body self = .illegal := by
  unfold closing
  rw [ran]

theorem closing_eq_ok : closing held body self = .ok () after ↔
      ∃ value looped, body self = .ok value looped ∧ commitCheckpoint held looped = .ok () after := by
  unfold closing
  cases body self with
  | illegal => simp
  | ok value looped => simp
  | fail error failed =>
      dsimp only
      cases revertToCheckpoint held failed <;> simp

theorem closing_eq_fail {error : StateError} {last : WorldState}
    (ran : closing held body self = .fail error last) :
    (∃ inner, body self = .fail error inner ∧ revertToCheckpoint held inner = .ok () last) ∨
      ∃ inner, body self = .ok () inner ∧ commitCheckpoint held inner = .fail error last := by
  unfold closing at ran
  cases outcome : body self with
  | illegal => simp [outcome] at ran
  | ok value inner => exact .inr ⟨inner, rfl, by simpa [outcome] using ran⟩
  | fail inside inner =>
      rw [outcome] at ran
      cases reverts : revertToCheckpoint held inner with
      | ok value reverted =>
          simp only [reverts, Outcome.fail.injEq] at ran
          obtain ⟨rfl, rfl⟩ := ran
          exact .inl ⟨inner, rfl, reverts⟩
      | fail late reverted => simp [reverts] at ran
      | illegal => simp [reverts] at ran

theorem underCheckpoint_safe
    (kept : ∀ base scope, Keeps (calls env True base scope) Running body fun _ _ => True) :
    Safe (calls env strict base scope) (underCheckpoint body) := by
  intro self inv _
  unfold underCheckpoint
  rw [Action.bind_run]
  rcases checkpoint_run self with stuck | ⟨running, session, opens⟩
  · rw [stuck]
    trivial
  · rw [opens]
    have start : Under env True self (opened self) := Under.start inv running
    have ran := kept self.journal.length (self.clock + 1) (opened self) start.inv running
    dsimp only
    cases outcome : body (opened self) with
    | illegal =>
        rw [closing_illegal outcome]
        trivial
    | ok value after =>
        rw [outcome] at ran
        have under : Under env strict self after := (start.next ran.1 ran.2.1).loosen
        rw [closing_ok outcome]
        rcases commitCheckpoint_run (mark self) after with stuck | commits
        · rw [stuck]
          trivial
        · rw [commits]
          exact ⟨committed_inv under inv running, committed_follows under inv running, trivial⟩
    | fail error after =>
        rw [outcome] at ran
        have under := start.next ran.1 ran.2
        obtain ⟨last, reverts, reverted⟩ := revertToCheckpoint_run under inv running under.reaches
        rw [closing_fail outcome reverts]
        have rel := reverted.rel under inv running
        exact ⟨reverted.inv under inv running, rel.1.loosen strict fun _ => trivial, rel.2⟩

theorem forEach_keeps {ι : Type} {body : ι → Method Unit} {pre : WorldState → Prop}
    (kept : ∀ item, Keeps (calls env strict base scope) pre (body item) fun _ => pre)
    (items : List ι) :
    Keeps (calls env strict base scope) pre (Action.forEach body items) fun _ => pre := by
  induction items with
  | nil => exact (Keeps.pure ()).weaken fun _ _ holds => holds.2
  | cons item items ih => exact Keeps.bind (kept item) fun _ => ih

theorem finalizeLifecycle_safe (rules : FinalizationRules) :
    Safe (calls env strict base scope) (finalizeLifecycle env rules) := by
  unfold finalizeLifecycle
  refine assertSession_looks.safe.bind fun _ => (Safe.read _).bind fun listed => ?_
  split
  · exact Safe.pure ()
  · exact underCheckpoint_safe fun base scope =>
      (forEach_keeps (finalizeAccount_keeps rules) listed).weaken
        fun _ _ _ => trivial

/-- Every call keeps the discipline; the two that clear keep the loose one. -/
theorem Op.run_safe (op : Op) (strictly : strict → op.clears = false) :
    Safe (calls env strict base scope) (op.run env) := by
  cases op with
  | setCode address bytes => exact setCode_safe address bytes
  | clearCode address => exact setCode_safe address []
  | setTransientStorage address slot value => exact setTransientStorage_safe address slot value
  | finalizeLifecycle rules => exact finalizeLifecycle_safe rules
  | clearTransientStorage =>
      exact clearTransientStorage_safe fun strict => nomatch strictly strict
  | clearLogs => exact clearLogs_safe fun strict => nomatch strictly strict
  | _ => exact calls_of_changes (by exact id) (Op.run_changes _ trivial)

end WorldState

end EvmZig.State
