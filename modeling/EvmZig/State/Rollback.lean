import EvmZig.State.CodeWrites

/-!
# Unwinding the journal

Undoing an entry applies its patch to the cells.  Popping entries down to a
length therefore gives the cells the log has there.
-/

set_option autoImplicit false

namespace EvmZig.State

open Lib Zig

namespace WorldState

variable {env : Env} {strict : Prop} {base : Nat} {scope : Generation}
  {before after self : WorldState} {entries : Journal} {entry : Entry}

/-! ## Runs of the lookups -/

/-! ## One entry -/

/-- What popping `entries` owes. -/
structure Rewound (env : Env) (entries : Journal) (before after : WorldState) : Prop where
  grows : Grows before after
  view : after.view env = UndoLog.unwind (entries.map before.entryPatch) (before.view env)
  journal : before.journal = entries ++ after.journal
  stamps : RowStamps before → RowStamps after
  handles : Handles before → Handles after
  introduced : Introduced before → Introduced after
  code : after.code.introduced.rows <+: before.code.introduced.rows
  parentCode : after.code.parent = before.code.parent
  accountKey : ∀ id, after.world.accounts.key id = before.world.accounts.key id
  slotOf : ∀ id, after.slotOf id = before.slotOf id
  codeCache : after.world.code = before.world.code
  marks : after.marks = before.marks
  lifecycleAccounts : after.lifecycleAccounts = before.lifecycleAccounts
  retainedLogs : after.retainedLogs = before.retainedLogs
  logs : after.logs = before.logs
  control : SameControl before after

theorem Rewound.blockChangedAccounts (rewound : Rewound env entries before after) :
    after.blockChangedAccounts = before.blockChangedAccounts :=
  congrArg Marks.blockChangedAccounts rewound.marks

theorem Rewound.blockStorageWipes (rewound : Rewound env entries before after) :
    after.blockStorageWipes = before.blockStorageWipes :=
  congrArg Marks.blockStorageWipes rewound.marks

theorem Rewound.dirtyStorage (rewound : Rewound env entries before after) :
    after.dirtyStorage = before.dirtyStorage :=
  congrArg Marks.dirtyStorage rewound.marks

theorem Rewound.changedAccounts (rewound : Rewound env entries before after) :
    after.changedAccounts = before.changedAccounts :=
  congrArg Marks.changedAccounts rewound.marks

theorem Rewound.changedStorage (rewound : Rewound env entries before after) :
    after.changedStorage = before.changedStorage :=
  congrArg Marks.changedStorage rewound.marks

theorem Rewound.transactionStorageWipes (rewound : Rewound env entries before after) :
    after.transactionStorageWipes = before.transactionStorageWipes :=
  congrArg Marks.transactionStorageWipes rewound.marks

/-- What an entry needs of the state it is undone in. -/
structure Undoable (state : WorldState) : Prop where
  transaction : state.lifetime.transaction ≠ 0
  handles : Handles state
  stamps : RowStamps state
  entries : ∀ entry ∈ state.journal, state.EntryValid entry
  introduced : Introduced state

/-- Pop the newest entry and undo it. -/
def popEntry (entry : Entry) (older : Journal) : Method Unit := do
  Action.modify fun self => { self with journal := older }
  undoEntry entry

theorem introduced_pop (held : Introduced before) (code : after.code = before.code)
    (list : after.blockIntroducedCodes = before.blockIntroducedCodes)
    (acceptedLen : after.acceptedLen = before.acceptedLen)
    (journal : before.journal = entry :: after.journal) (other : entry ≠ .introducedCode) :
    Introduced after := by
  apply introduced_of_same held code list acceptedLen
  rw [journal, introducedEntries, introducedEntries, List.countP_cons]
  cases entry with
  | introducedCode => exact absurd rfl other
  | _ => rfl

/-- The fields that undoing an entry of a cell leaves alone. -/
def Untouched (before after : WorldState) : Prop :=
  after = { before with
    world := { after.world with code := before.world.code }
    observedAccounts := after.observedAccounts
    observedStorage := after.observedStorage
    deferredWarmth := after.deferredWarmth
    transientStorage := after.transientStorage
    journal := after.journal }

theorem Untouched.control (untouched : Untouched before after) : SameControl before after := by
  rw [SameControl, untouched]
  rfl

/-- Undoing an entry of a cell, once the cells are known. -/
theorem Rewound.of_cells (untouched : Untouched before after)
    (journal : before.journal = entry :: after.journal) (notCode : entry ≠ .introducedCode)
    (grows : Grows before after)
    (cells : ∀ cell, after.view env cell = (before.entryPatch entry cell).getD (before.view env cell))
    (stamps : RowStamps before → RowStamps after) (handles : Handles before → Handles after)
    (accountKey : ∀ id, after.world.accounts.key id = before.world.accounts.key id)
    (slotOf : ∀ id, after.slotOf id = before.slotOf id) : Rewound env [entry] before after where
  grows := grows
  view := funext cells
  journal := journal
  stamps := stamps
  handles := handles
  introduced held := introduced_pop held (by rw [untouched]) (by rw [untouched])
    (by rw [untouched]) journal notCode
  code := by rw [untouched]
  parentCode := by rw [untouched]
  accountKey := accountKey
  slotOf := slotOf
  codeCache := by rw [untouched]
  marks := by
    rw [untouched]
    rfl
  lifecycleAccounts := by rw [untouched]
  retainedLogs := by rw [untouched]
  logs := by rw [untouched]
  control := untouched.control

/-- An entry that restores cells of an account row. -/
theorem Rewound.of_account {id : AccountId} {address : Address} {row row' : AccountRow}
    (undoable : Undoable before) (untouched : Untouched before after)
    (journal : before.journal = entry :: after.journal) (notCode : entry ≠ .introducedCode)
    (set : AccountSet before after id row row') (key : before.world.accounts.key id = some address)
    (handle : row'.observation = row.observation) (warm : row'.warmTransaction ≤ before.clock)
    (owners : after.observedAccounts.map (·.account) = before.observedAccounts.map (·.account))
    (others : ∀ (index : Nat) (observed : AccountObservationRow), before.observedAccounts[index]? =
      some observed → observed.account ≠ id → after.observedAccounts[index]? = some observed)
    (observedStorage : after.observedStorage = before.observedStorage)
    (silent : ∀ cell : Cell, ¬cell.OfAccount address → before.entryPatch entry cell = none)
    (cells : ∀ cell : Cell, cell.OfAccount address →
      after.view env cell = (before.entryPatch entry cell).getD (before.view env cell)) :
    Rewound env [entry] before after := by
  have observed : row'.observation.transaction ≤ before.clock := by
    rw [handle]
    exact (undoable.stamps.account id row set.held).2
  refine Rewound.of_cells untouched journal notCode ?_ ?_ ?_ ?_ set.key_eq set.slotOf_eq
  · exact set.grows fun same => by rw [handle, same]
  · intro cell
    by_cases inside : cell.OfAccount address
    · exact cells cell inside
    · rw [silent cell inside, Option.getD_none]
      exact set.view_other key (fun _ differs => accountEffect_other undoable.handles
        undoable.transaction set.lifetime key others differs) observedStorage inside
  · exact set.stamps untouched.control.clock warm observed
  · exact set.handles handle owners observedStorage

theorem popEntry_account (undo : AccountUndo) (older : Journal)
    (journal : self.journal = .account undo :: older) (undoable : Undoable self)
    (valid : self.ObservedAccount undo.account) :
    ∃ after, popEntry (.account undo) older self = .ok () after ∧
      Rewound env [.account undo] self after := by
  obtain ⟨row, held, current⟩ := valid
  obtain ⟨address, key⟩ := Table.key_eq_some_of_row held
  obtain ⟨observed, found, owner⟩ := Option.map_eq_some_iff.mp
    (undoable.handles.account undo.account row held current)
  let row' : AccountRow := { row with
    current := undo.current
    codeRef := undo.codeRef
    flags := undo.flags
    journaledScope := undo.journaledScope
    storageIncarnation := undo.storageIncarnation
    wipedTransaction := undo.wipedTransaction
    dirtyTransaction := undo.dirtyTransaction }
  let middle : WorldState := { self with
    journal := older
    world := { self.world with accounts := self.world.accounts.set undo.account row' } }
  have middleHeld : middle.world.accounts.row undo.account = some row' :=
    Table.row_set_same key row'
  have middleFound : middle.observedAccounts[row'.observation.index]? = some observed := found
  refine ⟨setAccountEffect row'.observation.index (fun _ => undo.effect) middle, ?_, ?_⟩
  · have popped : ({ self with journal := older } : WorldState).world.accounts.row undo.account =
        some row := held
    simp only [popEntry, undoEntry, Action.bind_run, Action.modify_run,
      updateAccount_of_row popped]
    exact updateAccountEffect_run middleHeld middleFound _
  · have set : AccountSet self
        (setAccountEffect row'.observation.index (fun _ => undo.effect) middle) undo.account row
        row' := ⟨held, rfl, rfl, rfl, rfl, rfl⟩
    have patch : self.entryPatch (.account undo) =
        accountPatch address undo.cell undo.flags.storageDirty undo.effect := by
      simp only [entryPatch, key]
    have list : (setAccountEffect row'.observation.index (fun _ => undo.effect)
        middle).observedAccounts = self.observedAccounts.modify row.observation.index
          fun observed => { observed with effect := undo.effect } := rfl
    refine Rewound.of_account undoable rfl journal (by simp) set key rfl
      (undoable.stamps.account _ _ held).1 ?_ ?_ rfl ?_ ?_
    · rw [list]
      exact map_modify_same _ _ _ _ fun _ => rfl
    · intro index other otherFound elsewhere
      rw [list, List.getElem?_modify]
      split
      · rename_i here
        subst here
        rw [otherFound] at found
        cases found
        exact absurd owner elsewhere
      · rw [otherFound]
        rfl
    · intro cell outside
      rw [patch, accountPatch_other _ _ _ outside]
    · intro cell inside
      rw [patch]
      cases cell with
      | account other =>
          cases inside
          rw [accountPatch_account, Option.getD_some]
          simp only [view, set.at_same key]
          rfl
      | storageDirty other =>
          cases inside
          rw [accountPatch_storageDirty, Option.getD_some]
          simp only [view, set.at_same key]
          rfl
      | accountEffect other =>
          cases inside
          rw [accountPatch_effect, Option.getD_some]
          have updated : (setAccountEffect row'.observation.index (fun _ => undo.effect)
              middle).observedAccounts[row'.observation.index]? =
              some { observed with effect := undo.effect } := by
            rw [list, List.getElem?_modify_eq]
            show Option.map _ self.observedAccounts[row.observation.index]? = _
            rw [found]
            rfl
          have afterKey : (setAccountEffect row'.observation.index (fun _ => undo.effect)
              middle).world.accounts.key undo.account = some address := by
            rw [set.key_eq, key]
          rw [view_accountEffect afterKey set.row_same current updated]
      | accountWarm other =>
          cases inside
          rw [accountPatch_warm, Option.getD_none]
          simp only [view, set.at_same key, accountAt_of_row key held]
          rfl
      | _ => exact inside.elim

/-- An entry that restores cells of a storage row. -/
theorem Rewound.of_slot {id : StorageId} {address : Address} {slot : U256} {row row' : StorageRow}
    (undoable : Undoable before) (untouched : Untouched before after)
    (journal : before.journal = entry :: after.journal) (notCode : entry ≠ .introducedCode)
    (set : StorageSet before after id row row') (place : before.slotOf id = some (address, slot))
    (handle : row'.observation = row.observation) (warm : row'.warmTransaction ≤ before.clock)
    (owners : after.observedStorage.map (·.storage) = before.observedStorage.map (·.storage))
    (others : ∀ (index : Nat) (observed : StorageObservationRow), before.observedStorage[index]? =
      some observed → observed.storage ≠ id → after.observedStorage[index]? = some observed)
    (observedAccounts : after.observedAccounts = before.observedAccounts)
    (silent : ∀ cell : Cell, ¬cell.OfSlot address slot → before.entryPatch entry cell = none)
    (cells : ∀ cell : Cell, cell.OfSlot address slot →
      after.view env cell = (before.entryPatch entry cell).getD (before.view env cell)) :
    Rewound env [entry] before after := by
  have observed : row'.observation.transaction ≤ before.clock := by
    rw [handle]
    exact (undoable.stamps.storage id row set.held).2
  refine Rewound.of_cells untouched journal notCode ?_ ?_ ?_ ?_ ?_ set.slotOf_eq
  · exact set.grows fun same => by rw [handle, same]
  · intro cell
    by_cases inside : cell.OfSlot address slot
    · exact cells cell inside
    · rw [silent cell inside, Option.getD_none]
      exact set.view_other place (fun _ _ differs => storageEffect_other undoable.handles
        undoable.transaction set.lifetime place others differs) observedAccounts inside
  · exact set.stamps untouched.control.clock warm observed
  · exact set.handles handle owners observedAccounts
  · intro other
    rw [set.accounts]

theorem popEntry_storage (undo : StorageUndo) (older : Journal)
    (journal : self.journal = .storage undo :: older) (undoable : Undoable self)
    (valid : self.ObservedStorage undo.storage) :
    ∃ after, popEntry (.storage undo) older self = .ok () after ∧
      Rewound env [.storage undo] self after := by
  obtain ⟨known, row, held, current⟩ := valid
  obtain ⟨⟨address, slot⟩, place⟩ := Option.isSome_iff_exists.mp known
  obtain ⟨storageKey, key⟩ := Table.key_eq_some_of_row held
  obtain ⟨observed, found, owner⟩ := Option.map_eq_some_iff.mp
    (undoable.handles.storage undo.storage row held current)
  let row' : StorageRow := { row with
    current := undo.current
    flags := undo.flags
    journaledScope := undo.journaledScope
    storageIncarnation := undo.storageIncarnation
    transactionUndo := undo.transactionUndo }
  let middle : WorldState := { self with
    journal := older
    world := { self.world with storage := self.world.storage.set undo.storage row' } }
  have middleHeld : middle.world.storage.row undo.storage = some row' :=
    Table.row_set_same key row'
  have middleFound : middle.observedStorage[row'.observation.index]? = some observed := found
  refine ⟨setStorageEffect row'.observation.index (fun _ => undo.effect) middle, ?_, ?_⟩
  · have popped : ({ self with journal := older } : WorldState).world.storage.row undo.storage =
        some row := held
    simp only [popEntry, undoEntry, Action.bind_run, Action.modify_run,
      updateStorage_of_row popped]
    exact updateStorageEffect_run middleHeld middleFound _
  · have set : StorageSet self
        (setStorageEffect row'.observation.index (fun _ => undo.effect) middle) undo.storage row
        row' := ⟨held, rfl, rfl, rfl, rfl, rfl⟩
    have patch : self.entryPatch (.storage undo) = slotPatch address slot undo.cell undo.effect := by
      simp only [entryPatch, place]
    have list : (setStorageEffect row'.observation.index (fun _ => undo.effect)
        middle).observedStorage = self.observedStorage.modify row.observation.index
          fun observed => { observed with effect := undo.effect } := rfl
    refine Rewound.of_slot undoable rfl journal (by simp) set place rfl
      (undoable.stamps.storage _ _ held).1 ?_ ?_ rfl ?_ ?_
    · rw [list]
      exact map_modify_same _ _ _ _ fun _ => rfl
    · intro index other otherFound elsewhere
      rw [list, List.getElem?_modify]
      split
      · rename_i here
        subst here
        rw [otherFound] at found
        cases found
        exact absurd owner elsewhere
      · rw [otherFound]
        rfl
    · intro cell outside
      rw [patch, slotPatch_other _ _ outside]
    · intro cell inside
      rw [patch]
      cases cell with
      | slot other otherSlot =>
          cases inside
          rw [slotPatch_slot, Option.getD_some]
          simp only [view, set.at_same place]
          rfl
      | slotEffect other otherSlot =>
          cases inside
          rw [slotPatch_effect, Option.getD_some]
          have updated : (setStorageEffect row'.observation.index (fun _ => undo.effect)
              middle).observedStorage[row'.observation.index]? =
              some { observed with effect := undo.effect } := by
            rw [list, List.getElem?_modify_eq]
            show Option.map _ self.observedStorage[row.observation.index]? = _
            rw [found]
            rfl
          have afterPlace : (setStorageEffect row'.observation.index (fun _ => undo.effect)
              middle).slotOf undo.storage = some (address, slot) := by
            rw [set.slotOf_eq, place]
          rw [view_slotEffect afterPlace set.row_same current updated]
      | slotWarm other otherSlot =>
          cases inside
          rw [slotPatch_warm, Option.getD_none]
          simp only [view, set.at_same place, storageAt_of_row place held]
          rfl
      | _ => exact inside.elim

/-- The patch of an entry for one cell, read as a value. -/
theorem single_patch {cell : Cell} {value : cell.Value}
    (patch : before.entryPatch entry = Patch.silent.also cell value)
    (restored : after.view env cell = value)
    (elsewhere : ∀ other, other ≠ cell → after.view env other = before.view env other)
    (other : Cell) :
    after.view env other = (before.entryPatch entry other).getD (before.view env other) := by
  rw [patch]
  by_cases same : other = cell
  · subst same
    rw [Patch.also_same, Option.getD_some, restored]
  · rw [Patch.also_other _ _ same, Patch.silent_apply, Option.getD_none, elsewhere other same]

theorem popEntry_accountStorageDirty (id : AccountId) (older : Journal)
    (journal : self.journal = .accountStorageDirty id :: older) (undoable : Undoable self)
    (valid : (self.world.accounts.key id).isSome) :
    ∃ after, popEntry (.accountStorageDirty id) older self = .ok () after ∧
      Rewound env [.accountStorageDirty id] self after := by
  obtain ⟨address, key⟩ := Option.isSome_iff_exists.mp valid
  obtain ⟨row, held⟩ := Table.row_eq_some_of_key key
  let row' : AccountRow := { row with flags := { row.flags with storageDirty := false } }
  let after : WorldState := { self with
    journal := older
    world := { self.world with accounts := self.world.accounts.set id row' } }
  refine ⟨after, ?_, ?_⟩
  · have popped : ({ self with journal := older } : WorldState).world.accounts.row id =
        some row := held
    simp only [popEntry, undoEntry, Action.bind_run, Action.modify_run, accountRow_run popped,
      updateAccount_of_row popped]
    rfl
  · have set : AccountSet self after id row row' := ⟨held, rfl, rfl, rfl, rfl, rfl⟩
    have patch : self.entryPatch (.accountStorageDirty id) =
        Patch.silent.also (.storageDirty address) false := by
      simp only [entryPatch, key]
    refine Rewound.of_account undoable rfl journal (by simp) set key rfl
      (undoable.stamps.account _ _ held).1 rfl (fun _ _ same _ => same) rfl ?_ ?_
    · intro cell outside
      rw [patch, Patch.also_other, Patch.silent_apply]
      rintro rfl
      exact outside rfl
    · intro cell inside
      refine single_patch patch ?_ ?_ cell
      · simp only [view, set.at_same key]
        rfl
      · intro other differs
        by_cases within : other.OfAccount address
        · cases other with
          | account held' =>
              cases within
              simp only [view, set.at_same key, accountAt_of_row key held]
              rfl
          | storageDirty held' => exact absurd (congrArg Cell.storageDirty within) differs
          | accountEffect held' =>
              cases within
              simp only [view, set.at_same key, accountAt_of_row key held]
              rfl
          | accountWarm held' =>
              cases within
              simp only [view, set.at_same key, accountAt_of_row key held]
              rfl
          | _ => exact within.elim
        · exact set.view_other key (fun _ _ => rfl) rfl within

theorem popEntry_warmAccount (id : AccountId) (older : Journal)
    (journal : self.journal = .warmAccount id :: older) (undoable : Undoable self)
    (valid : (self.world.accounts.key id).isSome) :
    ∃ after, popEntry (.warmAccount id) older self = .ok () after ∧
      Rewound env [.warmAccount id] self after := by
  obtain ⟨address, key⟩ := Option.isSome_iff_exists.mp valid
  obtain ⟨row, held⟩ := Table.row_eq_some_of_key key
  let row' : AccountRow := { row with warmTransaction := 0 }
  let after : WorldState := { self with
    journal := older
    world := { self.world with accounts := self.world.accounts.set id row' } }
  refine ⟨after, ?_, ?_⟩
  · have popped : ({ self with journal := older } : WorldState).world.accounts.row id =
        some row := held
    simp only [popEntry, undoEntry, Action.bind_run, Action.modify_run, accountRow_run popped,
      updateAccount_of_row popped]
    rfl
  · have set : AccountSet self after id row row' := ⟨held, rfl, rfl, rfl, rfl, rfl⟩
    have patch : self.entryPatch (.warmAccount id) =
        Patch.silent.also (.accountWarm address) false := by
      simp only [entryPatch, key]
    refine Rewound.of_account undoable rfl journal (by simp) set key rfl (Nat.zero_le _) rfl
      (fun _ _ same _ => same) rfl ?_ ?_
    · intro cell outside
      rw [patch, Patch.also_other, Patch.silent_apply]
      rintro rfl
      exact outside rfl
    · intro cell inside
      refine single_patch patch ?_ ?_ cell
      · simp only [view, set.at_same key]
        exact decide_eq_false (Ne.symm undoable.transaction)
      · intro other differs
        by_cases within : other.OfAccount address
        · cases other with
          | account held' =>
              cases within
              simp only [view, set.at_same key, accountAt_of_row key held]
              rfl
          | storageDirty held' =>
              cases within
              simp only [view, set.at_same key, accountAt_of_row key held]
              rfl
          | accountEffect held' =>
              cases within
              simp only [view, set.at_same key, accountAt_of_row key held]
              rfl
          | accountWarm held' => exact absurd (congrArg Cell.accountWarm within) differs
          | _ => exact within.elim
        · exact set.view_other key (fun _ _ => rfl) rfl within

theorem popEntry_warmStorage (id : StorageId) (older : Journal)
    (journal : self.journal = .warmStorage id :: older) (undoable : Undoable self)
    (valid : (self.slotOf id).isSome) :
    ∃ after, popEntry (.warmStorage id) older self = .ok () after ∧
      Rewound env [.warmStorage id] self after := by
  obtain ⟨⟨address, slot⟩, place⟩ := Option.isSome_iff_exists.mp valid
  obtain ⟨account, key, addressKey⟩ := slotOf_eq_some.mp place
  obtain ⟨row, held⟩ := Table.row_eq_some_of_key key
  let row' : StorageRow := { row with warmTransaction := 0 }
  let after : WorldState := { self with
    journal := older
    world := { self.world with storage := self.world.storage.set id row' } }
  refine ⟨after, ?_, ?_⟩
  · have popped : ({ self with journal := older } : WorldState).world.storage.row id =
        some row := held
    simp only [popEntry, undoEntry, Action.bind_run, Action.modify_run, storageRow_run popped,
      updateStorage_of_row popped]
    rfl
  · have set : StorageSet self after id row row' := ⟨held, rfl, rfl, rfl, rfl, rfl⟩
    have patch : self.entryPatch (.warmStorage id) =
        Patch.silent.also (.slotWarm address slot) false := by
      simp only [entryPatch, place]
    refine Rewound.of_slot undoable rfl journal (by simp) set place rfl (Nat.zero_le _) rfl
      (fun _ _ same _ => same) rfl ?_ ?_
    · intro cell outside
      rw [patch, Patch.also_other, Patch.silent_apply]
      rintro rfl
      exact outside rfl
    · intro cell inside
      refine single_patch patch ?_ ?_ cell
      · simp only [view, set.at_same place]
        exact decide_eq_false (Ne.symm undoable.transaction)
      · intro other differs
        by_cases within : other.OfSlot address slot
        · cases other with
          | slot held' heldSlot =>
              cases within
              simp only [view, set.at_same place, storageAt_of_row place held]
              rfl
          | slotEffect held' heldSlot =>
              cases within
              simp only [view, set.at_same place, storageAt_of_row place held]
              rfl
          | slotWarm held' heldSlot =>
              cases within
              exact absurd rfl differs
          | _ => exact within.elim
        · exact set.view_other place (fun _ _ _ => rfl) rfl within

/-- An entry that restores a cell outside the rows. -/
theorem Rewound.of_world (untouched : Untouched before after)
    (journal : before.journal = entry :: after.journal) (notCode : entry ≠ .introducedCode)
    (world : after.world = before.world) (grows : Grows before after)
    (observedAccounts : after.observedAccounts = before.observedAccounts)
    (observedStorage : after.observedStorage = before.observedStorage)
    (cells : ∀ cell, after.view env cell = (before.entryPatch entry cell).getD (before.view env cell)) :
    Rewound env [entry] before after := by
  have control := untouched.control
  refine Rewound.of_cells untouched journal notCode grows cells
    (RowStamps.of_world world control.clock.symm.le) ?_ ?_ ?_
  · intro held
    refine ⟨?_, ?_⟩
    · rw [world, control.lifetime, observedAccounts]
      exact held.account
    · rw [world, control.lifetime, observedStorage]
      exact held.storage
  · intro id
    rw [world]
  · intro id
    simp only [WorldState.slotOf, world]

theorem popEntry_deferredWarmAccount (entry : Nat) (older : Journal)
    (journal : self.journal = .deferredWarmAccount entry :: older)
    (valid : (self.deferredWarmth.accounts.key entry).isSome) :
    ∃ after, popEntry (.deferredWarmAccount entry) older self = .ok () after ∧
      Rewound env [.deferredWarmAccount entry] self after := by
  obtain ⟨address, key⟩ := Option.isSome_iff_exists.mp valid
  let after : WorldState := { self with
    journal := older
    deferredWarmth := { self.deferredWarmth with
      accounts := self.deferredWarmth.accounts.set entry false } }
  refine ⟨after, ?_, ?_⟩
  · have inside : entry < self.deferredWarmth.accounts.count := Table.key_lt key
    simp only [popEntry, undoEntry, Action.bind_run, Action.modify_run, Action.assert, inside,
      if_true]
    rfl
  · have patch : self.entryPatch (.deferredWarmAccount entry) =
        Patch.silent.also (.deferredAccount address) false := by
      simp only [entryPatch, key]
    refine Rewound.of_world rfl journal (by simp) rfl ?_ rfl rfl (single_patch patch ?_ ?_)
    · refine Grows.of_deferred rfl rfl (fun other found otherKey => ?_) fun _ _ held => held
      show (self.deferredWarmth.accounts.set entry false).key other = some found
      rw [Table.key_set, otherKey]
    · show ((self.deferredWarmth.accounts.set entry false).value address).getD false = false
      rw [Table.value_set_same key]
      rfl
    · intro other differs
      cases other with
      | deferredAccount held =>
          have apart : held ≠ address := fun same => differs (same ▸ rfl)
          show ((self.deferredWarmth.accounts.set entry false).value held).getD false = _
          rw [Table.value_set_other key apart]
          rfl
      | _ => rfl

theorem popEntry_deferredWarmStorage (entry : Nat) (older : Journal)
    (journal : self.journal = .deferredWarmStorage entry :: older)
    (valid : (self.deferredWarmth.storage.key entry).isSome) :
    ∃ after, popEntry (.deferredWarmStorage entry) older self = .ok () after ∧
      Rewound env [.deferredWarmStorage entry] self after := by
  obtain ⟨found, key⟩ := Option.isSome_iff_exists.mp valid
  let after : WorldState := { self with
    journal := older
    deferredWarmth := { self.deferredWarmth with
      storage := self.deferredWarmth.storage.set entry false } }
  refine ⟨after, ?_, ?_⟩
  · have inside : entry < self.deferredWarmth.storage.count := Table.key_lt key
    simp only [popEntry, undoEntry, Action.bind_run, Action.modify_run, Action.assert, inside,
      if_true]
    rfl
  · have patch : self.entryPatch (.deferredWarmStorage entry) =
        Patch.silent.also (.deferredSlot found.address found.slot) false := by
      simp only [entryPatch, key]
    refine Rewound.of_world rfl journal (by simp) rfl ?_ rfl rfl (single_patch patch ?_ ?_)
    · refine Grows.of_deferred rfl rfl (fun _ _ held => held) fun other held otherKey => ?_
      show (self.deferredWarmth.storage.set entry false).key other = some held
      rw [Table.key_set, otherKey]
    · show ((self.deferredWarmth.storage.set entry false).value
        ⟨found.address, found.slot⟩).getD false = false
      rw [Table.value_set_same key]
      rfl
    · intro other differs
      cases other with
      | deferredSlot address slot =>
          have apart : (⟨address, slot⟩ : TransientKey) ≠ found := by
            rintro rfl
            exact differs rfl
          show ((self.deferredWarmth.storage.set entry false).value ⟨address, slot⟩).getD false = _
          rw [Table.value_set_other key apart]
          rfl
      | _ => rfl

theorem popEntry_transientStorage (key : TransientKey) (previous : U256) (older : Journal)
    (journal : self.journal = .transientStorage key previous :: older) :
    ∃ after, popEntry (.transientStorage key previous) older self = .ok () after ∧
      Rewound env [.transientStorage key previous] self after := by
  let after : WorldState := { self with
    journal := older
    transientStorage := self.transientStorage.put key previous }
  have patch : self.entryPatch (.transientStorage key previous) =
      Patch.silent.also (.transient key.address key.slot) previous := rfl
  refine ⟨after, rfl, Rewound.of_world rfl journal (by simp) rfl (Grows.of_world rfl rfl rfl) rfl rfl
    (single_patch patch ?_ ?_)⟩
  · show ((self.transientStorage.put key previous).value ⟨key.address, key.slot⟩).getD 0 = _
    rw [Table.value_put_same]
    rfl
  · intro other differs
    cases other with
    | transient address slot =>
        have apart : (⟨address, slot⟩ : TransientKey) ≠ key := by
          rintro rfl
          exact differs rfl
        show ((self.transientStorage.put key previous).value ⟨address, slot⟩).getD 0 = _
        rw [Table.value_put_other _ apart]
        rfl
    | _ => rfl

theorem popEntry_introducedCode (older : Journal)
    (journal : self.journal = .introducedCode :: older) (undoable : Undoable self) :
    ∃ after, popEntry .introducedCode older self = .ok () after ∧
      Rewound env [.introducedCode] self after := by
  have held := undoable.introduced
  have entries : introducedEntries self.journal = introducedEntries older + 1 := by
    rw [journal, introducedEntries, introducedEntries, List.countP_cons]
    rfl
  have count := held.count
  rw [entries] at count
  obtain ⟨last, lastEq⟩ : ∃ last, self.code.introduced.count = last + 1 := ⟨_, count⟩
  have list : self.blockIntroducedCodes = List.range last ++ [last] := by
    rw [held.list, lastEq, List.range_succ]
  let after : WorldState := { self with
    journal := older
    blockIntroducedCodes := self.blockIntroducedCodes.dropLast
    code := self.code.truncateIntroduced last }
  have truncated : (self.code.introduced.truncate last).count = last := by
    show (self.code.introduced.rows.take last).length = last
    rw [List.length_take]
    have length : self.code.introduced.rows.length = last + 1 := lastEq
    omega
  refine ⟨after, ?_, ?_⟩
  · have newest : self.blockIntroducedCodes.getLast? = some last := by
      rw [list, List.getLast?_concat]
    have matches_ : last + 1 = self.code.introducedLen := lastEq.symm
    simp only [popEntry, undoEntry, Action.bind_run, Action.modify_run, Action.get_run, newest,
      Action.assert, matches_, if_true]
    rfl
  · exact {
      grows := Grows.of_world rfl rfl rfl
      view := quiet_cells rfl rfl rfl rfl rfl rfl
      journal := journal
      stamps := RowStamps.of_world rfl (Nat.le_refl _)
      handles := fun held => ⟨held.account, held.storage⟩
      introduced := fun _ => by
        refine ⟨?_, ?_⟩
        · show self.blockIntroducedCodes.dropLast =
            List.range (self.code.introduced.truncate last).count
          rw [truncated, list, List.dropLast_concat]
        · show (self.code.introduced.truncate last).count =
            self.acceptedLen.blockIntroducedCodes + introducedEntries older
          rw [truncated]
          omega
      code := List.take_prefix _ _
      parentCode := rfl
      codeCache := rfl
      marks := rfl
      lifecycleAccounts := rfl
      retainedLogs := rfl
      logs := rfl
      control := rfl
      accountKey := fun _ => rfl
      slotOf := fun _ => rfl }

/-- Every entry of a consistent journal can be popped. -/
theorem popEntry_rewound (entry : Entry) (older : Journal)
    (journal : self.journal = entry :: older) (undoable : Undoable self) :
    ∃ after, popEntry entry older self = .ok () after ∧ Rewound env [entry] self after := by
  have valid : self.EntryValid entry := by
    apply undoable.entries
    rw [journal]
    exact List.mem_cons_self ..
  cases entry with
  | account undo => exact popEntry_account undo older journal undoable valid
  | storage undo => exact popEntry_storage undo older journal undoable valid
  | accountStorageDirty id => exact popEntry_accountStorageDirty id older journal undoable valid
  | warmAccount id => exact popEntry_warmAccount id older journal undoable valid
  | warmStorage id => exact popEntry_warmStorage id older journal undoable valid
  | deferredWarmAccount held => exact popEntry_deferredWarmAccount held older journal valid
  | deferredWarmStorage held => exact popEntry_deferredWarmStorage held older journal valid
  | transientStorage key previous => exact popEntry_transientStorage key previous older journal
  | introducedCode => exact popEntry_introducedCode older journal undoable

/-! ## Several entries -/

theorem Rewound.undoable (rewound : Rewound env entries before after) (undoable : Undoable before) :
    Undoable after where
  transaction := by
    rw [rewound.control.lifetime]
    exact undoable.transaction
  handles := rewound.handles undoable.handles
  stamps := rewound.stamps undoable.stamps
  entries entry member := by
    apply rewound.grows.entryValid
    apply undoable.entries
    rw [rewound.journal]
    exact List.mem_append_right _ member
  introduced := rewound.introduced undoable.introduced

theorem Rewound.refl (self : WorldState) : Rewound env [] self self where
  grows := Grows.refl self
  view := rfl
  journal := rfl
  stamps held := held
  handles held := held
  introduced held := held
  code := List.prefix_refl _
  parentCode := rfl
  accountKey _ := rfl
  slotOf _ := rfl
  codeCache := rfl
  marks := rfl
  lifecycleAccounts := rfl
  retainedLogs := rfl
  logs := rfl
  control := rfl

theorem Rewound.trans {newer older : Journal} {first second third : WorldState}
    (valid : ∀ entry ∈ first.journal, first.EntryValid entry)
    (left : Rewound env newer first second) (right : Rewound env older second third) :
    Rewound env (newer ++ older) first third where
  grows := left.grows.trans right.grows
  view := by
    have patches : older.map second.entryPatch = older.map first.entryPatch := by
      apply List.map_congr_left
      intro entry member
      apply left.grows.entryPatch
      apply valid
      rw [left.journal, right.journal]
      exact List.mem_append_right _ (List.mem_append_left _ member)
    rw [right.view, left.view, patches, List.map_append, UndoLog.unwind_append]
  journal := by rw [left.journal, right.journal, List.append_assoc]
  stamps held := right.stamps (left.stamps held)
  handles held := right.handles (left.handles held)
  introduced held := right.introduced (left.introduced held)
  code := right.code.trans left.code
  parentCode := right.parentCode.trans left.parentCode
  accountKey id := (right.accountKey id).trans (left.accountKey id)
  slotOf id := (right.slotOf id).trans (left.slotOf id)
  codeCache := right.codeCache.trans left.codeCache
  marks := right.marks.trans left.marks
  lifecycleAccounts := right.lifecycleAccounts.trans left.lifecycleAccounts
  retainedLogs := right.retainedLogs.trans left.retainedLogs
  logs := right.logs.trans left.logs
  control := left.control.trans right.control

theorem popEntries_rewound (entries older : Journal) (undoable : Undoable self)
    (journal : self.journal = entries ++ older) :
    ∃ after, popEntries entries.length self = .ok () after ∧ Rewound env entries self after := by
  induction entries generalizing self with
  | nil => exact ⟨self, rfl, Rewound.refl self⟩
  | cons entry entries ih =>
      obtain ⟨middle, ran, popped⟩ : ∃ after, popEntry entry (entries ++ older) self = .ok () after ∧
          Rewound env [entry] self after := popEntry_rewound entry (entries ++ older) journal undoable
      have rest : middle.journal = entries ++ older := by
        have same := popped.journal
        rw [journal] at same
        exact (List.cons.inj same).2.symm
      obtain ⟨after, ranRest, rewound⟩ := ih (popped.undoable undoable) rest
      refine ⟨after, ?_, popped.trans undoable.entries rewound⟩
      have step : popEntries (entries.length + 1) self =
          (popEntry entry (entries ++ older) >>= fun _ => popEntries entries.length) self := by
        rw [popEntries, Action.bind_run, Action.get_run]
        dsimp only
        rw [journal, popEntry, bind_assoc]
        rfl
      rw [List.length_cons, step, Action.bind_run, ran]
      exact ranRest

end WorldState

end EvmZig.State
