import EvmZig.State.Observations

/-!
# Steps that change cells

A mutation pushes entries that put the changed cells back, or changes only
cells that an entry above the base restores already.
-/

set_option autoImplicit false

namespace EvmZig.State

open Lib Zig

namespace WorldState

/-- A step of a running attempt, with everything the discipline asks of it. -/
structure Mutation (env : Env) (strict : Prop) (base : Nat) (before after : WorldState)
    (entries : Journal) : Prop where
  grows : Grows before after
  journal : after.journal = entries ++ before.journal
  valid : ∀ entry ∈ entries, after.EntryValid entry
  restored : ∀ cell, watched strict cell →
    UndoLog.unwind (entries.map after.entryPatch) (after.view env) cell = before.view env cell ∨
      UndoLog.Covers (UndoLog.above before.log base) cell
  accountStamp : ∀ address, (after.view env (.account address)).journaledScope =
      (before.view env (.account address)).journaledScope ∨
    before.lifetime.scope ≤ (after.view env (.account address)).journaledScope
  slotStamp : ∀ address slot, (after.view env (.slot address slot)).journaledScope =
      (before.view env (.slot address slot)).journaledScope ∨
    before.lifetime.scope ≤ (after.view env (.slot address slot)).journaledScope
  consistent : Consistent env before.clock (after.view env)
  settling : Settling before.lifetime.transaction (after.view env)
  stamps : RowStamps after
  handles : Handles after
  covered : CoveredAbove env base after
  introduced : Introduced after
  lists : Lists env after
  listsGrow : ListsGrow before after
  logs : strict → LogBuffer.Extends before.logs after.logs
  control : SameControl before after

variable {env : Env} {strict : Prop} {base : Nat} {scope : Generation}
  {before after self : WorldState} {entries : Journal} {log : List (Patch Cell.Value)} {cell : Cell}

theorem Mutation.step (mutation : Mutation env strict base before after entries)
    (inv : Inv env base scope before) (mode : before.transactionActive = true) :
    Inv env base scope after ∧ (calls env strict base scope).rel before after := by
  have active := inv.active mode
  have control := mutation.control
  have inside : base ≤ before.log.length := by
    rw [log_length]
    exact inv.inside
  refine ⟨?_, ?_, control.lifetime, control.scopeDepth⟩
  · refine ⟨?_, ?_, ?_, mutation.stamps, ?_, ?_⟩
    · rw [mutation.journal, List.length_append]
      exact Nat.le_add_left_of_le inv.inside
    · rw [control.lifetime]
      exact inv.scope
    · rw [control.clock]
      exact mutation.consistent
    · intro _
      refine ⟨?_, ?_, ?_, ?_, mutation.handles, ?_, mutation.covered, ?_, mutation.introduced,
        mutation.lists⟩
      · rw [control.lifetime]
        exact active.transaction
      · rw [control.lifetime, control.clock]
        exact active.transactionPast
      · rw [control.lifetime]
        exact active.scope
      · rw [control.lifetime, control.clock]
        exact active.scopePast
      · rw [mutation.journal]
        intro entry member
        rcases List.mem_append.mp member with new | old
        · exact mutation.valid entry new
        · exact mutation.grows.entryValid (active.entries entry old)
      · rw [control.lifetime]
        exact mutation.settling
    · intro idle
      rw [control.transactionActive, mode] at idle
      cases idle
  · refine ⟨mutation.grows, ?_, ?_, ?_, control.transactionActive, control.sealed,
      control.attemptOpen, control.acceptedLen, control.worldEpoch, ?_, ?_, ?_, mutation.listsGrow,
        mutation.logs⟩
    · rw [mutation.grows.log active.entries mutation.journal]
      exact UndoLog.Recorded.step inside _ mutation.restored
    · rw [mutation.journal]
      exact List.suffix_append _ _
    · rw [control.lifetime]
    · rw [control.clock]
    · rw [← inv.scope]
      exact mutation.accountStamp
    · rw [← inv.scope]
      exact mutation.slotStamp

/-- Coverage survives every extension of the log. -/
theorem mem_above_append {entries : List (Patch Cell.Value)} {patch : Patch Cell.Value}
    (inside : base ≤ log.length) (member : patch ∈ UndoLog.above log base) :
    patch ∈ UndoLog.above (entries ++ log) base := by
  rw [UndoLog.above_append _ _ inside]
  exact List.mem_append_right _ member

theorem covers_account {address : Address} (covered : ∃ patch ∈ log, RestoresAccount patch address)
    (inside : cell.OfAccount address) (notWarm : ∀ other, cell ≠ .accountWarm other) :
    UndoLog.Covers log cell := by
  obtain ⟨patch, member, account, dirty, effect⟩ := covered
  cases cell with
  | account other =>
      cases inside
      exact ⟨patch, member, account⟩
  | storageDirty other =>
      cases inside
      exact ⟨patch, member, dirty⟩
  | accountEffect other =>
      cases inside
      exact ⟨patch, member, effect⟩
  | accountWarm other => exact absurd rfl (notWarm other)
  | _ => exact inside.elim

theorem covers_slot {address : Address} {slot : U256}
    (covered : ∃ patch ∈ log, RestoresSlot patch address slot) (inside : cell.OfSlot address slot)
    (notWarm : ∀ other otherSlot, cell ≠ .slotWarm other otherSlot) : UndoLog.Covers log cell := by
  obtain ⟨patch, member, slotCell, effect⟩ := covered
  cases cell with
  | slot other otherSlot =>
      cases inside
      exact ⟨patch, member, slotCell⟩
  | slotEffect other otherSlot =>
      cases inside
      exact ⟨patch, member, effect⟩
  | slotWarm other otherSlot => exact absurd rfl (notWarm other otherSlot)
  | _ => exact inside.elim

/-! ## Steps that leave accounts and slots alone -/

structure Light (env : Env) (strict : Prop) (before after : WorldState) (entries : Journal) :
    Prop where
  grows : Grows before after
  journal : after.journal = entries ++ before.journal
  valid : ∀ entry ∈ entries, after.EntryValid entry
  restored : ∀ cell, watched strict cell →
    UndoLog.unwind (entries.map after.entryPatch) (after.view env) cell = before.view env cell
  account : ∀ address, after.view env (.account address) = before.view env (.account address)
  slot : ∀ address slot, after.view env (.slot address slot) = before.view env (.slot address slot)
  accountKey : ∀ id, after.world.accounts.key id = before.world.accounts.key id
  slotOf : ∀ id, after.slotOf id = before.slotOf id
  stamps : RowStamps before → RowStamps after
  handles : Handles before → Handles after
  introduced : Introduced before → Introduced after
  code : before.code.introduced.rows <+: after.code.introduced.rows
  parentCode : after.code.parent = before.code.parent
  codeCache : after.world.code = before.world.code
  marks : after.marks = before.marks
  logs : strict → LogBuffer.Extends before.logs after.logs
  control : SameControl before after

namespace Light

variable {entries : Journal}

theorem blockChangedAccounts (light : Light env strict before after entries) :
    after.blockChangedAccounts = before.blockChangedAccounts :=
  congrArg Marks.blockChangedAccounts light.marks

theorem blockStorageWipes (light : Light env strict before after entries) :
    after.blockStorageWipes = before.blockStorageWipes :=
  congrArg Marks.blockStorageWipes light.marks

theorem dirtyStorage (light : Light env strict before after entries) :
    after.dirtyStorage = before.dirtyStorage :=
  congrArg Marks.dirtyStorage light.marks

theorem changedAccounts (light : Light env strict before after entries) :
    after.changedAccounts = before.changedAccounts :=
  congrArg Marks.changedAccounts light.marks

theorem changedStorage (light : Light env strict before after entries) :
    after.changedStorage = before.changedStorage :=
  congrArg Marks.changedStorage light.marks

theorem transactionStorageWipes (light : Light env strict before after entries) :
    after.transactionStorageWipes = before.transactionStorageWipes :=
  congrArg Marks.transactionStorageWipes light.marks

theorem lists (light : Light env strict before after entries) (held : Lists env before) :
    Lists env after := by
  obtain ⟨changes, wipes, dirty, transactionWipes⟩ := held
  have control := light.control
  have accountMark : ∀ marked id,
      after.accountMark env marked id = before.accountMark env marked id := by
    intro marked id
    simp only [WorldState.accountMark, light.accountKey, light.account]
  have slotMark : ∀ marked id, after.slotMark env marked id = before.slotMark env marked id := by
    intro marked id
    simp only [WorldState.slotMark, light.slotOf, light.slot]
  refine ⟨?_, ?_, ?_, ?_⟩
  · rw [light.blockChangedAccounts, control.acceptedLen, control.reverted]
    exact changes.congr fun id => by rw [accountMark]
  · rw [light.blockStorageWipes, control.acceptedLen, control.reverted]
    exact wipes.congr fun id => by rw [accountMark]
  · rw [light.dirtyStorage, control.acceptedLen, control.reverted]
    exact dirty.congr fun id => by rw [slotMark]
  · rw [light.transactionStorageWipes, control.lifetime, control.reverted]
    exact transactionWipes.congr fun id => by rw [accountMark]

theorem consistent (light : Light env strict before after entries)
    (held : Consistent env before.clock (before.view env)) :
    Consistent env before.clock (after.view env) := by
  refine ⟨?_, ?_⟩
  · intro address
    rw [light.account]
    exact held.account address
  · intro address slot
    rw [light.account, light.slot]
    exact held.slot address slot

theorem settling (light : Light env strict before after entries) {transaction : Generation}
    (held : Settling transaction (before.view env)) : Settling transaction (after.view env) := by
  refine ⟨?_, ?_⟩
  · intro address
    rw [light.account]
    exact held.wiped address
  · intro address slot
    rw [light.account, light.slot]
    exact held.current address slot

theorem covered (light : Light env strict before after entries) (active : Active env base before)
    (inside : base ≤ before.log.length) : CoveredAbove env base after := by
  have log := light.grows.log active.entries light.journal
  refine ⟨?_, ?_⟩
  · intro address
    rw [light.account, light.control.lifetime, log]
    intro current
    obtain ⟨patch, member, restores⟩ := active.covered.account address current
    exact ⟨patch, mem_above_append inside member, restores⟩
  · intro address slot
    rw [light.slot, light.control.lifetime, log]
    intro current
    obtain ⟨patch, member, restores⟩ := active.covered.slot address slot current
    exact ⟨patch, mem_above_append inside member, restores⟩

theorem listsGrow (light : Light env strict before after entries) : ListsGrow before after where
  blockChangedAccounts := by rw [light.blockChangedAccounts]
  blockStorageWipes := by rw [light.blockStorageWipes]
  dirtyStorage := by rw [light.dirtyStorage]
  changedAccounts := by rw [light.changedAccounts]
  changedStorage := by rw [light.changedStorage]
  transactionStorageWipes := by rw [light.transactionStorageWipes]
  introduced := light.code
  parentCode := light.parentCode
  codeCache := by rw [light.codeCache]

theorem mutation (light : Light env strict before after entries)
    (inv : Inv env base scope before) (mode : before.transactionActive = true) :
    Mutation env strict base before after entries := by
  have active := inv.active mode
  have inside : base ≤ before.log.length := by
    rw [log_length]
    exact inv.inside
  exact {
    grows := light.grows
    journal := light.journal
    valid := light.valid
    restored := fun cell watch => .inl (light.restored cell watch)
    accountStamp := fun address => .inl (by rw [light.account])
    slotStamp := fun address slot => .inl (by rw [light.slot])
    consistent := light.consistent inv.consistent
    settling := light.settling active.settling
    stamps := light.stamps inv.stamps
    handles := light.handles active.handles
    covered := light.covered active inside
    introduced := light.introduced active.introduced
    lists := light.lists active.lists
    listsGrow := light.listsGrow
    logs := light.logs
    control := light.control }

end Light

/-! ## Account rows -/

/-- What an assignment to an account row has to respect. -/
structure AccountStep (env : Env) (before after : WorldState) (id : AccountId)
    (address : Address) (row row' : AccountRow) : Prop where
  set : AccountSet before after id row row'
  key : before.world.accounts.key id = some address
  handle : row'.observation = row.observation
  warm : row'.warmTransaction = row.warmTransaction
  owners : after.observedAccounts.map (·.account) = before.observedAccounts.map (·.account)
  others : ∀ (index : Nat) (observed : AccountObservationRow),
    before.observedAccounts[index]? = some observed →
    observed.account ≠ id → after.observedAccounts[index]? = some observed
  observedStorage : after.observedStorage = before.observedStorage
  clock : after.clock = before.clock
  consistent : AccountConsistent env before.clock address row'.cell
  settled : row'.wipedTransaction = before.lifetime.transaction → row'.flags.storageWiped = true
  wiped : row'.flags.storageWiped = row.flags.storageWiped ∨ row'.flags.storageWiped = true
  epoch : (row'.storageIncarnation = row.storageIncarnation ∧
      row'.wipedTransaction = row.wipedTransaction) ∨
    row'.wipedTransaction = before.lifetime.transaction

namespace AccountStep

variable {id : AccountId} {address : Address} {row row' : AccountRow}

theorem grows (step : AccountStep env before after id address row row') : Grows before after :=
  step.set.grows fun same => by rw [step.handle, same]

theorem view_other (step : AccountStep env before after id address row row')
    (active : Active env base before) (elsewhere : ¬cell.OfAccount address) :
    after.view env cell = before.view env cell :=
  step.set.view_other step.key (fun _ differs =>
    accountEffect_other active.handles active.transaction step.set.lifetime step.key step.others
      differs) step.observedStorage elsewhere

theorem view_account (step : AccountStep env before after id address row row') :
    after.view env (.account address) = row'.cell := by
  simp only [view, step.set.at_same step.key]

theorem view_warm (step : AccountStep env before after id address row row') :
    after.view env (.accountWarm address) = before.view env (.accountWarm address) := by
  simp only [view, step.set.at_same step.key, accountAt_of_row step.key step.set.held, step.warm,
    step.set.lifetime]

theorem held_account (step : AccountStep env before after id address row row') :
    before.view env (.account address) = row.cell := by
  simp only [view, accountAt_of_row step.key step.set.held]

theorem view_account_other (step : AccountStep env before after id address row row')
    (active : Active env base before) {other : Address} (differs : other ≠ address) :
    after.view env (.account other) = before.view env (.account other) :=
  step.view_other active differs

theorem view_slot (step : AccountStep env before after id address row row')
    (active : Active env base before) (other : Address) (slot : U256) :
    after.view env (.slot other slot) = before.view env (.slot other slot) :=
  step.view_other active fun inside => inside

theorem cells (step : AccountStep env before after id address row row')
    (active : Active env base before) (inv : Inv env base scope before) :
    Consistent env before.clock (after.view env) := by
  refine ⟨?_, ?_⟩
  · intro other
    by_cases same : other = address
    · subst same
      rw [step.view_account]
      exact step.consistent
    · rw [step.view_account_other active same]
      exact inv.consistent.account other
  · intro other slot
    have held := inv.consistent.slot other slot
    rw [step.view_slot active]
    by_cases same : other = address
    · subst same
      rw [step.view_account]
      rw [step.held_account] at held
      refine ⟨?_, held.scope, held.undo⟩
      intro clean unwiped
      rcases step.wiped with flag | flag
      · exact held.unchanged clean (flag ▸ unwiped)
      · have contradiction := flag.symm.trans unwiped
        cases contradiction
    · rw [step.view_account_other active same]
      exact held

theorem settles (step : AccountStep env before after id address row row')
    (active : Active env base before) :
    Settling before.lifetime.transaction (after.view env) := by
  refine ⟨?_, ?_⟩
  · intro other
    by_cases same : other = address
    · subst same
      rw [step.view_account]
      exact step.settled
    · rw [step.view_account_other active same]
      exact active.settling.wiped other
  · intro other slot
    rw [step.view_slot active]
    intro dirty
    by_cases same : other = address
    · subst same
      rw [step.view_account]
      have held := active.settling.current other slot dirty
      rw [step.held_account] at held
      rcases step.epoch with ⟨incarnation, transaction⟩ | wiped
      · refine held.imp (fun current => ?_) fun wiped => ?_
        · exact current.trans incarnation.symm
        · exact transaction.trans wiped
      · exact .inr wiped
    · rw [step.view_account_other active same]
      exact active.settling.current other slot dirty

theorem rowStamps (step : AccountStep env before after id address row row')
    (held : RowStamps before) : RowStamps after := by
  apply step.set.stamps step.clock
  · rw [step.warm]
    exact (held.account id row step.set.held).1
  · rw [step.handle]
    exact (held.account id row step.set.held).2
  · exact held

theorem slotMark (step : AccountStep env before after id address row row')
    (active : Active env base before) (marked : SlotCell → Bool) (place : StorageId) :
    after.slotMark env marked place = before.slotMark env marked place := by
  unfold WorldState.slotMark
  rw [step.set.slotOf_eq]
  cases before.slotOf place with
  | none => rfl
  | some found => simp only [Option.map_some, step.view_slot active]

theorem mark_same (step : AccountStep env before after id address row row')
    (marked : AccountCell → Bool) : after.accountMark env marked id = marked row'.cell := by
  unfold WorldState.accountMark
  rw [step.set.key_eq, step.key, Option.map_some, Option.getD_some, step.view_account]

theorem mark_held (step : AccountStep env before after id address row row')
    (marked : AccountCell → Bool) : before.accountMark env marked id = marked row.cell := by
  unfold WorldState.accountMark
  rw [step.key, Option.map_some, Option.getD_some, step.held_account]

theorem mark_other (step : AccountStep env before after id address row row')
    (active : Active env base before) (marked : AccountCell → Bool) {other : AccountId}
    (differs : other ≠ id) :
    after.accountMark env marked other = before.accountMark env marked other := by
  unfold WorldState.accountMark
  rw [step.set.key_eq]
  cases found : before.world.accounts.key other with
  | none => rfl
  | some otherAddress =>
      have elsewhere : otherAddress ≠ address := by
        rintro rfl
        exact differs (Table.key_inj found step.key)
      simp only [Option.map_some, step.view_account_other active elsewhere]

/-- A mark the row keeps stays as it was everywhere. -/
theorem mark_eq (step : AccountStep env before after id address row row')
    (active : Active env base before) (marked : AccountCell → Bool)
    (same : marked row'.cell = marked row.cell) (other : AccountId) :
    after.accountMark env marked other = before.accountMark env marked other := by
  by_cases here : other = id
  · subst here
    rw [step.mark_same, step.mark_held, same]
  · exact step.mark_other active marked here

/-- A mark the row gains is gained there only. -/
theorem mark_gained (step : AccountStep env before after id address row row')
    (active : Active env base before) (marked : AccountCell → Bool)
    (gained : marked row'.cell = true) (other : AccountId) :
    after.accountMark env marked other = true ↔
      before.accountMark env marked other = true ∨ other = id := by
  by_cases here : other = id
  · subst here
    rw [step.mark_same]
    exact ⟨fun _ => .inr rfl, fun _ => gained⟩
  · rw [step.mark_other active marked here]
    exact ⟨.inl, fun holds => holds.resolve_right here⟩

/-- Coverage after a step that kept the stamp, or stamped the row and covered it. -/
theorem coveredAbove (step : AccountStep env before after id address row row')
    (active : Active env base before) (inv : Inv env base scope before)
    (journal : after.journal = entries ++ before.journal)
    (stamped : row'.journaledScope = row.journaledScope ∨ ∃ patch ∈ entries.map after.entryPatch,
      RestoresAccount patch address) :
    CoveredAbove env base after := by
  have inside : base ≤ before.log.length := by
    rw [log_length]
    exact inv.inside
  have logEq := step.grows.log active.entries journal
  refine ⟨?_, ?_⟩
  · intro other
    rw [step.set.lifetime, logEq]
    by_cases same : other = address
    · subst same
      rw [step.view_account]
      intro current
      rcases stamped with kept | ⟨patch, member, restores⟩
      · have held : (before.view env (.account other)).journaledScope = before.lifetime.scope := by
          rw [step.held_account]
          exact kept.symm.trans current
        obtain ⟨patch, member, restores⟩ := active.covered.account other held
        exact ⟨patch, mem_above_append inside member, restores⟩
      · refine ⟨patch, ?_, restores⟩
        rw [UndoLog.above_append _ _ inside]
        exact List.mem_append_left _ member
    · rw [step.view_account_other active same]
      intro current
      obtain ⟨patch, member, restores⟩ := active.covered.account other current
      exact ⟨patch, mem_above_append inside member, restores⟩
  · intro other slot
    rw [step.set.lifetime, logEq, step.view_slot active]
    intro current
    obtain ⟨patch, member, restores⟩ := active.covered.slot other slot current
    exact ⟨patch, mem_above_append inside member, restores⟩

/-- The mutation an assignment makes, once its lists and restored cells are known. -/
theorem mutation (step : AccountStep env before after id address row row')
    (inv : Inv env base scope before) (mode : before.transactionActive = true)
    (journal : after.journal = entries ++ before.journal)
    (valid : ∀ entry ∈ entries, after.EntryValid entry)
    (silent : ∀ entry ∈ entries, ∀ cell : Cell, ¬cell.OfAccount address →
      after.entryPatch entry cell = none)
    (restored : ∀ cell : Cell, cell.OfAccount address → (∀ other, cell ≠ .accountWarm other) →
      UndoLog.unwind (entries.map after.entryPatch) (after.view env) cell = before.view env cell ∨
        UndoLog.Covers (UndoLog.above before.log base) cell)
    (silentWarm : ∀ entry ∈ entries, after.entryPatch entry (.accountWarm address) = none)
    (stamped : row'.journaledScope = row.journaledScope ∨ row'.journaledScope =
      before.lifetime.scope ∧ ∃ patch ∈ entries.map after.entryPatch, RestoresAccount patch address)
    (introduced : Introduced after) (lists : Lists env after) (listsGrow : ListsGrow before after)
    (logs : after.logs = before.logs) (control : SameControl before after) :
    Mutation env strict base before after entries := by
  have active := inv.active mode
  refine {
    grows := step.grows
    journal := journal
    valid := valid
    restored := ?_
    accountStamp := ?_
    slotStamp := ?_
    consistent := step.cells active inv
    settling := step.settles active
    stamps := step.rowStamps inv.stamps
    handles := step.set.handles step.handle step.owners step.observedStorage active.handles
    covered := step.coveredAbove active inv journal (stamped.imp (fun kept => kept) And.right)
    introduced := introduced
    lists := lists
    listsGrow := listsGrow
    logs := fun _ => logs ▸ LogBuffer.Extends.refl _
    control := control }
  · intro cell _
    by_cases inside : cell.OfAccount address
    · cases cell with
      | accountWarm other =>
          cases inside
          left
          rw [UndoLog.unwind_uncovered, step.view_warm]
          intro patch member
          obtain ⟨entry, entryMember, rfl⟩ := List.mem_map.mp member
          exact silentWarm entry entryMember
      | account other => exact restored _ inside fun _ same => by cases same
      | storageDirty other => exact restored _ inside fun _ same => by cases same
      | accountEffect other => exact restored _ inside fun _ same => by cases same
      | _ => exact inside.elim
    · left
      rw [UndoLog.unwind_uncovered, step.view_other active inside]
      intro patch member
      obtain ⟨entry, entryMember, rfl⟩ := List.mem_map.mp member
      exact silent entry entryMember cell inside
  · intro other
    by_cases same : other = address
    · subst same
      rw [step.view_account, step.held_account]
      exact stamped.imp (fun kept => kept) fun fresh => Nat.le_of_eq fresh.1.symm
    · rw [step.view_account_other active same]
      exact .inl rfl
  · intro other slot
    rw [step.view_slot active]
    exact .inl rfl

end AccountStep

end WorldState

end EvmZig.State
