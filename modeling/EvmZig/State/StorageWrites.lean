import EvmZig.State.AccountCalls

/-!
# Storage writes keep the discipline

A slot is journaled once per scope, like an account row.  A first write to an
account whose entry is not in the scope journals the storage-dirty flag alone.
-/

set_option autoImplicit false

namespace EvmZig.State

open Lib Zig

namespace WorldState

variable {env : Env} {strict : Prop} {base : Nat} {scope : Generation} {before after self : WorldState}

/-- What an assignment to a storage row has to respect. -/
structure SlotStep (env : Env) (before after : WorldState) (id : StorageId)
    (address : Address) (slot : U256) (row row' : StorageRow) : Prop where
  set : StorageSet before after id row row'
  place : before.slotOf id = some (address, slot)
  handle : row'.observation = row.observation
  warm : row'.warmTransaction = row.warmTransaction
  owners : after.observedStorage.map (·.storage) = before.observedStorage.map (·.storage)
  others : ∀ (index : Nat) (observed : StorageObservationRow),
    before.observedStorage[index]? = some observed →
    observed.storage ≠ id → after.observedStorage[index]? = some observed
  observedAccounts : after.observedAccounts = before.observedAccounts
  clock : after.clock = before.clock
  consistent : SlotConsistent env before.clock address slot (before.view env (.account address))
    row'.cell
  settled : row'.flags.blockDirty = true →
    row'.storageIncarnation = (before.view env (.account address)).storageIncarnation ∨
      (before.view env (.account address)).wipedTransaction = before.lifetime.transaction

namespace SlotStep

variable {id : StorageId} {address : Address} {slot : U256} {row row' : StorageRow}

theorem grows (step : SlotStep env before after id address slot row row') : Grows before after :=
  step.set.grows fun same => by rw [step.handle, same]

theorem view_other (step : SlotStep env before after id address slot row row')
    (active : Active env base before) {cell : Cell} (elsewhere : ¬cell.OfSlot address slot) :
    after.view env cell = before.view env cell :=
  step.set.view_other step.place (fun _ _ differs =>
    storageEffect_other active.handles active.transaction step.set.lifetime step.place step.others
      differs) step.observedAccounts elsewhere

theorem view_slot (step : SlotStep env before after id address slot row row') :
    after.view env (.slot address slot) = row'.cell := by
  simp only [view, step.set.at_same step.place]

theorem held_slot (step : SlotStep env before after id address slot row row') :
    before.view env (.slot address slot) = row.cell := by
  simp only [view, storageAt_of_row step.place step.set.held]

theorem view_warm (step : SlotStep env before after id address slot row row') :
    after.view env (.slotWarm address slot) = before.view env (.slotWarm address slot) := by
  simp only [view, step.set.at_same step.place, storageAt_of_row step.place step.set.held,
    step.warm, step.set.lifetime]

theorem view_slot_other (step : SlotStep env before after id address slot row row')
    (active : Active env base before) {other : Address} {otherSlot : U256}
    (differs : (other, otherSlot) ≠ (address, slot)) :
    after.view env (.slot other otherSlot) = before.view env (.slot other otherSlot) :=
  step.view_other active differs

theorem view_account (step : SlotStep env before after id address slot row row')
    (active : Active env base before) (other : Address) :
    after.view env (.account other) = before.view env (.account other) :=
  step.view_other active fun inside => inside

theorem cells (step : SlotStep env before after id address slot row row')
    (active : Active env base before) (inv : Inv env base scope before) :
    Consistent env before.clock (after.view env) := by
  refine ⟨?_, ?_⟩
  · intro other
    rw [step.view_account active]
    exact inv.consistent.account other
  · intro other otherSlot
    rw [step.view_account active]
    by_cases same : (other, otherSlot) = (address, slot)
    · cases same
      rw [step.view_slot]
      exact step.consistent
    · rw [step.view_slot_other active same]
      exact inv.consistent.slot other otherSlot

theorem settles (step : SlotStep env before after id address slot row row')
    (active : Active env base before) :
    Settling before.lifetime.transaction (after.view env) := by
  refine ⟨?_, ?_⟩
  · intro other
    rw [step.view_account active]
    exact active.settling.wiped other
  · intro other otherSlot
    rw [step.view_account active]
    by_cases same : (other, otherSlot) = (address, slot)
    · cases same
      rw [step.view_slot]
      exact step.settled
    · rw [step.view_slot_other active same]
      exact active.settling.current other otherSlot

theorem rowStamps (step : SlotStep env before after id address slot row row')
    (held : RowStamps before) : RowStamps after := by
  apply step.set.stamps step.clock
  · rw [step.warm]
    exact (held.storage id row step.set.held).1
  · rw [step.handle]
    exact (held.storage id row step.set.held).2
  · exact held

theorem accountMark (step : SlotStep env before after id address slot row row')
    (active : Active env base before) (marked : AccountCell → Bool) (other : AccountId) :
    after.accountMark env marked other = before.accountMark env marked other := by
  unfold WorldState.accountMark
  rw [step.set.accounts]
  cases before.world.accounts.key other with
  | none => rfl
  | some found => simp only [Option.map_some, step.view_account active]

theorem mark_same (step : SlotStep env before after id address slot row row')
    (marked : SlotCell → Bool) : after.slotMark env marked id = marked row'.cell := by
  unfold WorldState.slotMark
  rw [step.set.slotOf_eq, step.place, Option.map_some, Option.getD_some, step.view_slot]

theorem mark_held (step : SlotStep env before after id address slot row row')
    (marked : SlotCell → Bool) : before.slotMark env marked id = marked row.cell := by
  unfold WorldState.slotMark
  rw [step.place, Option.map_some, Option.getD_some, step.held_slot]

theorem mark_other (step : SlotStep env before after id address slot row row')
    (active : Active env base before) (marked : SlotCell → Bool) {other : StorageId}
    (differs : other ≠ id) :
    after.slotMark env marked other = before.slotMark env marked other := by
  unfold WorldState.slotMark
  rw [step.set.slotOf_eq]
  cases found : before.slotOf other with
  | none => rfl
  | some place =>
      have elsewhere : (place.1, place.2) ≠ (address, slot) := by
        intro same
        have placeEq : place = (address, slot) := same
        subst placeEq
        exact differs (slotOf_inj found step.place)
      simp only [Option.map_some, step.view_slot_other active elsewhere]

theorem mark_eq (step : SlotStep env before after id address slot row row')
    (active : Active env base before) (marked : SlotCell → Bool)
    (same : marked row'.cell = marked row.cell) (other : StorageId) :
    after.slotMark env marked other = before.slotMark env marked other := by
  by_cases here : other = id
  · subst here
    rw [step.mark_same, step.mark_held, same]
  · exact step.mark_other active marked here

theorem mark_gained (step : SlotStep env before after id address slot row row')
    (active : Active env base before) (marked : SlotCell → Bool)
    (gained : marked row'.cell = true) (other : StorageId) :
    after.slotMark env marked other = true ↔
      before.slotMark env marked other = true ∨ other = id := by
  by_cases here : other = id
  · subst here
    rw [step.mark_same]
    exact ⟨fun _ => .inr rfl, fun _ => gained⟩
  · rw [step.mark_other active marked here]
    exact ⟨.inl, fun holds => holds.resolve_right here⟩

theorem coveredAbove (step : SlotStep env before after id address slot row row')
    (active : Active env base before) (inv : Inv env base scope before) {entries : Journal}
    (journal : after.journal = entries ++ before.journal)
    (stamped : row'.journaledScope = row.journaledScope ∨
      ∃ patch ∈ entries.map after.entryPatch, RestoresSlot patch address slot) :
    CoveredAbove env base after := by
  have inside : base ≤ before.log.length := by
    rw [log_length]
    exact inv.inside
  have logEq := step.grows.log active.entries journal
  refine ⟨?_, ?_⟩
  · intro other
    rw [step.set.lifetime, logEq, step.view_account active]
    intro current
    obtain ⟨patch, member, restores⟩ := active.covered.account other current
    exact ⟨patch, mem_above_append inside member, restores⟩
  · intro other otherSlot
    rw [step.set.lifetime, logEq]
    by_cases same : (other, otherSlot) = (address, slot)
    · cases same
      rw [step.view_slot]
      intro current
      rcases stamped with kept | ⟨patch, member, restores⟩
      · have held : (before.view env (.slot address slot)).journaledScope =
            before.lifetime.scope := by
          rw [step.held_slot]
          exact kept.symm.trans current
        obtain ⟨patch, member, restores⟩ := active.covered.slot address slot held
        exact ⟨patch, mem_above_append inside member, restores⟩
      · refine ⟨patch, ?_, restores⟩
        rw [UndoLog.above_append _ _ inside]
        exact List.mem_append_left _ member
    · rw [step.view_slot_other active same]
      intro current
      obtain ⟨patch, member, restores⟩ := active.covered.slot other otherSlot current
      exact ⟨patch, mem_above_append inside member, restores⟩

theorem mutation (step : SlotStep env before after id address slot row row')
    (inv : Inv env base scope before) (mode : before.transactionActive = true) {entries : Journal}
    (journal : after.journal = entries ++ before.journal)
    (valid : ∀ entry ∈ entries, after.EntryValid entry)
    (silent : ∀ entry ∈ entries, ∀ cell : Cell, ¬cell.OfSlot address slot →
      after.entryPatch entry cell = none)
    (restored : ∀ cell : Cell, cell.OfSlot address slot →
      (∀ other otherSlot, cell ≠ .slotWarm other otherSlot) →
      UndoLog.unwind (entries.map after.entryPatch) (after.view env) cell = before.view env cell ∨
        UndoLog.Covers (UndoLog.above before.log base) cell)
    (silentWarm : ∀ entry ∈ entries, after.entryPatch entry (.slotWarm address slot) = none)
    (stamped : row'.journaledScope = row.journaledScope ∨
      row'.journaledScope = before.lifetime.scope ∧
        ∃ patch ∈ entries.map after.entryPatch, RestoresSlot patch address slot)
    (introduced : Introduced after) (lists : Lists env after) (listsGrow : ListsGrow before after)
    (logs : after.logs = before.logs) (control : SameControl before after) :
    Mutation env strict base before after entries := by
  have active := inv.active mode
  refine {
    grows := step.grows
    journal := journal
    valid := valid
    restored := ?_
    accountStamp := ?_
    slotStamp := ?_
    consistent := step.cells active inv
    settling := step.settles active
    stamps := step.rowStamps inv.stamps
    handles := step.set.handles step.handle step.owners step.observedAccounts active.handles
    covered := step.coveredAbove active inv journal (stamped.imp (fun kept => kept) And.right)
    introduced := introduced
    lists := lists
    listsGrow := listsGrow
    logs := fun _ => logs ▸ LogBuffer.Extends.refl _
    control := control }
  · intro cell _
    by_cases inside : cell.OfSlot address slot
    · cases cell with
      | slotWarm other otherSlot =>
          cases inside
          left
          rw [UndoLog.unwind_uncovered, step.view_warm]
          intro patch member
          obtain ⟨entry, entryMember, rfl⟩ := List.mem_map.mp member
          exact silentWarm entry entryMember
      | slot other otherSlot => exact restored _ inside fun _ _ same => by cases same
      | slotEffect other otherSlot => exact restored _ inside fun _ _ same => by cases same
      | _ => exact inside.elim
    · left
      rw [UndoLog.unwind_uncovered, step.view_other active inside]
      intro patch member
      obtain ⟨entry, entryMember, rfl⟩ := List.mem_map.mp member
      exact silent entry entryMember cell inside
  · intro other
    rw [step.view_account active]
    exact .inl rfl
  · intro other otherSlot
    by_cases same : (other, otherSlot) = (address, slot)
    · cases same
      rw [step.view_slot, step.held_slot]
      exact stamped.imp (fun kept => kept) fun fresh => Nat.le_of_eq fresh.1.symm
    · rw [step.view_slot_other active same]
      exact .inl rfl

/-- An assignment to a slot whose entry of this scope is in the journal. -/
theorem covered (step : SlotStep env before after id address slot row row')
    (inv : Inv env base scope before) (mode : before.transactionActive = true)
    (journaled : row.journaledScope = before.lifetime.scope)
    (kept : row'.journaledScope = row.journaledScope) (lists : Lists env after)
    (listsGrow : ListsGrow before after) (introduced : Introduced after)
    (control : SameControl before after) (journal : after.journal = before.journal)
    (logs : after.logs = before.logs) : Mutation env strict base before after [] := by
  have active := inv.active mode
  have unchanged : after.journal = [] ++ before.journal := journal
  apply step.mutation inv mode unchanged
  · intro entry member
    exact absurd member List.not_mem_nil
  · intro entry member
    exact absurd member List.not_mem_nil
  · intro cell inside notWarm
    right
    apply covers_slot (active.covered.slot address slot _) inside notWarm
    rw [step.held_slot]
    exact journaled
  · intro entry member
    exact absurd member List.not_mem_nil
  · exact .inl kept
  · exact introduced
  · exact lists
  · exact listsGrow
  · exact logs
  · exact control

/-- Lists and marks are untouched. -/
theorem lists_same (step : SlotStep env before after id address slot row row')
    (active : Active env base before) (same : SameLists before after)
    (control : SameControl before after)
    (dirty : row'.flags.blockDirty = row.flags.blockDirty) : Lists env after := by
  obtain ⟨changes, wipes, dirtySlots, transactionWipes⟩ := active.lists
  refine ⟨?_, ?_, ?_, ?_⟩
  · rw [same.blockChangedAccounts, control.acceptedLen, control.reverted]
    exact changes.congr fun other => by rw [step.accountMark active]
  · rw [same.blockStorageWipes, control.acceptedLen, control.reverted]
    exact wipes.congr fun other => by rw [step.accountMark active]
  · rw [same.dirtyStorage, control.acceptedLen, control.reverted]
    exact dirtySlots.congr fun other => by rw [step.mark_eq active _ dirty]
  · rw [same.transactionStorageWipes, control.lifetime, control.reverted]
    exact transactionWipes.congr fun other => by rw [step.accountMark active]

end SlotStep

/-! ## Undo entries -/

theorem slotPatch_slot (address : Address) (slot : U256) (cell : SlotCell)
    (effect : StorageEffect) :
    slotPatch address slot cell effect (.slot address slot) = some cell := by
  rw [slotPatch, Patch.also_other _ _ (by simp), Patch.also_same]

theorem slotPatch_effect (address : Address) (slot : U256) (cell : SlotCell)
    (effect : StorageEffect) :
    slotPatch address slot cell effect (.slotEffect address slot) = some effect :=
  Patch.also_same _ _ _

theorem slotPatch_other {address : Address} {slot : U256} (saved : SlotCell)
    (effect : StorageEffect) {cell : Cell} (elsewhere : ¬cell.OfSlot address slot) :
    slotPatch address slot saved effect cell = none := by
  rw [slotPatch, Patch.also_other, Patch.also_other, Patch.silent_apply]
  · rintro rfl
    exact elsewhere rfl
  · rintro rfl
    exact elsewhere rfl

theorem slotPatch_warm (address other : Address) (slot otherSlot : U256) (saved : SlotCell)
    (effect : StorageEffect) :
    slotPatch address slot saved effect (.slotWarm other otherSlot) = none := by
  rw [slotPatch, Patch.also_other _ _ (by simp), Patch.also_other _ _ (by simp),
    Patch.silent_apply]

theorem slotPatch_restores (address : Address) (slot : U256) (cell : SlotCell)
    (effect : StorageEffect) : RestoresSlot (slotPatch address slot cell effect) address slot := by
  refine ⟨?_, ?_⟩
  · rw [slotPatch_slot]
    rfl
  · rw [slotPatch_effect]
    rfl

/-- The record a current handle leads to. -/
theorem view_slotEffect {id : StorageId} {address : Address} {slot : U256} {row : StorageRow}
    {observed : StorageObservationRow} (place : self.slotOf id = some (address, slot))
    (held : self.world.storage.row id = some row)
    (current : row.observation.transaction = self.lifetime.transaction)
    (found : self.observedStorage[row.observation.index]? = some observed) :
    self.view env (.slotEffect address slot) = observed.effect := by
  simp only [view, storageAt_of_row place held]
  rw [storageEffect_current current, found]
  rfl

/-- The undo record of a slot. -/
def storageUndo (id : StorageId) (row : StorageRow) (effect : StorageEffect) : StorageUndo where
  storage := id
  current := row.current
  flags := row.flags
  journaledScope := row.journaledScope
  storageIncarnation := row.storageIncarnation
  transactionUndo := row.transactionUndo
  effect

/-! ## Writing a slot -/

/-- A slot, its account and both their rows, in a running attempt. -/
structure HoldsSlot (resolved : ResolvedStorage) (account : AccountRow) (row : StorageRow)
    (lifetime : Lifetimes) (state : WorldState) : Prop where
  account : state.world.accounts.row resolved.account = some account
  key : ∃ slot, state.world.storage.key resolved.storage = some ⟨resolved.account, slot⟩
  row : state.world.storage.row resolved.storage = some row
  running : state.transactionActive = true
  lifetime : state.lifetime = lifetime

theorem HoldsSlot.place {resolved : ResolvedStorage} {account : AccountRow} {row : StorageRow}
    {lifetime : Lifetimes} (holds : HoldsSlot resolved account row lifetime self) :
    ∃ address slot, self.world.accounts.key resolved.account = some address ∧
      self.slotOf resolved.storage = some (address, slot) := by
  obtain ⟨address, key⟩ := Table.key_eq_some_of_row holds.account
  obtain ⟨slot, slotKey⟩ := holds.key
  exact ⟨address, slot, key, slotOf_eq_some.mpr ⟨resolved.account, slotKey, key⟩⟩

/-- The row once its undo entry is pushed. -/
def journaledSlot (row : StorageRow) (lifetime : Lifetimes) (undos : Nat) : StorageRow :=
  { row with
    transactionUndo :=
      if row.transactionUndo.transaction ≠ lifetime.transaction then
        { transaction := lifetime.transaction, index := undos }
      else row.transactionUndo
    journaledScope := lifetime.scope }

theorem appendStorageUndo_keeps (resolved : ResolvedStorage) (account : AccountRow)
    (row : StorageRow) (lifetime : Lifetimes)
    (current : row.observation.transaction = lifetime.transaction) :
    Keeps (calls env strict base scope) (HoldsSlot resolved account row lifetime)
      (appendStorageUndo resolved.storage)
      fun _ after => ∃ undos, HoldsSlot resolved account (journaledSlot row lifetime undos)
        lifetime after := by
  unfold appendStorageUndo
  refine Keeps.bind (storageRow_reads _) fun read => ?_
  refine Keeps.bind (storageObservation_reads _) fun observed => ?_
  apply Keeps.modify
  rintro self inv ⟨⟨seen, seenHeld, found⟩, readHeld, holds⟩
  obtain rfl : row = read := Option.some.inj (holds.row.symm.trans readHeld)
  obtain rfl : row = seen := Option.some.inj (holds.row.symm.trans seenHeld)
  obtain ⟨address, slot, key, place⟩ := holds.place
  have held := holds.row
  have mode := holds.running
  obtain rfl := holds.lifetime
  have active := inv.active mode
  generalize afterEq : (push _ self).updateStorage resolved.storage _ = after
  have shape : after = { self with
      world := { self.world with
        storage := self.world.storage.set resolved.storage
          (journaledSlot row self.lifetime self.journal.storageUndos.length) }
      journal := .storage (storageUndo resolved.storage row observed.effect) :: self.journal } := by
    rw [← afterEq]
    have pushed : (self.push (.storage (storageUndo resolved.storage row
        observed.effect))).world.storage.row resolved.storage = some row := held
    exact updateStorage_of_row pushed _
  have step : SlotStep env self after resolved.storage address slot row
      (journaledSlot row self.lifetime self.journal.storageUndos.length) := by
    subst shape
    exact {
      set := ⟨held, rfl, rfl, rfl, rfl, rfl⟩
      place := place
      handle := rfl
      warm := rfl
      owners := rfl
      others := fun _ _ same _ => same
      observedAccounts := rfl
      clock := rfl
      consistent := by
        have consistent := inv.consistent.slot address slot
        simp only [view, storageAt_of_row place held] at consistent
        refine ⟨consistent.unchanged, active.scopePast, ?_⟩
        show (if row.transactionUndo.transaction ≠ self.lifetime.transaction then _
          else row.transactionUndo).transaction ≤ self.clock
        split
        · exact active.transactionPast
        · exact consistent.undo
      settled := by
        have settled := active.settling.current address slot
        simp only [view, storageAt_of_row place held] at settled
        exact settled }
  have control : SameControl self after := by
    subst shape
    exact rfl
  have patch : after.entryPatch (.storage (storageUndo resolved.storage row observed.effect)) =
      slotPatch address slot row.cell observed.effect := by
    have afterPlace : after.slotOf resolved.storage = some (address, slot) := by
      rw [step.set.slotOf_eq, place]
    simp only [entryPatch, storageUndo, afterPlace]
    rfl
  have mutation : Mutation env strict base self after
      [.storage (storageUndo resolved.storage row observed.effect)] := by
    apply step.mutation inv mode
    · subst shape
      rfl
    · intro entry member
      rw [List.mem_singleton] at member
      subst member
      refine ⟨?_, _, step.set.row_same, ?_⟩
      · show (after.slotOf resolved.storage).isSome = true
        rw [step.set.slotOf_eq, place]
        rfl
      · rw [step.set.lifetime]
        exact current
    · intro entry member cell elsewhere
      rw [List.mem_singleton] at member
      subst member
      rw [patch, slotPatch_other _ _ elsewhere]
    · intro cell inside notWarm
      left
      rw [List.map_singleton, patch, UndoLog.unwind_cons, UndoLog.unwind_nil, UndoLog.restore]
      cases cell with
      | slot other otherSlot =>
          cases inside
          rw [slotPatch_slot, Option.getD_some, step.held_slot]
      | slotEffect other otherSlot =>
          cases inside
          rw [slotPatch_effect, Option.getD_some, view_slotEffect place held current found]
      | slotWarm other otherSlot => exact absurd rfl (notWarm other otherSlot)
      | _ => exact inside.elim
    · intro entry member
      rw [List.mem_singleton] at member
      subst member
      rw [patch, slotPatch_warm]
    · refine .inr ⟨rfl, _, List.mem_map_of_mem (List.mem_singleton_self _), ?_⟩
      rw [patch]
      exact slotPatch_restores ..
    · apply introduced_of_same active.introduced
      · subst shape
        rfl
      · subst shape
        rfl
      · exact control.acceptedLen
      · subst shape
        rfl
    · apply step.lists_same active _ control rfl
      subst shape
      exact rfl
    · apply SameLists.grow
      subst shape
      exact rfl
    · subst shape
      rfl
    · exact control
  have stepped := mutation.step inv mode
  refine ⟨stepped.1, stepped.2, _, ?_, ?_, step.set.row_same, ?_, control.lifetime⟩
  · rw [step.set.accounts]
    exact holds.account
  · simp only [step.set.key_eq]
    exact holds.key
  · rw [control.transactionActive]
    exact mode

/-- The account row once its storage is known to differ. -/
def dirtied (account : AccountRow) : AccountRow :=
  { account with flags := { account.flags with storageDirty := true } }

theorem markStorageDirty_keeps (resolved : ResolvedStorage) (account : AccountRow)
    (row : StorageRow) (lifetime : Lifetimes) {needsUndo : Bool}
    (needed : needsUndo = true ↔
      account.flags.storageDirty = false ∧ account.journaledScope ≠ lifetime.scope) :
    Keeps (calls env strict base scope) (HoldsSlot resolved account row lifetime)
      (Action.modify (markStorageDirty resolved.account needsUndo) : Method Unit)
      fun _ => HoldsSlot resolved (dirtied account) row lifetime := by
  apply Keeps.modify
  intro self inv holds
  obtain ⟨address, slot, key, place⟩ := holds.place
  have held := holds.account
  have mode := holds.running
  obtain rfl := holds.lifetime
  have active := inv.active mode
  generalize entriesEq : (if needsUndo then [Entry.accountStorageDirty resolved.account] else [])
    = entries
  generalize afterEq : markStorageDirty resolved.account needsUndo self = after
  have shape : after = { self with
      world := { self.world with
        accounts := self.world.accounts.set resolved.account (dirtied account) }
      journal := entries ++ self.journal } := by
    rw [← afterEq, ← entriesEq, markStorageDirty]
    cases needsUndo with
    | true =>
        have pushed : (self.push (.accountStorageDirty resolved.account)).world.accounts.row
            resolved.account = some account := held
        exact updateAccount_of_row pushed _
    | false => exact updateAccount_of_row held _
  have step : AccountStep env self after resolved.account address account (dirtied account) := by
    have consistent := inv.consistent.account address
    have settled := active.settling.wiped address
    simp only [view, accountAt_of_row key held] at consistent settled
    subst shape
    exact {
      set := ⟨held, rfl, rfl, rfl, rfl, rfl⟩
      key := key
      handle := rfl
      warm := rfl
      owners := rfl
      others := fun _ _ same _ => same
      observedStorage := rfl
      clock := rfl
      consistent := consistent
      settled := settled
      wiped := .inl rfl
      epoch := .inl ⟨rfl, rfl⟩ }
  have control : SameControl self after := by
    subst shape
    exact rfl
  have patch : ∀ entry ∈ entries, after.entryPatch entry =
      Patch.silent.also (.storageDirty address) false := by
    intro entry member
    rw [← entriesEq] at member
    cases needsUndo with
    | false => exact absurd member List.not_mem_nil
    | true =>
        obtain rfl := List.mem_singleton.mp member
        simp only [entryPatch, step.set.key_eq, key]
  have mutation : Mutation env strict base self after entries := by
    apply step.mutation inv mode
    · subst shape
      rfl
    · intro entry member
      rw [← entriesEq] at member
      cases needsUndo with
      | false => exact absurd member List.not_mem_nil
      | true =>
          obtain rfl := List.mem_singleton.mp member
          show (after.world.accounts.key resolved.account).isSome = true
          rw [step.set.key_eq, key]
          rfl
    · intro entry member cell elsewhere
      rw [patch entry member, Patch.also_other, Patch.silent_apply]
      rintro rfl
      exact elsewhere rfl
    · intro cell inside notWarm
      cases cell with
      | account other =>
          cases inside
          left
          rw [UndoLog.unwind_uncovered, step.view_account, step.held_account]
          · rfl
          · intro held member
            obtain ⟨entry, entryMember, rfl⟩ := List.mem_map.mp member
            rw [patch entry entryMember, Patch.also_other _ _ (by simp), Patch.silent_apply]
      | accountEffect other =>
          cases inside
          left
          rw [UndoLog.unwind_uncovered]
          · simp only [view, step.set.at_same key, accountAt_of_row key held]
            subst shape
            rfl
          · intro held member
            obtain ⟨entry, entryMember, rfl⟩ := List.mem_map.mp member
            rw [patch entry entryMember, Patch.also_other _ _ (by simp), Patch.silent_apply]
      | storageDirty other =>
          cases inside
          cases needsUndo with
          | true =>
              left
              obtain rfl := entriesEq
              have restores := patch _ (List.mem_singleton_self _)
              show UndoLog.unwind [after.entryPatch _] _ _ = _
              rw [restores, UndoLog.unwind_cons, UndoLog.unwind_nil, UndoLog.restore,
                Patch.also_same, Option.getD_some]
              simp only [view, accountAt_of_row key held]
              exact (needed.mp rfl).1.symm
          | false =>
              obtain rfl := entriesEq
              cases clean : account.flags.storageDirty with
              | true =>
                  left
                  show after.view env (.storageDirty address) = self.view env (.storageDirty address)
                  simp only [view, step.set.at_same key, accountAt_of_row key held]
                  exact clean.symm
              | false =>
                  -- the scope's account entry restores the flag
                  right
                  have inside : Cell.OfAccount address (.storageDirty address) := rfl
                  refine covers_account (active.covered.account address ?_) inside ?_
                  · rw [step.held_account]
                    by_contra other
                    exact Bool.false_ne_true (needed.mpr ⟨clean, other⟩)
                  · intro other same
                    cases same
      | accountWarm other => exact absurd rfl (notWarm other)
      | _ => exact inside.elim
    · intro entry member
      rw [patch entry member, Patch.also_other _ _ (by simp), Patch.silent_apply]
    · exact .inl rfl
    · apply introduced_of_same active.introduced
      · subst shape
        rfl
      · subst shape
        rfl
      · exact control.acceptedLen
      · subst shape
        rw [← entriesEq]
        cases needsUndo with
        | true => rfl
        | false => rfl
    · apply step.lists_same active _ control rfl rfl rfl
      subst shape
      exact rfl
    · apply SameLists.grow
      subst shape
      exact rfl
    · subst shape
      rfl
    · exact control
  have stepped := mutation.step inv mode
  refine ⟨stepped.1, stepped.2, step.set.row_same, ?_, ?_, ?_, control.lifetime⟩
  · rw [step.set.storage]
    exact holds.key
  · rw [step.set.storage]
    exact holds.row
  · rw [control.transactionActive]
    exact mode

/-- The row after a write. -/
def writtenSlot (row : StorageRow) (value : U256) (incarnation : Incarnation) : StorageRow :=
  { row with
    flags := { row.flags with blockDirty := true }
    current := value
    storageIncarnation := incarnation }

theorem assignStorage_keeps (resolved : ResolvedStorage) (account : AccountRow)
    (row : StorageRow) (lifetime : Lifetimes) (journaled : row.journaledScope = lifetime.scope)
    {firstDirty : Bool} (first : firstDirty = true ↔ row.flags.blockDirty = false)
    (firstTransactionWrite : Bool) (value : U256) :
    Keeps (calls env strict base scope) (HoldsSlot resolved account row lifetime)
      (Action.modify (assignStorage resolved.storage firstDirty firstTransactionWrite value
        account.storageIncarnation) : Method Unit)
      fun _ => HoldsSlot resolved account (writtenSlot row value account.storageIncarnation)
        lifetime := by
  apply Keeps.modify
  intro self inv holds
  obtain ⟨address, slot, key, place⟩ := holds.place
  have held := holds.row
  have mode := holds.running
  obtain rfl := holds.lifetime
  have active := inv.active mode
  generalize afterEq : assignStorage resolved.storage firstDirty firstTransactionWrite value
    account.storageIncarnation self = after
  have shape : after = { self with
      world := { self.world with
        storage := self.world.storage.set resolved.storage
          (writtenSlot row value account.storageIncarnation) }
      dirtyStorage :=
        if firstDirty then self.dirtyStorage ++ [resolved.storage] else self.dirtyStorage
      changedStorage :=
        if firstTransactionWrite then self.changedStorage ++ [resolved.storage]
        else self.changedStorage } := by
    rw [← afterEq, assignStorage, updateStorage_of_row held]
    rfl
  have step : SlotStep env self after resolved.storage address slot row
      (writtenSlot row value account.storageIncarnation) := by
    have consistent := inv.consistent.slot address slot
    simp only [view, storageAt_of_row place held] at consistent
    subst shape
    exact {
      set := ⟨held, rfl, rfl, rfl, rfl, rfl⟩
      place := place
      handle := rfl
      warm := rfl
      owners := rfl
      others := fun _ _ same _ => same
      observedAccounts := rfl
      clock := rfl
      consistent := ⟨fun clean => absurd clean.symm Bool.false_ne_true, consistent.scope,
        consistent.undo⟩
      settled := fun _ => by
        left
        simp only [view, accountAt_of_row key holds.account]
        rfl }
  have control : SameControl self after := by
    subst shape
    exact rfl
  have lists : Lists env after := by
    obtain ⟨changes, wipes, dirty, transactionWipes⟩ := active.lists
    refine ⟨?_, ?_, ?_, ?_⟩
    · rw [control.acceptedLen, control.reverted]
      subst shape
      exact changes.congr fun other => by rw [step.accountMark active]
    · rw [control.acceptedLen, control.reverted]
      subst shape
      exact wipes.congr fun other => by rw [step.accountMark active]
    · rw [control.acceptedLen, control.reverted]
      subst shape
      refine dirty.list_when ?_ fun other => step.mark_gained active _ rfl other
      rw [step.mark_held, first]
      show row.flags.blockDirty = false ↔ ¬row.flags.blockDirty = true
      exact Bool.eq_false_iff
    · rw [control.lifetime, control.reverted]
      subst shape
      exact transactionWipes.congr fun other => by rw [step.accountMark active]
  have mutation : Mutation env strict base self after [] := by
    apply step.covered inv mode journaled rfl lists
    · subst shape
      exact { ListsGrow.refl self with
        dirtyStorage := prefix_when _ _ _
        changedStorage := prefix_when _ _ _ }
    · subst shape
      exact ⟨active.introduced.list, active.introduced.count⟩
    · exact control
    · subst shape
      rfl
    · subst shape
      rfl
  have stepped := mutation.step inv mode
  refine ⟨stepped.1, stepped.2, ?_, ?_, step.set.row_same, ?_, control.lifetime⟩
  · rw [step.set.accounts]
    exact holds.account
  · simp only [step.set.key_eq]
    exact holds.key
  · rw [control.transactionActive]
    exact mode

/-- Assigning to the effect of a slot that is journaled in the open scope. -/
theorem updateStorageEffect_keeps (resolved : ResolvedStorage) (account : AccountRow)
    (row : StorageRow) (lifetime : Lifetimes) (journaled : row.journaledScope = lifetime.scope)
    (current : row.observation.transaction = lifetime.transaction)
    (update : StorageEffect → StorageEffect) :
    Keeps (calls env strict base scope) (HoldsSlot resolved account row lifetime)
      (updateStorageEffect resolved.storage update) fun _ _ => True := by
  unfold updateStorageEffect
  refine Keeps.bind (storageRow_reads _) fun read => ?_
  refine Keeps.bind (storageObservation_reads _) fun observed => ?_
  apply Keeps.modify
  rintro self inv ⟨⟨seen, seenHeld, found⟩, readHeld, holds⟩
  obtain rfl : row = read := Option.some.inj (holds.row.symm.trans readHeld)
  obtain rfl : row = seen := Option.some.inj (holds.row.symm.trans seenHeld)
  obtain ⟨address, slot, key, place⟩ := holds.place
  have held := holds.row
  have mode := holds.running
  obtain rfl := holds.lifetime
  have active := inv.active mode
  generalize afterEq : setStorageEffect row.observation.index update self = after
  have list : after.observedStorage = self.observedStorage.modify row.observation.index
      fun observed => { observed with effect := update observed.effect } := by
    rw [← afterEq]
    rfl
  have set : StorageSet self after resolved.storage row row := by
    subst afterEq
    exact ⟨held, (Table.set_row_self held).symm, rfl, rfl, rfl, rfl⟩
  have control : SameControl self after := by
    subst afterEq
    exact rfl
  have step : SlotStep env self after resolved.storage address slot row row := by
    have consistent := inv.consistent.slot address slot
    have settled := active.settling.current address slot
    rw [show self.view env (.slot address slot) = row.cell by
      simp only [view, storageAt_of_row place held]] at consistent settled
    refine {
      set := set
      place := place
      handle := rfl
      warm := rfl
      owners := ?_
      others := ?_
      observedAccounts := ?_
      clock := control.clock
      consistent := consistent
      settled := settled }
    · rw [list]
      exact map_modify_same _ _ _ _ fun _ => rfl
    · intro index other otherFound elsewhere
      rw [list, List.getElem?_modify]
      split
      · rename_i here
        subst here
        have owner := active.handles.storage resolved.storage row held current
        rw [otherFound] at owner
        exact absurd (Option.some.inj owner) elsewhere
      · rw [otherFound]
        rfl
    · subst afterEq
      rfl
  have same : SameLists self after := by
    subst afterEq
    exact rfl
  have mutation : Mutation env strict base self after [] := by
    apply step.covered inv mode journaled rfl
    · exact step.lists_same active same control rfl
    · exact same.grow
    · subst afterEq
      exact ⟨active.introduced.list, active.introduced.count⟩
    · exact control
    · subst afterEq
      rfl
    · subst afterEq
      rfl
  have stepped := mutation.step inv mode
  exact ⟨stepped.1, stepped.2, trivial⟩

/-- The storage row is one of the account's. -/
def Owned (resolved : ResolvedStorage) (self : WorldState) : Prop :=
  ∃ slot, self.world.storage.key resolved.storage = some ⟨resolved.account, slot⟩

/-- The stages of a write after its room is reserved. -/
theorem writeJournaled_keeps (resolved : ResolvedStorage) (account : AccountRow)
    (row : StorageRow) (lifetime : Lifetimes)
    (current : row.observation.transaction = lifetime.transaction)
    (journaled : row.journaledScope = lifetime.scope) {needsUndo firstDirty : Bool}
    (needed : needsUndo = true ↔
      account.flags.storageDirty = false ∧ account.journaledScope ≠ lifetime.scope)
    (first : firstDirty = true ↔ row.flags.blockDirty = false)
    (firstTransactionWrite : Bool) (value : U256) :
    Keeps (calls env strict base scope) (HoldsSlot resolved account row lifetime)
      (do
        Action.modify (markStorageDirty resolved.account needsUndo)
        Action.modify (assignStorage resolved.storage firstDirty firstTransactionWrite value
          account.storageIncarnation)
        updateStorageEffect resolved.storage fun _ => { written := true } : Method Unit)
      fun _ _ => True :=
  Keeps.bind (markStorageDirty_keeps resolved account row lifetime needed) fun _ =>
    Keeps.bind (assignStorage_keeps resolved (dirtied account) row lifetime journaled first
      firstTransactionWrite value) fun _ =>
    updateStorageEffect_keeps resolved (dirtied account)
      (writtenSlot row value account.storageIncarnation) lifetime journaled current _

/-- Journaling a slot that is not journaled in the open scope yet. -/
theorem journalSlot_keeps (resolved : ResolvedStorage) (account : AccountRow) (row : StorageRow)
    (lifetime : Lifetimes) (current : row.observation.transaction = lifetime.transaction) :
    Keeps (calls env strict base scope) (HoldsSlot resolved account row lifetime)
      (Action.when (row.journaledScope ≠ lifetime.scope) (appendStorageUndo resolved.storage))
      fun _ after => ∃ row', HoldsSlot resolved account row' lifetime after ∧
        row'.journaledScope = lifetime.scope ∧ row'.flags = row.flags ∧
        row'.observation = row.observation := by
  refine Keeps.when _ (fun _ => ?_) ?_
  · refine (appendStorageUndo_keeps resolved account row lifetime current).imp
      (fun _ holds => holds) ?_
    rintro _ after ⟨undos, holds⟩
    exact ⟨_, holds, rfl, rfl, rfl⟩
  · intro journaled after holds
    exact ⟨row, holds, not_not.mp journaled, rfl, rfl⟩

end WorldState

end EvmZig.State
