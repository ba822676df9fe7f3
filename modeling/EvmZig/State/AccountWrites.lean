import EvmZig.State.Mutation

/-!
# Account writes keep the discipline

A row is prepared once per scope: its undo entry is pushed, and the row is
listed for the block and for the attempt.  Every later assignment of the scope
then changes cells that the entry restores.
-/

set_option autoImplicit false

namespace EvmZig.State

open Lib Zig

namespace WorldState

variable {env : Env} {strict : Prop} {base : Nat} {scope : Generation} {before after self : WorldState}

/-- The row behind `id`, in a running attempt with the given lifetimes. -/
def Holds (id : AccountId) (row : AccountRow) (lifetime : Lifetimes) (self : WorldState) : Prop :=
  self.world.accounts.row id = some row ∧ self.transactionActive = true ∧ self.lifetime = lifetime

theorem Holds.ignoresRequests (id : AccountId) (row : AccountRow) (lifetime : Lifetimes) :
    IgnoresRequests (Holds id row lifetime) :=
  fun _ _ holds => holds

/-- The row has been observed, journaled and listed. -/
structure Ready (row : AccountRow) (lifetime : Lifetimes) : Prop where
  observed : row.observation.transaction = lifetime.transaction
  journaled : row.journaledScope = lifetime.scope
  blockChanged : row.flags.blockChanged = true
  dirty : row.dirtyTransaction = lifetime.transaction

def Prepared (id : AccountId) (self : WorldState) : Prop :=
  ∃ row, self.world.accounts.row id = some row ∧ self.transactionActive = true ∧
    Ready row self.lifetime

theorem Holds.prepared {id : AccountId} {row : AccountRow} {lifetime : Lifetimes}
    (holds : Holds id row lifetime self) (ready : Ready row lifetime) : Prepared id self :=
  ⟨row, holds.1, holds.2.1, holds.2.2 ▸ ready⟩

theorem SameLists.grow (same : SameLists before after) : ListsGrow before after where
  blockChangedAccounts := by rw [same.blockChangedAccounts]
  blockStorageWipes := by rw [same.blockStorageWipes]
  dirtyStorage := by rw [same.dirtyStorage]
  changedAccounts := by rw [same.changedAccounts]
  changedStorage := by rw [same.changedStorage]
  transactionStorageWipes := by rw [same.transactionStorageWipes]
  introduced := by rw [same.code]
  parentCode := by rw [same.code]
  codeCache := by rw [same.codeCache]

theorem introduced_of_same (held : Introduced before) (code : after.code = before.code)
    (list : after.blockIntroducedCodes = before.blockIntroducedCodes)
    (acceptedLen : after.acceptedLen = before.acceptedLen)
    (journal : introducedEntries after.journal = introducedEntries before.journal) :
    Introduced after := by
  refine ⟨?_, ?_⟩
  · rw [list, code]
    exact held.list
  · rw [code, acceptedLen, journal]
    exact held.count

namespace AccountStep

variable {id : AccountId} {address : Address} {row row' : AccountRow}

/-- Lists and marks are untouched. -/
theorem lists_same (step : AccountStep env before after id address row row')
    (active : Active env base before) (same : SameLists before after)
    (control : SameControl before after)
    (changed : row'.flags.blockChanged = row.flags.blockChanged)
    (wiped : row'.flags.storageWiped = row.flags.storageWiped)
    (transaction : row'.wipedTransaction = row.wipedTransaction) : Lists env after := by
  obtain ⟨changes, wipes, dirty, transactionWipes⟩ := active.lists
  refine ⟨?_, ?_, ?_, ?_⟩
  · rw [same.blockChangedAccounts, control.acceptedLen, control.reverted]
    exact changes.congr fun other => by rw [step.mark_eq active _ changed]
  · rw [same.blockStorageWipes, control.acceptedLen, control.reverted]
    exact wipes.congr fun other => by rw [step.mark_eq active _ wiped]
  · rw [same.dirtyStorage, control.acceptedLen, control.reverted]
    exact dirty.congr fun other => by rw [step.slotMark active]
  · rw [same.transactionStorageWipes, control.lifetime, control.reverted]
    refine transactionWipes.congr fun other => ?_
    rw [step.mark_eq active]
    show decide (row'.wipedTransaction = _) = decide (row.wipedTransaction = _)
    rw [transaction]

/-- An assignment to a row whose entry of this scope is in the journal. -/
theorem covered (step : AccountStep env before after id address row row')
    (inv : Inv env base scope before) (mode : before.transactionActive = true)
    (journaled : row.journaledScope = before.lifetime.scope)
    (kept : row'.journaledScope = row.journaledScope) (lists : Lists env after)
    (listsGrow : ListsGrow before after) (introduced : Introduced after)
    (control : SameControl before after) (journal : after.journal = before.journal)
    (logs : after.logs = before.logs) : Mutation env strict base before after [] := by
  have active := inv.active mode
  have unchanged : after.journal = [] ++ before.journal := journal
  apply step.mutation inv mode unchanged
  · intro entry member
    exact absurd member List.not_mem_nil
  · intro entry member
    exact absurd member List.not_mem_nil
  · intro cell inside notWarm
    right
    apply covers_account (active.covered.account address _) inside notWarm
    rw [step.held_account]
    exact journaled
  · intro entry member
    exact absurd member List.not_mem_nil
  · exact .inl kept
  · exact introduced
  · exact lists
  · exact listsGrow
  · exact logs
  · exact control

end AccountStep

/-! ## Undo entries -/

theorem accountPatch_account (address : Address) (cell : AccountCell) (storageDirty : Bool)
    (effect : AccountEffect) :
    accountPatch address cell storageDirty effect (.account address) = some cell := by
  rw [accountPatch, Patch.also_other _ _ (by simp), Patch.also_other _ _ (by simp),
    Patch.also_same]

theorem accountPatch_storageDirty (address : Address) (cell : AccountCell) (storageDirty : Bool)
    (effect : AccountEffect) :
    accountPatch address cell storageDirty effect (.storageDirty address) = some storageDirty := by
  rw [accountPatch, Patch.also_other _ _ (by simp), Patch.also_same]

theorem accountPatch_effect (address : Address) (cell : AccountCell) (storageDirty : Bool)
    (effect : AccountEffect) :
    accountPatch address cell storageDirty effect (.accountEffect address) = some effect :=
  Patch.also_same _ _ _

theorem accountPatch_other {address : Address} (saved : AccountCell) (storageDirty : Bool)
    (effect : AccountEffect) {cell : Cell} (elsewhere : ¬cell.OfAccount address) :
    accountPatch address saved storageDirty effect cell = none := by
  rw [accountPatch, Patch.also_other, Patch.also_other, Patch.also_other, Patch.silent_apply]
  · rintro rfl
    exact elsewhere rfl
  · rintro rfl
    exact elsewhere rfl
  · rintro rfl
    exact elsewhere rfl

theorem accountPatch_warm (address other : Address) (saved : AccountCell) (storageDirty : Bool)
    (effect : AccountEffect) :
    accountPatch address saved storageDirty effect (.accountWarm other) = none := by
  rw [accountPatch, Patch.also_other _ _ (by simp), Patch.also_other _ _ (by simp),
    Patch.also_other _ _ (by simp), Patch.silent_apply]

theorem accountPatch_restores (address : Address) (cell : AccountCell) (storageDirty : Bool)
    (effect : AccountEffect) :
    RestoresAccount (accountPatch address cell storageDirty effect) address := by
  refine ⟨?_, ?_, ?_⟩
  · rw [accountPatch_account]
    rfl
  · rw [accountPatch_storageDirty]
    rfl
  · rw [accountPatch_effect]
    rfl

/-- The record a current handle leads to. -/
theorem view_accountEffect {id : AccountId} {address : Address} {row : AccountRow}
    {observed : AccountObservationRow} (key : self.world.accounts.key id = some address)
    (held : self.world.accounts.row id = some row)
    (current : row.observation.transaction = self.lifetime.transaction)
    (found : self.observedAccounts[row.observation.index]? = some observed) :
    self.view env (.accountEffect address) = observed.effect := by
  simp only [view, accountAt_of_row key held]
  rw [accountEffect_current current, found]
  rfl

/-- The undo record of a row. -/
def accountUndo (id : AccountId) (row : AccountRow) (effect : AccountEffect) : AccountUndo where
  account := id
  current := row.current
  codeRef := row.codeRef
  flags := row.flags
  journaledScope := row.journaledScope
  storageIncarnation := row.storageIncarnation
  wipedTransaction := row.wipedTransaction
  dirtyTransaction := row.dirtyTransaction
  effect

theorem appendAccountUndo_keeps (id : AccountId) (row : AccountRow) (lifetime : Lifetimes)
    (current : row.observation.transaction = lifetime.transaction) :
    Keeps (calls env strict base scope) (Holds id row lifetime) (appendAccountUndo id)
      fun _ => Holds id { row with journaledScope := lifetime.scope } lifetime := by
  unfold appendAccountUndo
  refine Keeps.bind (accountRow_reads id) fun read => ?_
  refine Keeps.bind (accountObservation_reads id) fun observed => ?_
  apply Keeps.modify
  rintro self inv ⟨⟨seen, seenHeld, found⟩, readHeld, held, mode, rfl⟩
  rw [held] at readHeld seenHeld
  cases readHeld
  cases seenHeld
  have active := inv.active mode
  obtain ⟨address, key⟩ := Table.key_eq_some_of_row held
  generalize afterEq : (push _ self).updateAccount id _ = after
  have shape : after = { self with
      world := { self.world with
        accounts := self.world.accounts.set id
          { row with journaledScope := self.lifetime.scope } }
      journal := .account (accountUndo id row observed.effect) :: self.journal } := by
    rw [← afterEq]
    have pushed : (self.push (.account (accountUndo id row
        observed.effect))).world.accounts.row id = some row := held
    exact updateAccount_of_row pushed _
  have step : AccountStep env self after id address row
      { row with journaledScope := self.lifetime.scope } := by
    subst shape
    exact {
      set := ⟨held, rfl, rfl, rfl, rfl, rfl⟩
      key := key
      handle := rfl
      warm := rfl
      owners := rfl
      others := fun _ _ same _ => same
      observedStorage := rfl
      clock := rfl
      consistent := by
        have consistent := inv.consistent.account address
        simp only [view, accountAt_of_row key held] at consistent
        exact {
          unchanged := consistent.unchanged
          unwiped := consistent.unwiped
          scope := active.scopePast
          wiped := consistent.wiped
          dirty := consistent.dirty }
      settled := by
        have settled := active.settling.wiped address
        simp only [view, accountAt_of_row key held] at settled
        exact settled
      wiped := .inl rfl
      epoch := .inl ⟨rfl, rfl⟩ }
  have control : SameControl self after := by
    subst shape
    exact rfl
  have patch : after.entryPatch (.account (accountUndo id row observed.effect)) =
      accountPatch address row.cell row.flags.storageDirty observed.effect := by
    have afterKey : after.world.accounts.key id = some address := by
      rw [step.set.key_eq, key]
    simp only [entryPatch, accountUndo, afterKey]
    rfl
  have mutation : Mutation env strict base self after
      [.account (accountUndo id row observed.effect)] := by
    apply step.mutation inv mode
    · subst shape
      rfl
    · intro entry member
      rw [List.mem_singleton] at member
      subst member
      refine ⟨_, step.set.row_same, ?_⟩
      rw [step.set.lifetime]
      exact current
    · intro entry member cell elsewhere
      rw [List.mem_singleton] at member
      subst member
      rw [patch, accountPatch_other _ _ _ elsewhere]
    · intro cell inside notWarm
      left
      rw [List.map_singleton, patch, UndoLog.unwind_cons, UndoLog.unwind_nil, UndoLog.restore]
      cases cell with
      | account other =>
          cases inside
          rw [accountPatch_account, Option.getD_some, step.held_account]
      | storageDirty other =>
          cases inside
          rw [accountPatch_storageDirty, Option.getD_some]
          simp only [view, accountAt_of_row key held]
      | accountEffect other =>
          cases inside
          rw [accountPatch_effect, Option.getD_some,
            view_accountEffect key held current found]
      | accountWarm other => exact absurd rfl (notWarm other)
      | _ => exact inside.elim
    · intro entry member
      rw [List.mem_singleton] at member
      subst member
      rw [patch, accountPatch_warm]
    · refine .inr ⟨rfl, _, List.mem_map_of_mem (List.mem_singleton_self _), ?_⟩
      rw [patch]
      exact accountPatch_restores ..
    · apply introduced_of_same active.introduced
      · subst shape
        rfl
      · subst shape
        rfl
      · exact control.acceptedLen
      · subst shape
        rfl
    · apply step.lists_same active _ control rfl rfl rfl
      subst shape
      exact rfl
    · apply SameLists.grow
      subst shape
      exact rfl
    · subst shape
      rfl
    · exact control
  have stepped := mutation.step inv mode
  refine ⟨stepped.1, stepped.2, step.set.row_same, ?_, control.lifetime⟩
  rw [control.transactionActive]
  exact mode

/-! ## Preparing a row -/

/-- The cell-level duties of an assignment to a prepared row. -/
theorem accountStep_of_prepared {id : AccountId} {address : Address} {row row' : AccountRow}
    (inv : Inv env base scope before) (mode : before.transactionActive = true)
    (set : AccountSet before after id row row')
    (key : before.world.accounts.key id = some address)
    (observedAccounts : after.observedAccounts = before.observedAccounts)
    (observedStorage : after.observedStorage = before.observedStorage)
    (clock : after.clock = before.clock)
    (handle : row'.observation = row.observation) (warm : row'.warmTransaction = row.warmTransaction)
    (unchanged : row'.flags.blockChanged = false → row'.current = env.parentAccount address)
    (stamp : row'.journaledScope = row.journaledScope)
    (dirty : row'.dirtyTransaction = row.dirtyTransaction ∨
      row'.dirtyTransaction = before.lifetime.transaction)
    (wiped : row'.flags.storageWiped = row.flags.storageWiped)
    (incarnation : row'.storageIncarnation = row.storageIncarnation)
    (transaction : row'.wipedTransaction = row.wipedTransaction) :
    AccountStep env before after id address row row' := by
  have active := inv.active mode
  have consistent := inv.consistent.account address
  have settled := active.settling.wiped address
  simp only [view, accountAt_of_row key set.held] at consistent settled
  exact {
    set := set
    key := key
    handle := handle
    warm := warm
    owners := by rw [observedAccounts]
    others := fun _ _ found _ => by rw [observedAccounts, found]
    observedStorage := observedStorage
    clock := clock
    consistent := {
      unchanged := unchanged
      unwiped := fun clean => incarnation.trans (consistent.unwiped (wiped.symm.trans clean))
      scope := Nat.le_trans (Nat.le_of_eq stamp) consistent.scope
      wiped := Nat.le_trans (Nat.le_of_eq transaction) consistent.wiped
      dirty := by
        rcases dirty with same | fresh
        · exact Nat.le_trans (Nat.le_of_eq same) consistent.dirty
        · exact Nat.le_trans (Nat.le_of_eq fresh) active.transactionPast }
    settled := fun now => wiped.trans (settled (transaction.symm.trans now))
    wiped := .inl wiped
    epoch := .inl ⟨incarnation, transaction⟩ }

theorem markBlockChanged_keeps (id : AccountId) (row : AccountRow) (lifetime : Lifetimes)
    (journaled : row.journaledScope = lifetime.scope) (first : row.flags.blockChanged = false) :
    Keeps (calls env strict base scope) (Holds id row lifetime)
      (Action.modify (markBlockChanged id) : Method Unit)
      fun _ => Holds id { row with flags := { row.flags with blockChanged := true } } lifetime := by
  apply Keeps.modify
  rintro self inv ⟨held, mode, rfl⟩
  have active := inv.active mode
  obtain ⟨address, key⟩ := Table.key_eq_some_of_row held
  generalize afterEq : markBlockChanged id self = after
  have shape : after = { self with
      world := { self.world with
        accounts := self.world.accounts.set id
          { row with flags := { row.flags with blockChanged := true } } }
      blockChangedAccounts := self.blockChangedAccounts ++ [id] } := by
    rw [← afterEq, markBlockChanged, updateAccount_of_row held]
  have set : AccountSet self after id row
      { row with flags := { row.flags with blockChanged := true } } := by
    subst shape
    exact ⟨held, rfl, rfl, rfl, rfl, rfl⟩
  have control : SameControl self after := by
    subst shape
    exact rfl
  have step : AccountStep env self after id address row
      { row with flags := { row.flags with blockChanged := true } } := by
    apply accountStep_of_prepared inv mode set key
    · subst shape
      rfl
    · subst shape
      rfl
    · exact control.clock
    · rfl
    · rfl
    · exact fun absurd => nomatch absurd
    · rfl
    · exact .inl rfl
    · rfl
    · rfl
    · rfl
  have unlisted : ¬self.accountMark env blockChangedMark id = true := by
    rw [step.mark_held]
    show ¬row.flags.blockChanged = true
    rw [first]
    exact Bool.false_ne_true
  have mutation : Mutation env strict base self after [] := by
    apply step.covered inv mode journaled rfl
    · obtain ⟨changes, wipes, dirty, transactionWipes⟩ := active.lists
      refine ⟨?_, ?_, ?_, ?_⟩
      · rw [control.acceptedLen, control.reverted]
        subst shape
        exact changes.append unlisted fun other => step.mark_gained active _ rfl other
      · rw [control.acceptedLen, control.reverted]
        subst shape
        exact wipes.congr fun other => by rw [step.mark_eq active _ rfl]
      · rw [control.acceptedLen, control.reverted]
        subst shape
        exact dirty.congr fun other => by rw [step.slotMark active]
      · rw [control.lifetime, control.reverted]
        subst shape
        exact transactionWipes.congr fun other => by rw [step.mark_eq active _ rfl]
    · subst shape
      exact { ListsGrow.refl self with blockChangedAccounts := List.prefix_append _ _ }
    · subst shape
      exact ⟨active.introduced.list, active.introduced.count⟩
    · exact control
    · subst shape
      rfl
    · subst shape
      rfl
  have stepped := mutation.step inv mode
  refine ⟨stepped.1, stepped.2, set.row_same, ?_, control.lifetime⟩
  rw [control.transactionActive]
  exact mode

theorem markTransactionDirty_keeps (id : AccountId) (row : AccountRow) (lifetime : Lifetimes)
    (journaled : row.journaledScope = lifetime.scope) (changed : row.flags.blockChanged = true) :
    Keeps (calls env strict base scope) (Holds id row lifetime)
      (Action.modify (markTransactionDirty id) : Method Unit)
      fun _ => Holds id { row with dirtyTransaction := lifetime.transaction } lifetime := by
  apply Keeps.modify
  rintro self inv ⟨held, mode, rfl⟩
  have active := inv.active mode
  obtain ⟨address, key⟩ := Table.key_eq_some_of_row held
  generalize afterEq : markTransactionDirty id self = after
  have shape : after = { self with
      world := { self.world with
        accounts := self.world.accounts.set id
          { row with dirtyTransaction := self.lifetime.transaction } }
      changedAccounts := self.changedAccounts ++ [id] } := by
    rw [← afterEq, markTransactionDirty, updateAccount_of_row held]
  have set : AccountSet self after id row
      { row with dirtyTransaction := self.lifetime.transaction } := by
    subst shape
    exact ⟨held, rfl, rfl, rfl, rfl, rfl⟩
  have control : SameControl self after := by
    subst shape
    exact rfl
  have step : AccountStep env self after id address row
      { row with dirtyTransaction := self.lifetime.transaction } := by
    apply accountStep_of_prepared inv mode set key
    · subst shape
      rfl
    · subst shape
      rfl
    · exact control.clock
    · rfl
    · rfl
    · intro clean
      rw [changed] at clean
      cases clean
    · rfl
    · exact .inr rfl
    · rfl
    · rfl
    · rfl
  have mutation : Mutation env strict base self after [] := by
    apply step.covered inv mode journaled rfl
    · obtain ⟨changes, wipes, dirty, transactionWipes⟩ := active.lists
      refine ⟨?_, ?_, ?_, ?_⟩
      · rw [control.acceptedLen, control.reverted]
        subst shape
        exact changes.congr fun other => by rw [step.mark_eq active _ rfl]
      · rw [control.acceptedLen, control.reverted]
        subst shape
        exact wipes.congr fun other => by rw [step.mark_eq active _ rfl]
      · rw [control.acceptedLen, control.reverted]
        subst shape
        exact dirty.congr fun other => by rw [step.slotMark active]
      · rw [control.lifetime, control.reverted]
        subst shape
        exact transactionWipes.congr fun other => by rw [step.mark_eq active _ rfl]
    · subst shape
      exact { ListsGrow.refl self with changedAccounts := List.prefix_append _ _ }
    · subst shape
      exact ⟨active.introduced.list, active.introduced.count⟩
    · exact control
    · subst shape
      rfl
    · subst shape
      rfl
  have stepped := mutation.step inv mode
  refine ⟨stepped.1, stepped.2, set.row_same, ?_, control.lifetime⟩
  rw [control.transactionActive]
  exact mode

/-- The row once its first change in every layer is booked. -/
def preparedRow (row : AccountRow) (lifetime : Lifetimes) : AccountRow :=
  { row with
    journaledScope := lifetime.scope
    flags := { row.flags with blockChanged := true }
    dirtyTransaction := lifetime.transaction }

/-! ## Assigning to a prepared row -/

/-- What an assignment of values leaves alone in a row. -/
structure RowMarks where
  observation : ObservationHandle
  warm : Generation
  blockChanged : Bool
  journaled : Generation
  dirty : Generation
  wiped : Bool
  incarnation : Incarnation
  transaction : Generation

def rowMarks (row : AccountRow) : RowMarks where
  observation := row.observation
  warm := row.warmTransaction
  blockChanged := row.flags.blockChanged
  journaled := row.journaledScope
  dirty := row.dirtyTransaction
  wiped := row.flags.storageWiped
  incarnation := row.storageIncarnation
  transaction := row.wipedTransaction

def AssignsValues (update : AccountRow → AccountRow) : Prop :=
  ∀ row, rowMarks (update row) = rowMarks row

namespace AssignsValues

variable {update : AccountRow → AccountRow}

theorem observation (assigns : AssignsValues update) (row : AccountRow) :
    (update row).observation = row.observation :=
  congrArg RowMarks.observation (assigns row)

theorem warm (assigns : AssignsValues update) (row : AccountRow) :
    (update row).warmTransaction = row.warmTransaction :=
  congrArg RowMarks.warm (assigns row)

theorem blockChanged (assigns : AssignsValues update) (row : AccountRow) :
    (update row).flags.blockChanged = row.flags.blockChanged :=
  congrArg RowMarks.blockChanged (assigns row)

theorem journaled (assigns : AssignsValues update) (row : AccountRow) :
    (update row).journaledScope = row.journaledScope :=
  congrArg RowMarks.journaled (assigns row)

theorem dirty (assigns : AssignsValues update) (row : AccountRow) :
    (update row).dirtyTransaction = row.dirtyTransaction :=
  congrArg RowMarks.dirty (assigns row)

theorem wiped (assigns : AssignsValues update) (row : AccountRow) :
    (update row).flags.storageWiped = row.flags.storageWiped :=
  congrArg RowMarks.wiped (assigns row)

theorem incarnation (assigns : AssignsValues update) (row : AccountRow) :
    (update row).storageIncarnation = row.storageIncarnation :=
  congrArg RowMarks.incarnation (assigns row)

theorem transaction (assigns : AssignsValues update) (row : AccountRow) :
    (update row).wipedTransaction = row.wipedTransaction :=
  congrArg RowMarks.transaction (assigns row)

end AssignsValues

theorem assignAccount_keeps (id : AccountId) {update : AccountRow → AccountRow}
    (assigns : AssignsValues update) :
    Keeps (calls env strict base scope) (Prepared id)
      (Action.modify (updateAccount id update) : Method Unit) fun _ => Prepared id := by
  apply Keeps.modify
  rintro self inv ⟨row, held, mode, ready⟩
  have active := inv.active mode
  obtain ⟨address, key⟩ := Table.key_eq_some_of_row held
  have shape := updateAccount_of_row held update
  generalize updateAccount id update self = after at shape
  have set : AccountSet self after id row (update row) := by
    subst shape
    exact ⟨held, rfl, rfl, rfl, rfl, rfl⟩
  have control : SameControl self after := by
    subst shape
    exact rfl
  have step : AccountStep env self after id address row (update row) := by
    apply accountStep_of_prepared inv mode set key
    · subst shape
      rfl
    · subst shape
      rfl
    · exact control.clock
    · exact assigns.observation row
    · exact assigns.warm row
    · intro clean
      rw [assigns.blockChanged, ready.blockChanged] at clean
      cases clean
    · exact assigns.journaled row
    · exact .inl (assigns.dirty row)
    · exact assigns.wiped row
    · exact assigns.incarnation row
    · exact assigns.transaction row
  have same : SameLists self after := by
    subst shape
    exact rfl
  have mutation : Mutation env strict base self after [] := by
    apply step.covered inv mode ready.journaled (assigns.journaled row)
    · exact step.lists_same active same control (assigns.blockChanged row) (assigns.wiped row)
        (assigns.transaction row)
    · exact same.grow
    · subst shape
      exact ⟨active.introduced.list, active.introduced.count⟩
    · exact control
    · subst shape
      rfl
    · subst shape
      rfl
  have stepped := mutation.step inv mode
  refine ⟨stepped.1, stepped.2, update row, set.row_same, ?_, ?_⟩
  · rw [control.transactionActive]
    exact mode
  · rw [control.lifetime]
    exact {
      observed := (congrArg _ (assigns.observation row)).trans ready.observed
      journaled := (assigns.journaled row).trans ready.journaled
      blockChanged := (assigns.blockChanged row).trans ready.blockChanged
      dirty := (assigns.dirty row).trans ready.dirty }

/-- Assigning to the effect of a prepared row's record. -/
theorem updateAccountEffect_keeps (id : AccountId) (update : AccountEffect → AccountEffect) :
    Keeps (calls env strict base scope) (Prepared id) (updateAccountEffect id update)
      fun _ => Prepared id := by
  unfold updateAccountEffect
  refine Keeps.bind (accountRow_reads id) fun read => ?_
  refine Keeps.bind (accountObservation_reads id) fun observed => ?_
  apply Keeps.modify
  rintro self inv ⟨⟨seen, seenHeld, found⟩, readHeld, row, held, mode, ready⟩
  obtain rfl : row = read := Option.some.inj (held.symm.trans readHeld)
  obtain rfl : row = seen := Option.some.inj (held.symm.trans seenHeld)
  have active := inv.active mode
  obtain ⟨address, key⟩ := Table.key_eq_some_of_row held
  generalize afterEq : setAccountEffect row.observation.index update self = after
  have list : after.observedAccounts = self.observedAccounts.modify row.observation.index
      fun observed => { observed with effect := update observed.effect } := by
    rw [← afterEq]
    rfl
  have set : AccountSet self after id row row := by
    subst afterEq
    exact ⟨held, (Table.set_row_self held).symm, rfl, rfl, rfl, rfl⟩
  have control : SameControl self after := by
    subst afterEq
    exact rfl
  have step : AccountStep env self after id address row row := by
    have consistent := inv.consistent.account address
    have settled := active.settling.wiped address
    simp only [view, accountAt_of_row key held] at consistent settled
    refine {
      set := set
      key := key
      handle := rfl
      warm := rfl
      owners := ?_
      others := ?_
      observedStorage := ?_
      clock := control.clock
      consistent := consistent
      settled := settled
      wiped := .inl rfl
      epoch := .inl ⟨rfl, rfl⟩ }
    · rw [list]
      exact map_modify_same _ _ _ _ fun _ => rfl
    · intro index other otherFound elsewhere
      rw [list, List.getElem?_modify]
      split
      · rename_i here
        subst here
        have owner := active.handles.account id row held ready.observed
        rw [otherFound] at owner
        exact absurd (Option.some.inj owner) elsewhere
      · rw [otherFound]
        rfl
    · subst afterEq
      rfl
  have same : SameLists self after := by
    subst afterEq
    exact rfl
  have mutation : Mutation env strict base self after [] := by
    apply step.covered inv mode ready.journaled rfl
    · exact step.lists_same active same control rfl rfl rfl
    · exact same.grow
    · subst afterEq
      exact ⟨active.introduced.list, active.introduced.count⟩
    · exact control
    · subst afterEq
      rfl
    · subst afterEq
      rfl
  have stepped := mutation.step inv mode
  refine ⟨stepped.1, stepped.2, row, set.row_same, ?_, ?_⟩
  · rw [control.transactionActive]
    exact mode
  · rw [control.lifetime]
    exact ready

end WorldState

end EvmZig.State
