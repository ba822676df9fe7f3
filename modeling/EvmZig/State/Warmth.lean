import EvmZig.State.StorageWrites

/-!
# Warmth, transient storage and logs keep the discipline

These steps touch neither accounts nor slots: they push one entry for the one
cell they change, or none at all.
-/

set_option autoImplicit false

namespace EvmZig.State

open Lib Zig

namespace WorldState

variable {env : Env} {strict : Prop} {base : Nat} {scope : Generation} {before after self : WorldState}

/-- One entry for the one cell that changed. -/
theorem restored_single {entry : Entry} {cell : Cell} {value : cell.Value}
    (patch : after.entryPatch entry = Patch.silent.also cell value)
    (saved : before.view env cell = value)
    (elsewhere : ∀ other, other ≠ cell → after.view env other = before.view env other)
    (other : Cell) :
    UndoLog.unwind ([entry].map after.entryPatch) (after.view env) other =
      before.view env other := by
  rw [List.map_singleton, patch, UndoLog.unwind_cons, UndoLog.unwind_nil, UndoLog.restore]
  by_cases same : other = cell
  · subst same
    rw [Patch.also_same, Option.getD_some, saved]
  · rw [Patch.also_other _ _ same, Patch.silent_apply, Option.getD_none, elsewhere other same]

theorem introduced_push {entry : Entry} (held : Introduced before)
    (code : after.code = before.code)
    (list : after.blockIntroducedCodes = before.blockIntroducedCodes)
    (acceptedLen : after.acceptedLen = before.acceptedLen)
    (journal : after.journal = entry :: before.journal) (other : entry ≠ .introducedCode) :
    Introduced after := by
  apply introduced_of_same held code list acceptedLen
  rw [journal, introducedEntries, introducedEntries, List.countP_cons]
  cases entry with
  | introducedCode => exact absurd rfl other
  | _ => rfl

/-! ## Warm rows -/

theorem light_warmAccount {id : AccountId} {row : AccountRow} (running : Running self)
    (inv : Inv env base scope self) (held : self.world.accounts.row id = some row)
    (cold : row.warmTransaction ≠ self.lifetime.transaction) :
    Light env strict self ((self.push (.warmAccount id)).updateAccount id fun row =>
      { row with warmTransaction := self.lifetime.transaction }) [.warmAccount id] := by
  have active := inv.active running
  obtain ⟨address, key⟩ := Table.key_eq_some_of_row held
  have pushed : (self.push (.warmAccount id)).world.accounts.row id = some row := held
  rw [updateAccount_of_row pushed]
  generalize afterEq : WorldState.mk _ _ _ _ _ _ _ _ _ _ _ _ _ _ _ _ _ _ _ _ _ _ _ _ _ _ _ _ =
    after
  have set : AccountSet self after id row
      { row with warmTransaction := self.lifetime.transaction } := by
    subst afterEq
    exact ⟨held, rfl, rfl, rfl, rfl, rfl⟩
  have elsewhere : ∀ cell, cell ≠ .accountWarm address →
      after.view env cell = self.view env cell := by
    intro cell differs
    by_cases inside : cell.OfAccount address
    · cases cell with
      | account other =>
          cases inside
          simp only [view, set.at_same key, accountAt_of_row key held]
          rfl
      | storageDirty other =>
          cases inside
          simp only [view, set.at_same key, accountAt_of_row key held]
      | accountEffect other =>
          cases inside
          simp only [view, set.at_same key, accountAt_of_row key held]
          subst afterEq
          rfl
      | accountWarm other =>
          cases inside
          exact absurd rfl differs
      | _ => exact inside.elim
    · refine set.view_other key (fun other _ => ?_) ?_ inside
      · subst afterEq
        rfl
      · subst afterEq
        rfl
  have patch : after.entryPatch (.warmAccount id) =
      Patch.silent.also (.accountWarm address) false := by
    simp only [entryPatch, set.key_eq, key]
  have saved : self.view env (.accountWarm address) = false := by
    simp only [view, accountAt_of_row key held]
    exact decide_eq_false cold
  have restored := restored_single patch saved elsewhere
  have valid : after.EntryValid (.warmAccount id) := by
    show (after.world.accounts.key id).isSome = true
    rw [set.key_eq, key]
    rfl
  have stamps : RowStamps self → RowStamps after := by
    intro held'
    apply set.stamps _ active.transactionPast (held'.account id row held).2 held'
    subst afterEq
    rfl
  have handles : Handles self → Handles after := by
    apply set.handles rfl
    · subst afterEq
      rfl
    · subst afterEq
      rfl
  subst afterEq
  exact {
    grows := set.grows fun same => same
    journal := rfl
    valid := fun entry member => List.mem_singleton.mp member ▸ valid
    restored := fun cell _ => restored cell
    account := fun other => elsewhere _ (by simp)
    slot := fun other slot => elsewhere _ (by simp)
    accountKey := set.key_eq
    slotOf := set.slotOf_eq
    stamps := stamps
    handles := handles
    introduced := fun held => introduced_push held rfl rfl rfl rfl (by simp)
    code := List.prefix_refl _
    parentCode := rfl
    codeCache := rfl
    marks := rfl
    control := rfl
    logs := fun _ => LogBuffer.Extends.refl _ }

theorem light_warmStorage {id : StorageId} {row : StorageRow} (running : Running self)
    (inv : Inv env base scope self) (held : self.world.storage.row id = some row)
    (cold : row.warmTransaction ≠ self.lifetime.transaction) :
    Light env strict self ((self.push (.warmStorage id)).updateStorage id fun row =>
      { row with warmTransaction := self.lifetime.transaction }) [.warmStorage id] := by
  have active := inv.active running
  obtain ⟨⟨account, slot⟩, storageKey⟩ := Table.key_eq_some_of_row held
  obtain ⟨address, addressKey⟩ := Option.isSome_iff_exists.mp (inv.stamps.owner id _ storageKey)
  have place : self.slotOf id = some (address, slot) :=
    slotOf_eq_some.mpr ⟨account, storageKey, addressKey⟩
  have pushed : (self.push (.warmStorage id)).world.storage.row id = some row := held
  rw [updateStorage_of_row pushed]
  generalize afterEq : WorldState.mk _ _ _ _ _ _ _ _ _ _ _ _ _ _ _ _ _ _ _ _ _ _ _ _ _ _ _ _ =
    after
  have set : StorageSet self after id row
      { row with warmTransaction := self.lifetime.transaction } := by
    subst afterEq
    exact ⟨held, rfl, rfl, rfl, rfl, rfl⟩
  have elsewhere : ∀ cell, cell ≠ .slotWarm address slot →
      after.view env cell = self.view env cell := by
    intro cell differs
    by_cases inside : cell.OfSlot address slot
    · cases cell with
      | slot other otherSlot =>
          cases inside
          simp only [view, set.at_same place, storageAt_of_row place held]
          rfl
      | slotEffect other otherSlot =>
          cases inside
          simp only [view, set.at_same place, storageAt_of_row place held]
          subst afterEq
          rfl
      | slotWarm other otherSlot =>
          cases inside
          exact absurd rfl differs
      | _ => exact inside.elim
    · refine set.view_other place (fun other otherSlot _ => ?_) ?_ inside
      · subst afterEq
        rfl
      · subst afterEq
        rfl
  have patch : after.entryPatch (.warmStorage id) =
      Patch.silent.also (.slotWarm address slot) false := by
    simp only [entryPatch, set.slotOf_eq, place]
  have saved : self.view env (.slotWarm address slot) = false := by
    simp only [view, storageAt_of_row place held]
    exact decide_eq_false cold
  have restored := restored_single patch saved elsewhere
  have valid : after.EntryValid (.warmStorage id) := by
    show (after.slotOf id).isSome = true
    rw [set.slotOf_eq, place]
    rfl
  have stamps : RowStamps self → RowStamps after := by
    intro held'
    apply set.stamps _ active.transactionPast (held'.storage id row held).2 held'
    subst afterEq
    rfl
  have handles : Handles self → Handles after := by
    apply set.handles rfl
    · subst afterEq
      rfl
    · subst afterEq
      rfl
  subst afterEq
  exact {
    grows := set.grows fun same => same
    journal := rfl
    valid := fun entry member => List.mem_singleton.mp member ▸ valid
    restored := fun cell _ => restored cell
    account := fun other => elsewhere _ (by simp)
    slot := fun other otherSlot => elsewhere _ (by simp)
    accountKey := fun _ => rfl
    slotOf := set.slotOf_eq
    stamps := stamps
    handles := handles
    introduced := fun held => introduced_push held rfl rfl rfl rfl (by simp)
    code := List.prefix_refl _
    parentCode := rfl
    codeCache := rfl
    marks := rfl
    control := rfl
    logs := fun _ => LogBuffer.Extends.refl _ }

/-! ## Deferred warmth -/

/-- A step that leaves rows, code and lists alone. -/
structure CellStep (env : Env) (before after : WorldState) (entry : Entry) (cell : Cell)
    (value : cell.Value) : Prop where
  grows : Grows before after
  valid : after.EntryValid entry
  patch : after.entryPatch entry = Patch.silent.also cell value
  saved : before.view env cell = value
  elsewhere : ∀ other, other ≠ cell → after.view env other = before.view env other
  notAccount : ∀ address, cell ≠ .account address
  notSlot : ∀ address slot, cell ≠ .slot address slot
  notCode : entry ≠ .introducedCode
  rest : after = { before with
    journal := entry :: before.journal
    deferredWarmth := after.deferredWarmth
    transientStorage := after.transientStorage }

theorem CellStep.light {entry : Entry} {cell : Cell} {value : cell.Value}
    (step : CellStep env before after entry cell value) :
    Light env strict before after [entry] := by
  have rest := step.rest
  have journal : after.journal = entry :: before.journal := congrArg (·.journal) rest
  have world : after.world = before.world := congrArg (·.world) rest
  have code : after.code = before.code := congrArg (·.code) rest
  have list : after.blockIntroducedCodes = before.blockIntroducedCodes :=
    congrArg (·.blockIntroducedCodes) rest
  have control : SameControl before after := by
    rw [SameControl, rest]
    rfl
  exact {
    grows := step.grows
    journal := journal
    valid := fun found member => List.mem_singleton.mp member ▸ step.valid
    restored := fun found _ => restored_single step.patch step.saved step.elsewhere found
    account := fun address => step.elsewhere _ (step.notAccount address).symm
    slot := fun address slot => step.elsewhere _ (step.notSlot address slot).symm
    accountKey := fun id => by rw [world]
    slotOf := fun id => by rw [slotOf, slotOf, world]
    stamps := RowStamps.of_world world control.clock.symm.le
    handles := fun held => by
      refine ⟨?_, ?_⟩
      · rw [world, control.lifetime, congrArg (·.observedAccounts) rest]
        exact held.account
      · rw [world, control.lifetime, congrArg (·.observedStorage) rest]
        exact held.storage
    introduced := fun held =>
      introduced_push held code list control.acceptedLen journal step.notCode
    code := by rw [code]
    parentCode := by rw [code]
    codeCache := by rw [world]
    marks := by
      rw [rest]
      rfl
    logs := fun _ => congrArg (·.logs) rest ▸ LogBuffer.Extends.refl _
    control := control }

theorem Grows.of_deferred (world : after.world = before.world)
    (lifetime : after.lifetime = before.lifetime)
    (accounts : ∀ entry address, before.deferredWarmth.accounts.key entry = some address →
      after.deferredWarmth.accounts.key entry = some address)
    (storage : ∀ entry key, before.deferredWarmth.storage.key entry = some key →
      after.deferredWarmth.storage.key entry = some key) : Grows before after where
  accountKey id address found := by rw [world, found]
  storageKey id key found := by rw [world, found]
  deferredAccountKey := accounts
  deferredStorageKey := storage
  observedAccount id seen := by
    obtain ⟨row, held, same⟩ := seen
    exact ⟨row, by rw [world, held], by rw [lifetime, same]⟩
  observedStorage id row held same := ⟨row, by rw [world, held], by rw [lifetime, same]⟩

/-- The key is warm and the entry it is kept in is journaled. -/
def deferAccount (address : Address) (entry : Nat) (self : WorldState) : WorldState :=
  push (.deferredWarmAccount entry) { self with deferredWarmth := { self.deferredWarmth with
    accounts := self.deferredWarmth.accounts.put address true } }

def deferStorage (key : TransientKey) (entry : Nat) (self : WorldState) : WorldState :=
  push (.deferredWarmStorage entry) { self with deferredWarmth := { self.deferredWarmth with
    storage := self.deferredWarmth.storage.put key true } }

theorem deferAccount_step {address : Address} {entry : Nat}
    (cold : (self.deferredWarmth.accounts.value address).getD false = false)
    (found : (self.deferredWarmth.accounts.put address true).find address = some entry) :
    CellStep env self (deferAccount address entry self) (.deferredWarmAccount entry)
      (.deferredAccount address) false := by
  have key := Table.find_eq_some.mp found
  refine {
    grows := Grows.of_deferred rfl rfl (fun _ _ held => Table.key_put true held)
      fun _ _ held => held
    valid := Option.isSome_iff_exists.mpr ⟨address, key⟩
    patch := ?_
    saved := cold
    elsewhere := ?_
    notAccount := by simp
    notSlot := by simp
    notCode := by simp
    rest := rfl }
  · simp only [entryPatch, deferAccount, push, key]
  · intro other differs
    cases other with
    | deferredAccount held =>
        have apart : held ≠ address := fun same => differs (same ▸ rfl)
        show ((self.deferredWarmth.accounts.put address true).value held).getD false = _
        rw [Table.value_put_other _ apart]
        rfl
    | _ => rfl

theorem deferStorage_step {key : TransientKey} {entry : Nat}
    (cold : (self.deferredWarmth.storage.value key).getD false = false)
    (found : (self.deferredWarmth.storage.put key true).find key = some entry) :
    CellStep env self (deferStorage key entry self) (.deferredWarmStorage entry)
      (.deferredSlot key.address key.slot) false := by
  have held := Table.find_eq_some.mp found
  refine {
    grows := Grows.of_deferred rfl rfl (fun _ _ held => held)
      fun _ _ held => Table.key_put true held
    valid := Option.isSome_iff_exists.mpr ⟨key, held⟩
    patch := ?_
    saved := cold
    elsewhere := ?_
    notAccount := by simp
    notSlot := by simp
    notCode := by simp
    rest := rfl }
  · simp only [entryPatch, deferStorage, push, held]
  · intro other differs
    cases other with
    | deferredSlot address slot =>
        have apart : (⟨address, slot⟩ : TransientKey) ≠ key := by
          rintro rfl
          exact differs rfl
        show ((self.deferredWarmth.storage.put key true).value ⟨address, slot⟩).getD false = _
        rw [Table.value_put_other _ apart]
        rfl
    | _ => rfl

theorem setTransient_step (key : TransientKey) (value : U256) :
    CellStep env self
      { self with
        journal := .transientStorage key (self.transientValue key.address key.slot) :: self.journal
        transientStorage := self.transientStorage.put key value }
      (.transientStorage key (self.transientValue key.address key.slot))
      (.transient key.address key.slot) (self.transientValue key.address key.slot) := by
  refine {
    grows := Grows.of_world rfl rfl rfl
    valid := trivial
    patch := rfl
    saved := rfl
    elsewhere := ?_
    notAccount := by simp
    notSlot := by simp
    notCode := by simp
    rest := rfl }
  intro other differs
  cases other with
  | transient address slot =>
      have apart : (⟨address, slot⟩ : TransientKey) ≠ key := by
        rintro rfl
        exact differs rfl
      show ((self.transientStorage.put key value).value ⟨address, slot⟩).getD 0 = _
      rw [Table.value_put_other _ apart]
      rfl
  | _ => rfl

/-- A step on transient storage or the logs alone, with no entry. -/
theorem light_unjournaled {self : WorldState} (transientStorage : Table TransientKey U256)
    (logs : LogBuffer) (sameTransient : strict → transientStorage = self.transientStorage)
    (extends_ : strict → LogBuffer.Extends self.logs logs) :
    Light env strict self { self with transientStorage, logs } [] := by
  have elsewhere : ∀ cell, watched strict cell →
      WorldState.view env { self with transientStorage, logs } cell = self.view env cell := by
    intro cell watch
    cases cell with
    | transient address slot =>
        show (transientStorage.value { address, slot }).getD 0 = _
        rw [sameTransient watch]
        rfl
    | _ => rfl
  exact {
    grows := Grows.of_world rfl rfl rfl
    journal := rfl
    valid := fun entry member => absurd member List.not_mem_nil
    restored := elsewhere
    account := fun _ => rfl
    slot := fun _ _ => rfl
    accountKey := fun _ => rfl
    slotOf := fun _ => rfl
    stamps := RowStamps.of_world rfl (Nat.le_refl _)
    handles := fun held => ⟨held.account, held.storage⟩
    introduced := fun held => ⟨held.list, held.count⟩
    code := List.prefix_refl _
    parentCode := rfl
    codeCache := rfl
    marks := rfl
    control := rfl
    logs := extends_ }

end WorldState

end EvmZig.State
