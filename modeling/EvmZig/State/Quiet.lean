import EvmZig.State.Invariant

/-!
# Steps that change no cell

Admitting a row, recording a read, caching parent code and binding a code
reference leave every cell as it is.
-/

set_option autoImplicit false

namespace EvmZig.State

open Lib Zig

namespace WorldState

variable {env : Env} {strict : Prop} {base : Nat} {scope : Generation} {before after self : WorldState}

/-! ## Marks -/

theorem accountAt_of_row {id : AccountId} {address : Address} {row : AccountRow}
    (key : self.world.accounts.key id = some address)
    (held : self.world.accounts.row id = some row) : self.accountAt env address = row := by
  rw [accountAt, Table.value_eq_row key, held]
  rfl

theorem accountAt_of_missing {address : Address} (missing : self.world.accounts.find address = none) :
    self.accountAt env address = .admitted (env.parentAccount address) := by
  rw [accountAt, Table.value_eq_none.mpr missing]
  rfl

theorem slotOf_eq_some {id : StorageId} {place : Address × U256} :
    self.slotOf id = some place ↔ ∃ account, self.world.storage.key id = some ⟨account, place.2⟩ ∧
      self.world.accounts.key account = some place.1 := by
  simp only [slotOf, Option.bind_eq_bind, Option.bind_eq_some_iff]
  constructor
  · rintro ⟨⟨account, slot⟩, keyEq, address, addressEq, placeEq⟩
    cases placeEq
    exact ⟨account, keyEq, addressEq⟩
  · rintro ⟨account, keyEq, addressEq⟩
    exact ⟨⟨account, place.2⟩, keyEq, place.1, addressEq, rfl⟩

theorem storageAt_of_row {id : StorageId} {address : Address} {slot : U256} {row : StorageRow}
    (place : self.slotOf id = some (address, slot))
    (held : self.world.storage.row id = some row) : self.storageAt env address slot = row := by
  obtain ⟨account, keyEq, addressEq⟩ := slotOf_eq_some.mp place
  rw [storageAt, Table.find_eq_some.mpr addressEq, Option.bind_some, Table.value_eq_row keyEq, held]
  rfl

theorem slotOf_inj {left right : StorageId} {place : Address × U256}
    (leftPlace : self.slotOf left = some place) (rightPlace : self.slotOf right = some place) :
    left = right := by
  obtain ⟨leftAccount, leftKey, leftAddress⟩ := slotOf_eq_some.mp leftPlace
  obtain ⟨rightAccount, rightKey, rightAddress⟩ := slotOf_eq_some.mp rightPlace
  have same := Table.key_inj leftAddress rightAddress
  subst same
  exact Table.key_inj leftKey rightKey

/-- A row that appears belongs to a key that had none. -/
theorem Grows.freshAccount (grows : Grows before after) {id : AccountId} {address : Address}
    (missing : before.world.accounts.key id = none)
    (found : after.world.accounts.key id = some address) :
    before.accountAt env address = .admitted (env.parentAccount address) := by
  apply accountAt_of_missing
  cases held : before.world.accounts.find address with
  | none => rfl
  | some other =>
      have otherKey := Table.find_eq_some.mp held
      have same := Table.key_inj (grows.accountKey other address otherKey) found
      subst same
      rw [otherKey] at missing
      cases missing

theorem Grows.freshSlot (grows : Grows before after) {id : StorageId} {address : Address}
    {slot : U256} (missing : before.slotOf id = none)
    (found : after.slotOf id = some (address, slot)) :
    before.storageAt env address slot = { current := env.parentStorage address slot } := by
  rw [storageAt]
  cases held : before.world.accounts.find address with
  | none => rfl
  | some account =>
      rw [Option.bind_some]
      cases row : before.world.storage.value { account, slot } with
      | none => rfl
      | some value =>
          have addressKey := Table.find_eq_some.mp held
          cases search : before.world.storage.find { account, slot } with
          | none =>
              rw [Table.value_eq_none.mpr search] at row
              cases row
          | some other =>
              have otherPlace : before.slotOf other = some (address, slot) :=
                slotOf_eq_some.mpr ⟨account, Table.find_eq_some.mp search, addressKey⟩
              have same := slotOf_inj (grows.slotOf otherPlace) found
              subst same
              rw [otherPlace] at missing
              cases missing

/-- Marks are read off the cells, and fresh rows carry none. -/
theorem Grows.accountMark (grows : Grows before after) {marked : AccountCell → Bool}
    (fresh : ∀ current, marked (AccountRow.admitted current).cell = false)
    {id : AccountId}
    (same : ∀ address, after.world.accounts.key id = some address →
      marked (after.view env (.account address)) = marked (before.view env (.account address))) :
    after.accountMark env marked id = before.accountMark env marked id := by
  unfold WorldState.accountMark
  cases held : before.world.accounts.key id with
  | some address =>
      rw [grows.accountKey id address held]
      exact same address (grows.accountKey id address held)
  | none =>
      cases found : after.world.accounts.key id with
      | none => rfl
      | some address =>
          have freshRow : before.accountAt env address = .admitted (env.parentAccount address) :=
            grows.freshAccount held found
          simp only [Option.map_some, Option.getD_some, Option.map_none, Option.getD_none]
          rw [same address found]
          show marked (before.accountAt env address).cell = false
          rw [freshRow]
          exact fresh _

theorem Grows.slotMark (grows : Grows before after) {marked : SlotCell → Bool}
    (fresh : ∀ current, marked (StorageRow.cell { current }) = false) {id : StorageId}
    (same : ∀ address slot, after.slotOf id = some (address, slot) →
      marked (after.view env (.slot address slot)) =
        marked (before.view env (.slot address slot))) :
    after.slotMark env marked id = before.slotMark env marked id := by
  unfold WorldState.slotMark
  cases held : before.slotOf id with
  | some place =>
      rw [grows.slotOf held]
      exact same place.1 place.2 (grows.slotOf held)
  | none =>
      cases found : after.slotOf id with
      | none => rfl
      | some place =>
          have freshRow : before.storageAt env place.1 place.2 =
              { current := env.parentStorage place.1 place.2 } := grows.freshSlot held found
          simp only [Option.map_some, Option.getD_some, Option.map_none, Option.getD_none]
          rw [same place.1 place.2 found]
          show marked (before.storageAt env place.1 place.2).cell = false
          rw [freshRow]
          exact fresh _

/-! ## Quiet steps -/

/-- A step that changes no cell and no list. -/
structure Quiet (env : Env) (before after : WorldState) : Prop where
  grows : Grows before after
  view : after.view env = before.view env
  handles : before.lifetime.transaction ≠ 0 → Handles before → Handles after
  stamps : RowStamps before → RowStamps after
  codeCache : before.world.code <+: after.world.code
  lifecycle : before.transactionActive = false →
    after.lifecycleAccounts = before.lifecycleAccounts
  rest : after = { before with
    world := after.world
    observedAccounts := after.observedAccounts
    observedStorage := after.observedStorage
    lifecycleAccounts := after.lifecycleAccounts
    requests := after.requests
    retainedLogs := after.retainedLogs }

namespace Quiet

theorem control (quiet : Quiet env before after) : SameControl before after := by
  rw [SameControl, quiet.rest]
  rfl

theorem journal (quiet : Quiet env before after) : after.journal = before.journal := by
  rw [quiet.rest]

theorem blockChangedAccounts (quiet : Quiet env before after) :
    after.blockChangedAccounts = before.blockChangedAccounts := by
  rw [quiet.rest]

theorem blockStorageWipes (quiet : Quiet env before after) :
    after.blockStorageWipes = before.blockStorageWipes := by
  rw [quiet.rest]

theorem dirtyStorage (quiet : Quiet env before after) : after.dirtyStorage = before.dirtyStorage := by
  rw [quiet.rest]

theorem changedAccounts (quiet : Quiet env before after) :
    after.changedAccounts = before.changedAccounts := by
  rw [quiet.rest]

theorem changedStorage (quiet : Quiet env before after) :
    after.changedStorage = before.changedStorage := by
  rw [quiet.rest]

theorem transactionStorageWipes (quiet : Quiet env before after) :
    after.transactionStorageWipes = before.transactionStorageWipes := by
  rw [quiet.rest]

theorem blockIntroducedCodes (quiet : Quiet env before after) :
    after.blockIntroducedCodes = before.blockIntroducedCodes := by
  rw [quiet.rest]

theorem code (quiet : Quiet env before after) : after.code = before.code := by
  rw [quiet.rest]

theorem logs (quiet : Quiet env before after) : after.logs = before.logs := by
  rw [quiet.rest]

theorem transient (quiet : Quiet env before after) :
    after.transientStorage = before.transientStorage := by
  rw [quiet.rest]

theorem deferred (quiet : Quiet env before after) : after.deferredWarmth = before.deferredWarmth := by
  rw [quiet.rest]

theorem listsGrow (quiet : Quiet env before after) : ListsGrow before after where
  blockChangedAccounts := by rw [quiet.blockChangedAccounts]
  blockStorageWipes := by rw [quiet.blockStorageWipes]
  dirtyStorage := by rw [quiet.dirtyStorage]
  changedAccounts := by rw [quiet.changedAccounts]
  changedStorage := by rw [quiet.changedStorage]
  transactionStorageWipes := by rw [quiet.transactionStorageWipes]
  introduced := by rw [quiet.code]
  parentCode := by rw [quiet.code]
  codeCache := quiet.codeCache

theorem accountMark (quiet : Quiet env before after) {marked : AccountCell → Bool}
    (fresh : ∀ current, marked (AccountRow.admitted current).cell = false) (id : AccountId) :
    after.accountMark env marked id = before.accountMark env marked id :=
  quiet.grows.accountMark fresh fun address _ => by rw [quiet.view]

theorem slotMark (quiet : Quiet env before after) (id : StorageId) :
    after.slotMark env blockDirtyMark id = before.slotMark env blockDirtyMark id :=
  quiet.grows.slotMark (fun _ => rfl) fun address slot _ => by rw [quiet.view]

theorem lists (quiet : Quiet env before after) (held : Lists env before)
    (transaction : before.lifetime.transaction ≠ 0) : Lists env after := by
  obtain ⟨changes, wipes, dirty, transactionWipes⟩ := held
  refine ⟨?_, ?_, ?_, ?_⟩
  · rw [quiet.blockChangedAccounts, quiet.control.acceptedLen, quiet.control.reverted]
    exact changes.congr fun id => by rw [quiet.accountMark (fun _ => rfl)]
  · rw [quiet.blockStorageWipes, quiet.control.acceptedLen, quiet.control.reverted]
    exact wipes.congr fun id => by rw [quiet.accountMark (fun _ => rfl)]
  · rw [quiet.dirtyStorage, quiet.control.acceptedLen, quiet.control.reverted]
    exact dirty.congr fun id => by rw [quiet.slotMark]
  · rw [quiet.transactionStorageWipes, quiet.control.lifetime, quiet.control.reverted]
    refine transactionWipes.congr fun id => ?_
    rw [quiet.accountMark]
    intro current
    exact decide_eq_false (Ne.symm transaction)

theorem log (quiet : Quiet env before after)
    (valid : ∀ entry ∈ before.journal, before.EntryValid entry) : after.log = before.log := by
  have unchanged : after.journal = [] ++ before.journal := quiet.journal
  exact quiet.grows.log valid unchanged

theorem step (quiet : Quiet env before after) (strict : Prop)
    (inv : Inv env base scope before) :
    Inv env base scope after ∧ (calls env strict base scope).rel before after := by
  have valid : ∀ entry ∈ before.journal, before.EntryValid entry := by
    cases mode : before.transactionActive with
    | true => exact (inv.active mode).entries
    | false =>
        rw [(inv.idle mode).journal]
        intro entry member
        exact absurd member List.not_mem_nil
  have logSame := quiet.log valid
  have control := quiet.control
  have inside : base ≤ before.log.length := by
    rw [log_length]
    exact inv.inside
  refine ⟨?_, ?_, control.lifetime, control.scopeDepth⟩
  · refine ⟨?_, ?_, ?_, quiet.stamps inv.stamps, ?_, ?_⟩
    · rw [quiet.journal]
      exact inv.inside
    · rw [control.lifetime]
      exact inv.scope
    · rw [control.clock, quiet.view]
      exact inv.consistent
    · intro mode
      have active := inv.active (control.transactionActive ▸ mode)
      refine ⟨?_, ?_, ?_, ?_, quiet.handles active.transaction active.handles, ?_, ?_, ?_, ?_,
        quiet.lists active.lists active.transaction⟩
      · rw [control.lifetime]
        exact active.transaction
      · rw [control.lifetime, control.clock]
        exact active.transactionPast
      · rw [control.lifetime]
        exact active.scope
      · rw [control.lifetime, control.clock]
        exact active.scopePast
      · rw [quiet.journal]
        exact fun entry member => quiet.grows.entryValid (active.entries entry member)
      · refine ⟨?_, ?_⟩
        · rw [quiet.view, control.lifetime, logSame]
          exact active.covered.account
        · rw [quiet.view, control.lifetime, logSame]
          exact active.covered.slot
      · rw [control.lifetime, quiet.view]
        exact active.settling
      · refine ⟨?_, ?_⟩
        · rw [quiet.blockIntroducedCodes, quiet.code]
          exact active.introduced.list
        · rw [quiet.code, control.acceptedLen, quiet.journal]
          exact active.introduced.count
    · intro mode
      have before := control.transactionActive ▸ mode
      have idle := inv.idle before
      refine ⟨?_, ?_, ?_, ?_, ?_, ?_, ?_, ?_, ?_, ?_, ?_, ?_, ?_⟩
      · rw [quiet.journal]
        exact idle.journal
      · rw [quiet.lifecycle before]
        exact idle.lifecycle
      · rw [quiet.transient]
        exact idle.transient
      · rw [quiet.deferred]
        exact idle.deferred
      · rw [control.scopeDepth]
        exact idle.scopeDepth
      · rw [control.reverted]
        exact idle.notReverted
      · rw [control.attemptOpen]
        exact idle.closed
      · rw [control.sealed]
        exact idle.notSealed
      · rw [quiet.view]
        exact idle.current
      · rw [quiet.blockIntroducedCodes, quiet.code]
        exact idle.introduced
      · rw [quiet.blockChangedAccounts]
        exact idle.changes.congr fun id => by rw [quiet.accountMark (fun _ => rfl)]
      · rw [quiet.blockStorageWipes]
        exact idle.wipes.congr fun id => by rw [quiet.accountMark (fun _ => rfl)]
      · rw [quiet.dirtyStorage]
        exact idle.dirty.congr fun id => by rw [quiet.slotMark]
  · refine ⟨quiet.grows, ?_, ?_, ?_, control.transactionActive, control.sealed,
      control.attemptOpen, control.acceptedLen, control.worldEpoch, ?_, ?_, ?_, quiet.listsGrow, ?_⟩
    · rw [quiet.view, logSame]
      exact UndoLog.Recorded.refl inside
    · rw [quiet.journal]
    · rw [control.lifetime]
    · rw [control.clock]
    · intro address
      rw [quiet.view]
      exact .inl rfl
    · intro address slot
      rw [quiet.view]
      exact .inl rfl
    · intro _
      rw [quiet.logs]
      exact LogBuffer.Extends.refl _

end Quiet

end WorldState

end EvmZig.State
