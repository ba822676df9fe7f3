import EvmZig.State.Reads

/-!
# Observations keep the discipline

A recorded read adds a record with no effect, or widens the reads of the
record the row already has; no cell changes either way.
-/

set_option autoImplicit false

namespace EvmZig.State

open Lib Zig

namespace WorldState

variable {env : Env} {strict : Prop} {base : Nat} {scope : Generation} {before after self : WorldState}

theorem map_modify_same {α β : Type} (items : List α) (index : Nat) (update : α → α)
    (projection : α → β) (same : ∀ item, projection (update item) = projection item) :
    (items.modify index update).map projection = items.map projection := by
  apply List.ext_getElem?
  intro other
  rw [List.getElem?_map, List.getElem?_map, List.getElem?_modify]
  split
  · cases items[other]? with
    | none => rfl
    | some item =>
        simp only [Option.map_eq_map, Option.map_some]
        rw [same]
  · cases items[other]? <;> rfl

theorem accountEffect_current {handle : ObservationHandle}
    (current : handle.transaction = self.lifetime.transaction) :
    self.accountEffect handle =
      ((self.observedAccounts[handle.index]?).map (·.effect)).getD {} :=
  if_pos current

theorem accountEffect_stale {handle : ObservationHandle}
    (stale : handle.transaction ≠ self.lifetime.transaction) : self.accountEffect handle = {} :=
  if_neg stale

theorem storageEffect_current {handle : ObservationHandle}
    (current : handle.transaction = self.lifetime.transaction) :
    self.storageEffect handle = ((self.observedStorage[handle.index]?).map (·.effect)).getD {} :=
  if_pos current

theorem storageEffect_stale {handle : ObservationHandle}
    (stale : handle.transaction ≠ self.lifetime.transaction) : self.storageEffect handle = {} :=
  if_neg stale

theorem accountEffect_congr (lifetime : after.lifetime = before.lifetime)
    (effects : after.observedAccounts.map (·.effect) = before.observedAccounts.map (·.effect))
    (handle : ObservationHandle) : after.accountEffect handle = before.accountEffect handle := by
  unfold accountEffect
  rw [lifetime, ← List.getElem?_map, effects, List.getElem?_map]

theorem storageEffect_congr (lifetime : after.lifetime = before.lifetime)
    (effects : after.observedStorage.map (·.effect) = before.observedStorage.map (·.effect))
    (handle : ObservationHandle) : after.storageEffect handle = before.storageEffect handle := by
  unfold storageEffect
  rw [lifetime, ← List.getElem?_map, effects, List.getElem?_map]

theorem quiet_mergeAccountObservation (self : WorldState) (index : Nat)
    (observation : AccountObservation) :
    Quiet env self (self.mergeAccountObservation index observation) where
  grows := Grows.of_world rfl rfl rfl
  view := by
    refine view_congr rfl rfl rfl rfl (fun _ => ?_) fun _ _ => rfl
    apply accountEffect_congr
    · rfl
    · exact map_modify_same _ _ _ _ fun _ => rfl
  handles _ held := by
    refine ⟨?_, held.storage⟩
    intro id row found same
    have owners : (self.mergeAccountObservation index observation).observedAccounts.map
        (·.account) = self.observedAccounts.map (·.account) :=
      map_modify_same _ _ _ _ fun _ => rfl
    rw [← List.getElem?_map, owners, List.getElem?_map]
    exact held.account id row found same
  stamps := RowStamps.of_world rfl (Nat.le_refl _)
  codeCache := List.prefix_refl _
  lifecycle _ := rfl
  rest := rfl

theorem quiet_mergeStorageObservation (self : WorldState) (index : Nat)
    (observation : StorageObservation) :
    Quiet env self (self.mergeStorageObservation index observation) where
  grows := Grows.of_world rfl rfl rfl
  view := by
    refine view_congr rfl rfl rfl rfl (fun _ => rfl) fun _ _ => ?_
    apply storageEffect_congr
    · rfl
    · exact map_modify_same _ _ _ _ fun _ => rfl
  handles _ held := by
    refine ⟨held.account, ?_⟩
    intro id row found same
    have owners : (self.mergeStorageObservation index observation).observedStorage.map
        (·.storage) = self.observedStorage.map (·.storage) :=
      map_modify_same _ _ _ _ fun _ => rfl
    rw [← List.getElem?_map, owners, List.getElem?_map]
    exact held.storage id row found same
  stamps := RowStamps.of_world rfl (Nat.le_refl _)
  codeCache := List.prefix_refl _
  lifecycle _ := rfl
  rest := rfl

/-! ## Effects of the other rows -/

/-- A row of the running transaction is found through its own record only. -/
theorem accountEffect_other (handles : Handles before) (running : before.lifetime.transaction ≠ 0)
    (lifetime : after.lifetime = before.lifetime) {id : AccountId} {address : Address}
    (key : before.world.accounts.key id = some address)
    (kept : ∀ (index : Nat) (observed : AccountObservationRow), before.observedAccounts[index]? =
      some observed →
      observed.account ≠ id → after.observedAccounts[index]? = some observed)
    {other : Address} (differs : other ≠ address) :
    after.accountEffect (before.accountAt env other).observation =
      before.accountEffect (before.accountAt env other).observation := by
  unfold accountEffect
  rw [lifetime]
  split
  · rename_i same
    cases found : before.world.accounts.find other with
    | none =>
        rw [accountAt_of_missing found] at same
        exact absurd same.symm running
    | some otherId =>
        have otherKey := Table.find_eq_some.mp found
        obtain ⟨row, held⟩ := Table.row_eq_some_of_key otherKey
        rw [accountAt_of_row otherKey held] at same ⊢
        obtain ⟨observed, observedEq, owner⟩ :=
          Option.map_eq_some_iff.mp (handles.account otherId row held same)
        have elsewhere : observed.account ≠ id := by
          rw [owner]
          rintro rfl
          rw [key] at otherKey
          exact differs (Option.some.inj otherKey).symm
        rw [observedEq, kept _ _ observedEq elsewhere]
  · rfl

theorem storageEffect_other (handles : Handles before) (running : before.lifetime.transaction ≠ 0)
    (lifetime : after.lifetime = before.lifetime) {id : StorageId} {address : Address}
    {slot : U256} (place : before.slotOf id = some (address, slot))
    (kept : ∀ (index : Nat) (observed : StorageObservationRow), before.observedStorage[index]? =
      some observed →
      observed.storage ≠ id → after.observedStorage[index]? = some observed)
    {other : Address} {otherSlot : U256} (differs : (other, otherSlot) ≠ (address, slot)) :
    after.storageEffect (before.storageAt env other otherSlot).observation =
      before.storageEffect (before.storageAt env other otherSlot).observation := by
  unfold storageEffect
  rw [lifetime]
  split
  · rename_i same
    rw [storageAt] at same ⊢
    cases account : before.world.accounts.find other with
    | none =>
        rw [account] at same
        exact absurd same.symm running
    | some accountId =>
        rw [account, Option.bind_some] at same
        rw [Option.bind_some]
        cases found : before.world.storage.find { account := accountId, slot := otherSlot } with
        | none =>
            rw [Table.value_eq_none.mpr found] at same
            exact absurd same.symm running
        | some otherId =>
            have otherKey := Table.find_eq_some.mp found
            obtain ⟨row, held⟩ := Table.row_eq_some_of_key otherKey
            rw [Table.value_eq_row otherKey, held] at same ⊢
            obtain ⟨observed, observedEq, owner⟩ :=
              Option.map_eq_some_iff.mp (handles.storage otherId row held same)
            have elsewhere : observed.storage ≠ id := by
              rw [owner]
              rintro rfl
              have otherPlace : before.slotOf otherId = some (other, otherSlot) :=
                slotOf_eq_some.mpr ⟨accountId, otherKey, Table.find_eq_some.mp account⟩
              rw [place] at otherPlace
              exact differs (Option.some.inj otherPlace).symm
            rw [Option.getD_some, observedEq, kept _ _ observedEq elsewhere]
  · rfl

/-! ## First observations -/

theorem getElem?_append_kept {α : Type} {items extra : List α} {index : Nat} {item : α}
    (found : items[index]? = some item) : (items ++ extra)[index]? = some item := by
  obtain ⟨inside, -⟩ := List.getElem?_eq_some_iff.mp found
  rw [List.getElem?_append_left inside]
  exact found

theorem quiet_recordAccountObservation (self : WorldState) (id : AccountId) (row : AccountRow)
    (observation : AccountObservation) (held : self.world.accounts.row id = some row)
    (first : row.observation.transaction ≠ self.lifetime.transaction)
    (running : self.lifetime.transaction ≠ 0)
    (past : self.lifetime.transaction ≤ self.clock) (handles : Handles self)
    (stamps : RowStamps self) :
    Quiet env self (self.recordAccountObservation id row observation) := by
  obtain ⟨address, key⟩ := Table.key_eq_some_of_row held
  have set : AccountSet self (self.recordAccountObservation id row observation) id row
      { row with observation := {
          transaction := self.lifetime.transaction
          index := self.observedAccounts.length } } :=
    { held := held
      accounts := accounts_updateAccount held _
      storage := by
        show (self.updateAccount id _).world.storage = _
        rw [updateAccount_of_row held]
      deferred := rfl
      transient := rfl
      lifetime := rfl }
  have list : (self.recordAccountObservation id row observation).observedAccounts =
      self.observedAccounts ++ [{
        account := id
        original := row.current
        originalStorageIncarnation := row.storageIncarnation
        observation }] := rfl
  refine ⟨set.grows fun _ => rfl, ?_, ?_, ?_, ?_, fun _ => rfl, rfl⟩
  · funext cell
    by_cases inside : cell.OfAccount address
    · cases cell with
      | account other =>
          cases inside
          simp only [view, set.at_same key, accountAt_of_row key held]
          rfl
      | storageDirty other =>
          cases inside
          simp only [view, set.at_same key, accountAt_of_row key held]
      | accountEffect other =>
          cases inside
          simp only [view, set.at_same key, accountAt_of_row key held]
          refine (accountEffect_current rfl).trans ?_
          rw [accountEffect_stale first, list, List.getElem?_concat_length]
          rfl
      | accountWarm other =>
          cases inside
          simp only [view, set.at_same key, accountAt_of_row key held]
          rfl
      | _ => exact inside.elim
    · refine set.view_other key (fun other differs => ?_) rfl inside
      refine accountEffect_other handles running set.lifetime key ?_ differs
      intro index observed found _
      rw [list]
      exact getElem?_append_kept found
  · intro _ _
    refine ⟨?_, ?_⟩
    · intro other otherRow found same
      rw [list]
      rw [set.accounts] at found
      rcases Table.row_of_set set.held found with ⟨rfl, rfl⟩ | found
      · rw [List.getElem?_concat_length]
        rfl
      · obtain ⟨observed, observedEq, owner⟩ :=
          Option.map_eq_some_iff.mp (handles.account other otherRow found same)
        rw [getElem?_append_kept observedEq, Option.map_some, owner]
    · intro other otherRow found same
      rw [set.storage] at found
      exact handles.storage other otherRow found same
  · exact set.stamps rfl (stamps.account id row held).1 past
  · show self.world.code <+: (self.updateAccount id _).world.code
    rw [updateAccount_of_row held]

theorem quiet_recordStorageObservation (self : WorldState) (id : StorageId) (original : U256)
    (row : StorageRow) (observation : StorageObservation)
    (held : self.world.storage.row id = some row)
    (first : row.observation.transaction ≠ self.lifetime.transaction)
    (running : self.lifetime.transaction ≠ 0)
    (past : self.lifetime.transaction ≤ self.clock) (handles : Handles self)
    (stamps : RowStamps self) :
    Quiet env self (self.recordStorageObservation id original observation) := by
  obtain ⟨⟨account, slot⟩, storageKey⟩ := Table.key_eq_some_of_row held
  obtain ⟨address, addressKey⟩ := Option.isSome_iff_exists.mp (stamps.owner id _ storageKey)
  have place : self.slotOf id = some (address, slot) :=
    slotOf_eq_some.mpr ⟨account, storageKey, addressKey⟩
  have set : StorageSet self (self.recordStorageObservation id original observation) id row
      { row with observation := {
          transaction := self.lifetime.transaction
          index := self.observedStorage.length } } :=
    { held := held
      storage := storage_updateStorage held _
      accounts := by
        show (self.updateStorage id _).world.accounts = _
        rw [updateStorage_of_row held]
      deferred := rfl
      transient := rfl
      lifetime := rfl }
  have list : (self.recordStorageObservation id original observation).observedStorage =
      self.observedStorage ++ [{ storage := id, original, observation }] := rfl
  refine ⟨set.grows fun _ => rfl, ?_, ?_, ?_, ?_, fun _ => rfl, rfl⟩
  · funext cell
    by_cases inside : cell.OfSlot address slot
    · cases cell with
      | slot other otherSlot =>
          cases inside
          simp only [view, set.at_same place, storageAt_of_row place held]
          rfl
      | slotEffect other otherSlot =>
          cases inside
          simp only [view, set.at_same place, storageAt_of_row place held]
          refine (storageEffect_current rfl).trans ?_
          rw [storageEffect_stale first, list, List.getElem?_concat_length]
          rfl
      | slotWarm other otherSlot =>
          cases inside
          simp only [view, set.at_same place, storageAt_of_row place held]
          rfl
      | _ => exact inside.elim
    · refine set.view_other place (fun other otherSlot differs => ?_) rfl inside
      refine storageEffect_other handles running set.lifetime place ?_ differs
      intro index observed found _
      rw [list]
      exact getElem?_append_kept found
  · intro _ _
    refine ⟨?_, ?_⟩
    · intro other otherRow found same
      rw [set.accounts] at found
      exact handles.account other otherRow found same
    · intro other otherRow found same
      rw [list]
      rw [set.storage] at found
      rcases Table.row_of_set set.held found with ⟨rfl, rfl⟩ | found
      · rw [List.getElem?_concat_length]
        rfl
      · obtain ⟨observed, observedEq, owner⟩ :=
          Option.map_eq_some_iff.mp (handles.storage other otherRow found same)
        rw [getElem?_append_kept observedEq, Option.map_some, owner]
  · exact set.stamps rfl (stamps.storage id row held).1 past
  · show self.world.code <+: (self.updateStorage id _).world.code
    rw [updateStorage_of_row held]

/-- An attempt is running. -/
def Running (self : WorldState) : Prop := self.transactionActive = true

end WorldState

end EvmZig.State
