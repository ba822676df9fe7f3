import EvmZig.State.Rows

/-!
# Requests, admission, code loading and observations keep the discipline

Each of these steps is quiet: it is checked once against the cells, and the
discipline follows.
-/

set_option autoImplicit false

namespace EvmZig.State

open Lib Zig

namespace WorldState

variable {env : Env} {strict : Prop} {base : Nat} {scope : Generation} {before after self : WorldState}

theorem Quiet.keeps {update : WorldState → WorldState} {pre : WorldState → Prop}
    {post : Unit → WorldState → Prop}
    (quiet : ∀ self, Inv env base scope self → pre self → Quiet env self (update self))
    (holds : ∀ self, pre self → post () (update self)) :
    Keeps (calls env strict base scope) pre (Action.modify update : Method Unit) post :=
  Keeps.modify fun self inv condition =>
    have stepped := (quiet self inv condition).step strict inv
    ⟨stepped.1, stepped.2, holds self condition⟩

/-- Cells are read off these fields. -/
theorem view_congr (world : after.world = before.world)
    (deferred : after.deferredWarmth = before.deferredWarmth)
    (transient : after.transientStorage = before.transientStorage)
    (lifetime : after.lifetime = before.lifetime)
    (accounts : ∀ address, after.accountEffect (before.accountAt env address).observation =
      before.accountEffect (before.accountAt env address).observation)
    (slots : ∀ address slot, after.storageEffect (before.storageAt env address slot).observation =
      before.storageEffect (before.storageAt env address slot).observation) :
    after.view env = before.view env := by
  have accountAt : ∀ address, after.accountAt env address = before.accountAt env address := by
    intro address
    rw [WorldState.accountAt, WorldState.accountAt, world]
  have storageAt : ∀ address slot,
      after.storageAt env address slot = before.storageAt env address slot := by
    intro address slot
    rw [WorldState.storageAt, WorldState.storageAt, world]
  funext cell
  cases cell with
  | account address => simp only [view, accountAt]
  | storageDirty address => simp only [view, accountAt]
  | accountEffect address => simp only [view, accountAt, accounts]
  | slot address slot => simp only [view, storageAt]
  | slotEffect address slot => simp only [view, storageAt, slots]
  | accountWarm address => simp only [view, accountAt, lifetime]
  | slotWarm address slot => simp only [view, storageAt, lifetime]
  | deferredAccount address => simp only [view, deferred]
  | deferredSlot address slot => simp only [view, deferred]
  | transient address slot => simp only [view, transientValue, transient]

theorem Grows.of_world (world : after.world = before.world)
    (deferred : after.deferredWarmth = before.deferredWarmth)
    (lifetime : after.lifetime = before.lifetime) : Grows before after where
  accountKey id address found := by rw [world, found]
  storageKey id key found := by rw [world, found]
  deferredAccountKey entry address found := by rw [deferred, found]
  deferredStorageKey entry key found := by rw [deferred, found]
  observedAccount id seen := by
    obtain ⟨row, held, same⟩ := seen
    exact ⟨row, by rw [world, held], by rw [lifetime, same]⟩
  observedStorage id row held same := ⟨row, by rw [world, held], by rw [lifetime, same]⟩

theorem RowStamps.of_world (world : after.world = before.world) (clock : before.clock ≤ after.clock)
    (held : RowStamps before) : RowStamps after where
  account id row found := by
    rw [world] at found
    exact ⟨(held.account id row found).1.trans clock, (held.account id row found).2.trans clock⟩
  storage id row found := by
    rw [world] at found
    exact ⟨(held.storage id row found).1.trans clock, (held.storage id row found).2.trans clock⟩
  owner id key found := by
    rw [world] at found ⊢
    exact held.owner id key found

/-! ## Requests -/

theorem quiet_requests (self : WorldState) (requests : Nat) :
    Quiet env self { self with requests } where
  grows := Grows.of_world rfl rfl rfl
  view := view_congr rfl rfl rfl rfl (fun _ => rfl) fun _ _ => rfl
  handles _ held := ⟨held.account, held.storage⟩
  stamps := RowStamps.of_world rfl (Nat.le_refl _)
  codeCache := List.prefix_refl _
  lifecycle _ := rfl
  rest := rfl

/-- A condition that does not count requests. -/
def IgnoresRequests (condition : WorldState → Prop) : Prop :=
  ∀ self requests, condition self → condition { self with requests }

/-! ## Lookups, under any discipline -/

/-- A method that only looks. -/
def Looks {α : Type} (body : Method α) : Prop :=
  ∀ self, (∃ value, body self = .ok value self) ∨ body self = .illegal

section Lookups

variable {α β : Type} {body : Method α} {next : α → Method β} {discipline : Discipline WorldState}
  {pre : WorldState → Prop}

theorem Keeps.forget {post : α → WorldState → Prop} (kept : Keeps discipline pre body post) :
    Keeps discipline pre body fun _ _ => True :=
  kept.weaken fun _ _ _ => trivial

namespace Looks

theorem bind (first : Looks body) (second : ∀ value, Looks (next value)) :
    Looks (body >>= next) := by
  intro self
  rw [Action.bind_run]
  rcases first self with ⟨value, ran⟩ | ran
  · rw [ran]
    exact second value self
  · rw [ran]
    exact .inr rfl

theorem pure (value : α) : Looks (Pure.pure value : Method α) := fun _ => .inl ⟨value, rfl⟩

theorem get : Looks (Action.get : Method WorldState) := fun self => .inl ⟨self, rfl⟩

theorem assert (condition : WorldState → Prop) [DecidablePred condition] :
    Looks (Action.assert condition : Method Unit) := by
  intro self
  unfold Action.assert
  split
  · exact .inl ⟨(), rfl⟩
  · exact .inr rfl

theorem illegal : Looks (Action.illegal : Method α) := fun _ => .inr rfl

theorem kept (looks : Looks body) : Keeps discipline pre body fun _ => pre := by
  intro self invariant condition
  rcases looks self with ⟨value, ran⟩ | ran
  · rw [ran]
    exact ⟨invariant, discipline.refl invariant, condition⟩
  · rw [ran]
    trivial

theorem safe (looks : Looks body) : Safe discipline body := looks.kept

theorem eq_of_ok (looks : Looks body) {value : α} {after : WorldState}
    (ran : body self = .ok value after) : self = after := by
  rcases looks self with ⟨result, ok⟩ | stuck
  · rw [ok] at ran
    cases ran
    rfl
  · rw [stuck] at ran
    cases ran

/-- What a lookup returns holds of the state it was made in. -/
theorem reads (looks : Looks body) {post : α → WorldState → Prop}
    (found : ∀ self value, body self = .ok value self → post value self) :
    Keeps discipline pre body fun value after => post value after ∧ pre after := by
  intro self invariant condition
  rcases looks self with ⟨value, ran⟩ | ran
  · rw [ran]
    exact ⟨invariant, discipline.refl invariant, found self value ran, condition⟩
  · rw [ran]
    trivial

end Looks

theorem accountRow_looks (id : AccountId) : Looks (accountRow id) := by
  intro self
  unfold accountRow
  split
  · exact .inl ⟨_, rfl⟩
  · exact .inr rfl

theorem storageRow_looks (id : StorageId) : Looks (storageRow id) := by
  intro self
  unfold storageRow
  split
  · exact .inl ⟨_, rfl⟩
  · exact .inr rfl

theorem accountAddress_looks (id : AccountId) : Looks (accountAddress id) := by
  intro self
  unfold accountAddress
  split
  · exact .inl ⟨_, rfl⟩
  · exact .inr rfl

theorem storageKey_looks (id : StorageId) : Looks (storageKey id) := by
  intro self
  unfold storageKey
  split
  · exact .inl ⟨_, rfl⟩
  · exact .inr rfl

theorem accountObservation_looks (id : AccountId) : Looks (accountObservation id) := by
  unfold accountObservation
  refine (accountRow_looks id).bind fun row => Looks.get.bind fun state => ?_
  split
  · exact Looks.pure _
  · exact Looks.illegal

theorem storageObservation_looks (id : StorageId) : Looks (storageObservation id) := by
  unfold storageObservation
  refine (storageRow_looks id).bind fun row => Looks.get.bind fun state => ?_
  split
  · exact Looks.pure _
  · exact Looks.illegal

theorem assertSession_looks : Looks assertSession := (Looks.assert _).bind fun _ => Looks.assert _

theorem assertMutable_looks : Looks assertMutable :=
  (Looks.assert _).bind fun _ => (Looks.assert _).bind fun _ => Looks.assert _

theorem isAttemptOpen_looks : Looks isAttemptOpen :=
  (Looks.assert _).bind fun _ => fun _ => .inl ⟨_, rfl⟩

theorem effectiveStorage_looks (id : StorageId) : Looks (effectiveStorage id) :=
  (storageKey_looks id).bind fun _ => (accountRow_looks _).bind fun _ =>
    (storageRow_looks _).bind fun _ => Looks.pure _

theorem incarnationBeforeAttempt_looks (id : AccountId) : Looks (incarnationBeforeAttempt id) := by
  unfold incarnationBeforeAttempt
  refine (accountRow_looks id).bind fun account => Looks.get.bind fun state => ?_
  split
  · rw [← bind_pure_comp]
    exact (accountObservation_looks id).bind fun _ => Looks.pure _
  · exact Looks.pure _

theorem storageBeforeAttempt_looks (row : StorageRow) : Looks (storageBeforeAttempt row) := by
  unfold storageBeforeAttempt
  refine Looks.get.bind fun state => ?_
  split
  · split
    · exact Looks.pure _
    · exact Looks.illegal
  · exact Looks.pure _

theorem acceptedStorageValue_looks (id : StorageId) : Looks (acceptedStorageValue id) := by
  unfold acceptedStorageValue
  refine Looks.get.bind fun state => ?_
  split
  · exact effectiveStorage_looks id
  · exact (storageKey_looks id).bind fun key => (incarnationBeforeAttempt_looks _).bind fun _ =>
      (storageRow_looks id).bind fun row => (storageBeforeAttempt_looks row).bind fun _ =>
        Looks.pure _

theorem accountRow_reads (id : AccountId) :
    Keeps discipline pre (accountRow id)
      fun row after => after.world.accounts.row id = some row ∧ pre after := by
  refine (accountRow_looks id).reads fun self row ran => ?_
  unfold accountRow at ran
  split at ran
  · cases ran
    assumption
  · cases ran

theorem storageRow_reads (id : StorageId) :
    Keeps discipline pre (storageRow id)
      fun row after => after.world.storage.row id = some row ∧ pre after := by
  refine (storageRow_looks id).reads fun self row ran => ?_
  unfold storageRow at ran
  split at ran
  · cases ran
    assumption
  · cases ran

theorem accountAddress_reads (id : AccountId) :
    Keeps discipline pre (accountAddress id)
      fun address after => after.world.accounts.key id = some address ∧ pre after := by
  refine (accountAddress_looks id).reads fun self address ran => ?_
  unfold accountAddress at ran
  split at ran
  · cases ran
    assumption
  · cases ran

theorem accountObservation_reads (id : AccountId) :
    Keeps discipline pre (accountObservation id)
      fun observed after => (∃ row, after.world.accounts.row id = some row ∧
        after.observedAccounts[row.observation.index]? = some observed) ∧ pre after := by
  unfold accountObservation
  refine Keeps.bind (accountRow_reads id) fun row => Keeps.bind Keeps.get fun state => ?_
  split
  · rename_i observed found
    refine Keeps.returns ?_
    rintro _ after ⟨rfl, rfl, held, condition⟩
    exact ⟨⟨row, held, found⟩, condition⟩
  · exact Keeps.illegal

theorem storageObservation_reads (id : StorageId) :
    Keeps discipline pre (storageObservation id)
      fun observed after => (∃ row, after.world.storage.row id = some row ∧
        after.observedStorage[row.observation.index]? = some observed) ∧ pre after := by
  unfold storageObservation
  refine Keeps.bind (storageRow_reads id) fun row => Keeps.bind Keeps.get fun state => ?_
  split
  · rename_i observed found
    refine Keeps.returns ?_
    rintro _ after ⟨rfl, rfl, held, condition⟩
    exact ⟨⟨row, held, found⟩, condition⟩
  · exact Keeps.illegal

end Lookups

theorem accountRow_run_none {id : AccountId} (missing : self.world.accounts.row id = none) :
    accountRow id self = .illegal := by
  unfold accountRow
  rw [missing]

theorem accountRow_run {id : AccountId} {row : AccountRow}
    (held : self.world.accounts.row id = some row) : accountRow id self = .ok row self := by
  unfold accountRow
  rw [held]

theorem storageRow_run {id : StorageId} {row : StorageRow}
    (held : self.world.storage.row id = some row) : storageRow id self = .ok row self := by
  unfold storageRow
  rw [held]

theorem accountObservation_run {id : AccountId} {row : AccountRow}
    {observed : AccountObservationRow} (held : self.world.accounts.row id = some row)
    (found : self.observedAccounts[row.observation.index]? = some observed) :
    accountObservation id self = .ok observed self := by
  unfold accountObservation
  rw [Action.bind_run, accountRow_run held]
  dsimp only
  rw [Action.bind_run, Action.get_run]
  dsimp only
  rw [found]
  rfl

theorem storageObservation_run {id : StorageId} {row : StorageRow}
    {observed : StorageObservationRow} (held : self.world.storage.row id = some row)
    (found : self.observedStorage[row.observation.index]? = some observed) :
    storageObservation id self = .ok observed self := by
  unfold storageObservation
  rw [Action.bind_run, storageRow_run held]
  dsimp only
  rw [Action.bind_run, Action.get_run]
  dsimp only
  rw [found]
  rfl

theorem updateAccountEffect_run {id : AccountId} {row : AccountRow}
    {observed : AccountObservationRow} (held : self.world.accounts.row id = some row)
    (found : self.observedAccounts[row.observation.index]? = some observed)
    (update : AccountEffect → AccountEffect) :
    updateAccountEffect id update self =
      .ok () (setAccountEffect row.observation.index update self) := by
  unfold updateAccountEffect
  rw [Action.bind_run, accountRow_run held]
  dsimp only
  rw [Action.bind_run, accountObservation_run held found]
  rfl

theorem updateStorageEffect_run {id : StorageId} {row : StorageRow}
    {observed : StorageObservationRow} (held : self.world.storage.row id = some row)
    (found : self.observedStorage[row.observation.index]? = some observed)
    (update : StorageEffect → StorageEffect) :
    updateStorageEffect id update self =
      .ok () (setStorageEffect row.observation.index update self) := by
  unfold updateStorageEffect
  rw [Action.bind_run, storageRow_run held]
  dsimp only
  rw [Action.bind_run, storageObservation_run held found]
  rfl

/-! ## Admission -/

/-- Every slot is kept under the id of an account. -/
def Housed (state : WorldState) : Prop :=
  ∀ id key, state.world.storage.key id = some key → (state.world.accounts.key key.account).isSome

theorem accountAt_admitAccount (self : WorldState) (address : Address)
    (fresh : self.world.accounts.find address = none) (other : Address) :
    (self.withAccounts (self.world.accounts.admitRow address (.admitted (env.parentAccount address))
      fresh)).accountAt env other = self.accountAt env other := by
  by_cases same : other = address
  · subst same
    rw [accountAt_of_missing fresh, WorldState.accountAt, withAccounts_accounts,
      Table.value_admit_same]
    rfl
  · rw [WorldState.accountAt, WorldState.accountAt, withAccounts_accounts,
      Table.value_admit_other same]

theorem storageAt_admitAccount (self : WorldState) (address : Address)
    (fresh : self.world.accounts.find address = none) (housed : Housed self) (other : Address)
    (slot : U256) :
    WorldState.storageAt env (self.withAccounts (self.world.accounts.admitRow address
      (.admitted (env.parentAccount address)) fresh)) other slot = self.storageAt env other slot := by
  rw [WorldState.storageAt, WorldState.storageAt, withAccounts_accounts, withAccounts_storage]
  cases held : self.world.accounts.find other with
  | some id =>
      rw [Table.find_eq_some] at held
      rw [Table.find_eq_some.mpr (Table.key_admitRow fresh held)]
  | none =>
      cases found : (self.world.accounts.admitRow address
          (.admitted (env.parentAccount address)) fresh).find other with
      | none => rfl
      | some id =>
          rcases Table.key_of_admitRow (Table.find_eq_some.mp found) with old | ⟨last, -⟩
          · exact absurd old (Table.find_eq_none.mp held id)
          · subst last
            -- no slot is kept under the id the new row takes
            cases search : self.world.storage.value { account := self.world.accounts.count, slot } with
            | none => rw [Option.bind_some, search, Option.bind_none]
            | some row =>
                cases index : self.world.storage.find
                    { account := self.world.accounts.count, slot } with
                | none =>
                    rw [Table.value_eq_none.mpr index] at search
                    cases search
                | some storageId =>
                    have owned := housed _ _ (Table.find_eq_some.mp index)
                    obtain ⟨owner, ownerEq⟩ := Option.isSome_iff_exists.mp owned
                    exact absurd (Table.key_lt ownerEq) (Nat.lt_irrefl _)

theorem quiet_admitAccount (self : WorldState) (address : Address)
    (fresh : self.world.accounts.find address = none) (stamps : RowStamps self) :
    Quiet env self (self.withAccounts
      (self.world.accounts.admitRow address (.admitted (env.parentAccount address)) fresh)) := by
  have accountAt := @accountAt_admitAccount env self address fresh
  have storageAt := @storageAt_admitAccount env self address fresh stamps.owner
  refine ⟨?_, ?_, ?_, ?_, List.prefix_refl _, fun _ => rfl, rfl⟩
  · refine ⟨fun id other found => Table.key_admitRow fresh found, fun _ _ found => found,
      fun _ _ found => found, fun _ _ found => found, ?_, fun _ row held same => ⟨row, held, same⟩⟩
    rintro id ⟨row, held, same⟩
    exact ⟨row, Table.row_admitRow fresh held, same⟩
  · funext cell
    cases cell with
    | account other => simp only [view, accountAt]
    | storageDirty other => simp only [view, accountAt]
    | accountEffect other =>
        simp only [view, accountAt]
        rfl
    | slot other slot => simp only [view, storageAt]
    | slotEffect other slot =>
        simp only [view, storageAt]
        rfl
    | accountWarm other =>
        simp only [view, accountAt]
        rfl
    | slotWarm other slot =>
        simp only [view, storageAt]
        rfl
    | deferredAccount other => rfl
    | deferredSlot other slot => rfl
    | transient other slot => rfl
  · intro active held
    refine ⟨?_, held.storage⟩
    intro id row found same
    rcases Table.row_of_admitRow fresh found with old | rfl
    · exact held.account id row old same
    · exact absurd same.symm active
  · intro held
    refine ⟨?_, held.storage, ?_⟩
    · intro id row found
      rcases Table.row_of_admitRow fresh found with old | rfl
      · exact held.account id row old
      · exact ⟨Nat.zero_le _, Nat.zero_le _⟩
    · intro id key found
      obtain ⟨owner, ownerEq⟩ := Option.isSome_iff_exists.mp (held.owner id key found)
      exact Option.isSome_iff_exists.mpr ⟨owner, Table.key_admitRow fresh ownerEq⟩

theorem storageAt_admitStorage (self : WorldState) (key : StorageKey) {address : Address}
    (owner : self.world.accounts.key key.account = some address)
    (fresh : self.world.storage.find key = none) (other : Address) (slot : U256) :
    WorldState.storageAt env (self.withStorage (self.world.storage.admitRow key
      { current := env.parentStorage address key.slot } fresh)) other slot =
        self.storageAt env other slot := by
  rw [WorldState.storageAt, WorldState.storageAt, withStorage_accounts, withStorage_storage]
  cases held : self.world.accounts.find other with
  | none => rfl
  | some account =>
      rw [Option.bind_some, Option.bind_some]
      by_cases same : (⟨account, slot⟩ : StorageKey) = key
      · subst same
        rw [Table.value_admit_same, Table.value_eq_none.mpr fresh]
        rw [Table.find_eq_some, owner] at held
        cases held
        rfl
      · rw [Table.value_admit_other same]

theorem quiet_admitStorage (self : WorldState) (key : StorageKey) {address : Address}
    (owner : self.world.accounts.key key.account = some address)
    (fresh : self.world.storage.find key = none) :
    Quiet env self (self.withStorage
      (self.world.storage.admitRow key { current := env.parentStorage address key.slot } fresh)) := by
  have storageAt := @storageAt_admitStorage env self key address owner fresh
  refine ⟨?_, ?_, ?_, ?_, List.prefix_refl _, fun _ => rfl, rfl⟩
  · exact ⟨fun _ _ found => found, fun id other found => Table.key_admitRow fresh found,
      fun _ _ found => found, fun _ _ found => found, fun _ seen => seen,
      fun id row held same => ⟨row, Table.row_admitRow fresh held, same⟩⟩
  · funext cell
    cases cell with
    | slot other slot => simp only [view, storageAt]
    | slotEffect other slot =>
        simp only [view, storageAt]
        rfl
    | slotWarm other slot =>
        simp only [view, storageAt]
        rfl
    | _ => rfl
  · intro active held
    refine ⟨held.account, ?_⟩
    intro id row found same
    rcases Table.row_of_admitRow fresh found with old | rfl
    · exact held.storage id row old same
    · exact absurd same.symm active
  · intro held
    refine ⟨held.account, ?_, ?_⟩
    · intro id row found
      rcases Table.row_of_admitRow fresh found with old | rfl
      · exact held.storage id row old
      · exact ⟨Nat.zero_le _, Nat.zero_le _⟩
    · intro id other found
      simp only [withStorage_storage] at found
      rcases Table.key_of_admitRow found with old | ⟨-, same⟩
      · exact held.owner id other old
      · subst same
        exact Option.isSome_iff_exists.mpr ⟨address, owner⟩

/-! ## Parent code -/

theorem quiet_cacheCode (self : WorldState) (codeHash : CodeHash) (bytes : Bytes) :
    Quiet env self
      { self with world := { self.world with code := self.world.code ++ [(codeHash, bytes)] } } where
  grows := ⟨fun _ _ found => found, fun _ _ found => found, fun _ _ found => found,
    fun _ _ found => found, fun _ seen => seen, fun _ row held same => ⟨row, held, same⟩⟩
  view := rfl
  handles _ held := ⟨held.account, held.storage⟩
  stamps held := ⟨held.account, held.storage, held.owner⟩
  codeCache := List.prefix_append _ _
  lifecycle _ := rfl
  rest := rfl

/-! ## Fields no cell reads -/

/-- Account fields that rollback leaves alone. -/
theorem quiet_updateAccount (self : WorldState) (id : AccountId)
    (update : AccountRow → AccountRow)
    (silent : ∀ row, (update row).cell = row.cell ∧
      (update row).flags.storageDirty = row.flags.storageDirty ∧
      (update row).warmTransaction = row.warmTransaction ∧
      (update row).observation = row.observation)
    (stamps : RowStamps self) : Quiet env self (self.updateAccount id update) := by
  cases held : self.world.accounts.row id with
  | none =>
      have same : self.updateAccount id update = self := by
        rw [updateAccount, World.updateAccount, held]
      rw [same]
      exact ⟨Grows.refl self, rfl, fun _ held => held, fun held => held, List.prefix_refl _,
        fun _ => rfl, rfl⟩
  | some row =>
      obtain ⟨cellSame, dirtySame, warmSame, handleSame⟩ := silent row
      obtain ⟨address, key⟩ := Table.key_eq_some_of_row held
      have set : AccountSet self (self.updateAccount id update) id row (update row) :=
        { held := held
          accounts := accounts_updateAccount held update
          storage := by rw [updateAccount_of_row held]
          deferred := rfl
          transient := rfl
          lifetime := rfl }
      refine ⟨set.grows ?_, ?_, ?_, ?_, ?_, fun _ => rfl, rfl⟩
      · rw [handleSame]
        exact fun same => same
      · funext cell
        by_cases inside : cell.OfAccount address
        · cases cell with
          | account other =>
              cases inside
              simp only [view, set.at_same key, accountAt_of_row key held, cellSame]
          | storageDirty other =>
              cases inside
              simp only [view, set.at_same key, accountAt_of_row key held, dirtySame]
          | accountEffect other =>
              cases inside
              simp only [view, set.at_same key, accountAt_of_row key held, handleSame]
              rfl
          | accountWarm other =>
              cases inside
              simp only [view, set.at_same key, accountAt_of_row key held, warmSame]
              rfl
          | _ => exact inside.elim
        · exact set.view_other key (fun _ _ => rfl) rfl inside
      · exact fun _ handles => set.handles handleSame rfl rfl handles
      · apply set.stamps rfl
        · rw [warmSame]
          exact (stamps.account id row held).1
        · rw [handleSame]
          exact (stamps.account id row held).2
      · rw [updateAccount_of_row held]

theorem quiet_updateStorage (self : WorldState) (id : StorageId)
    (update : StorageRow → StorageRow)
    (silent : ∀ row, (update row).cell = row.cell ∧
      (update row).warmTransaction = row.warmTransaction ∧
      (update row).observation = row.observation)
    (stamps : RowStamps self) : Quiet env self (self.updateStorage id update) := by
  cases held : self.world.storage.row id with
  | none =>
      have same : self.updateStorage id update = self := by
        rw [updateStorage, World.updateStorage, held]
      rw [same]
      exact ⟨Grows.refl self, rfl, fun _ held => held, fun held => held, List.prefix_refl _,
        fun _ => rfl, rfl⟩
  | some row =>
      obtain ⟨cellSame, warmSame, handleSame⟩ := silent row
      obtain ⟨⟨account, slot⟩, storageKey⟩ := Table.key_eq_some_of_row held
      obtain ⟨address, addressKey⟩ := Option.isSome_iff_exists.mp (stamps.owner id _ storageKey)
      have place : self.slotOf id = some (address, slot) :=
        slotOf_eq_some.mpr ⟨account, storageKey, addressKey⟩
      have set : StorageSet self (self.updateStorage id update) id row (update row) :=
        { held := held
          storage := storage_updateStorage held update
          accounts := by rw [updateStorage_of_row held]
          deferred := rfl
          transient := rfl
          lifetime := rfl }
      refine ⟨set.grows ?_, ?_, ?_, ?_, ?_, fun _ => rfl, rfl⟩
      · rw [handleSame]
        exact fun same => same
      · funext cell
        by_cases inside : cell.OfSlot address slot
        · cases cell with
          | slot other otherSlot =>
              cases inside
              simp only [view, set.at_same place, storageAt_of_row place held, cellSame]
          | slotEffect other otherSlot =>
              cases inside
              simp only [view, set.at_same place, storageAt_of_row place held, handleSame]
              rfl
          | slotWarm other otherSlot =>
              cases inside
              simp only [view, set.at_same place, storageAt_of_row place held, warmSame]
              rfl
          | _ => exact inside.elim
        · exact set.view_other place (fun _ _ _ => rfl) rfl inside
      · exact fun _ handles => set.handles handleSame rfl rfl handles
      · apply set.stamps rfl
        · rw [warmSame]
          exact (stamps.storage id row held).1
        · rw [handleSame]
          exact (stamps.storage id row held).2
      · rw [updateStorage_of_row held]

end WorldState

end EvmZig.State
