import EvmZig.State.WarmRuns
import EvmZig.State.FinalOutcome

/-!
# The values a slot goes through in a transaction

A write is measured against what the slot held when its transaction first wrote
to it.  Reads and admissions leave the values and the originals of all slots, a
write leaves every original and changes the value of its own slot only.
-/

set_option autoImplicit false

namespace EvmZig.State

open Lib Zig

namespace WorldState

variable {env : Env} {self before after : WorldState} {α : Type}
  {touched : Address → U256 → Prop} {address : Address} {slot : U256}

/-- The value a write of the slot is measured against. -/
def originalValue (env : Env) (self : WorldState) (address : Address) (slot : U256) : U256 :=
  if (self.accountAt env address).flags.created then 0
  else if (self.storageAt env address slot).executionOriginalRoot = self.lifetime.root then
    (self.storageAt env address slot).executionOriginal
  else self.storageValue env address slot

/-- Slots outside `touched` keep their values, and all slots what they are measured against. -/
structure KeepsSlots (env : Env) (touched : Address → U256 → Prop) (before after : WorldState) :
    Prop where
  value : ∀ address slot, ¬touched address slot →
    after.storageValue env address slot = before.storageValue env address slot
  original : ∀ address slot,
    after.originalValue env address slot = before.originalValue env address slot
  accountKey : ∀ id address, before.world.accounts.key id = some address →
    after.world.accounts.key id = some address
  storageKey : ∀ id key, before.world.storage.key id = some key →
    after.world.storage.key id = some key

namespace KeepsSlots

theorem refl (self : WorldState) : KeepsSlots env touched self self :=
  ⟨fun _ _ _ => rfl, fun _ _ => rfl, fun _ _ key => key, fun _ _ key => key⟩

theorem trans {last : WorldState} (first : KeepsSlots env touched self after)
    (second : KeepsSlots env touched after last) : KeepsSlots env touched self last :=
  ⟨fun address slot free => (second.value address slot free).trans (first.value address slot free),
    fun address slot => (second.original address slot).trans (first.original address slot),
    fun id address key => second.accountKey id address (first.accountKey id address key),
    fun id held key => second.storageKey id held (first.storageKey id held key)⟩

theorem widen {wider : Address → U256 → Prop} (keeps : KeepsSlots env touched self after)
    (within : ∀ address slot, touched address slot → wider address slot) :
    KeepsSlots env wider self after :=
  ⟨fun address slot free => keeps.value address slot fun inside => free (within address slot inside),
    keeps.original, keeps.accountKey, keeps.storageKey⟩

end KeepsSlots

/-- The discipline of the calls that write no slot outside `touched`. -/
def slots (env : Env) (touched : Address → U256 → Prop) : Discipline WorldState where
  inv := Housed
  rel := KeepsSlots env touched
  refl _ := .refl _
  trans := .trans

/-! ## Steps -/

/-- What the value and the original of a slot are read from. -/
structure SameSlotRows (env : Env) (before after : WorldState) : Prop where
  created : ∀ address, (after.accountAt env address).flags.created =
    (before.accountAt env address).flags.created
  incarnation : ∀ address, (after.accountAt env address).storageIncarnation =
    (before.accountAt env address).storageIncarnation
  current : ∀ address slot, (after.storageAt env address slot).current =
    (before.storageAt env address slot).current
  written : ∀ address slot, (after.storageAt env address slot).storageIncarnation =
    (before.storageAt env address slot).storageIncarnation
  original : ∀ address slot, (after.storageAt env address slot).executionOriginal =
    (before.storageAt env address slot).executionOriginal
  root : ∀ address slot, (after.storageAt env address slot).executionOriginalRoot =
    (before.storageAt env address slot).executionOriginalRoot
  lifetime : after.lifetime.root = before.lifetime.root

namespace SameSlotRows

theorem storageValue (same : SameSlotRows env before after) (address : Address) (slot : U256) :
    after.storageValue env address slot = before.storageValue env address slot := by
  rw [WorldState.storageValue, WorldState.storageValue, effectiveValue, effectiveValue,
    same.incarnation, same.current, same.written]

theorem originalValue (same : SameSlotRows env before after) (address : Address) (slot : U256) :
    after.originalValue env address slot = before.originalValue env address slot := by
  rw [WorldState.originalValue, WorldState.originalValue, same.created, same.root, same.original,
    same.storageValue, same.lifetime]

theorem of_at (accounts : ∀ address, after.accountAt env address = before.accountAt env address)
    (storage : ∀ address slot,
      after.storageAt env address slot = before.storageAt env address slot)
    (lifetime : after.lifetime.root = before.lifetime.root) : SameSlotRows env before after where
  created address := by rw [accounts]
  incarnation address := by rw [accounts]
  current address slot := by rw [storage]
  written address slot := by rw [storage]
  original address slot := by rw [storage]
  root address slot := by rw [storage]
  lifetime := lifetime

theorem of_world (world : after.world = before.world) (lifetime : after.lifetime = before.lifetime) :
    SameSlotRows env before after :=
  .of_at (fun address => by rw [accountAt, accountAt, world])
    (fun address slot => by rw [storageAt, storageAt, world]) (by rw [lifetime])

theorem trans {last : WorldState} (first : SameSlotRows env before after)
    (second : SameSlotRows env after last) : SameSlotRows env before last where
  created address := (second.created address).trans (first.created address)
  incarnation address := (second.incarnation address).trans (first.incarnation address)
  current address slot := (second.current address slot).trans (first.current address slot)
  written address slot := (second.written address slot).trans (first.written address slot)
  original address slot := (second.original address slot).trans (first.original address slot)
  root address slot := (second.root address slot).trans (first.root address slot)
  lifetime := second.lifetime.trans first.lifetime

/-- The two tables say it all. -/
theorem congr {mid : WorldState} (same : SameSlotRows env before mid)
    (accounts : after.world.accounts = mid.world.accounts)
    (storage : after.world.storage = mid.world.storage)
    (lifetime : after.lifetime.root = before.lifetime.root) : SameSlotRows env before after := by
  have accountAt : ∀ address, after.accountAt env address = mid.accountAt env address :=
    fun address => by rw [WorldState.accountAt, WorldState.accountAt, accounts]
  have storageAt : ∀ address slot, after.storageAt env address slot = mid.storageAt env address slot :=
    fun address slot => by rw [WorldState.storageAt, WorldState.storageAt, accounts, storage]
  exact {
    created := fun address => by rw [accountAt, same.created]
    incarnation := fun address => by rw [accountAt, same.incarnation]
    current := fun address slot => by rw [storageAt, same.current]
    written := fun address slot => by rw [storageAt, same.written]
    original := fun address slot => by rw [storageAt, same.original]
    root := fun address slot => by rw [storageAt, same.root]
    lifetime := lifetime }

end SameSlotRows

/-- The rows of accounts and slots keep their places. -/
structure SamePlaces (before after : WorldState) : Prop where
  accounts : ∀ id, after.world.accounts.key id = before.world.accounts.key id
  storage : ∀ id, after.world.storage.key id = before.world.storage.key id

theorem SamePlaces.of_world (world : after.world = before.world) : SamePlaces before after :=
  ⟨fun id => by rw [world], fun id => by rw [world]⟩

theorem SamePlaces.trans {last : WorldState} (first : SamePlaces before after)
    (second : SamePlaces after last) : SamePlaces before last :=
  ⟨fun id => (second.accounts id).trans (first.accounts id),
    fun id => (second.storage id).trans (first.storage id)⟩

theorem SamePlaces.congr {mid : WorldState} (same : SamePlaces before mid)
    (accounts : after.world.accounts = mid.world.accounts)
    (storage : after.world.storage = mid.world.storage) : SamePlaces before after :=
  ⟨fun id => by rw [accounts, same.accounts], fun id => by rw [storage, same.storage]⟩

theorem SamePlaces.housed (same : SamePlaces before after) (housed : Housed before) : Housed after := by
  intro id key held
  rw [same.storage] at held
  rw [same.accounts]
  exact housed id key held

theorem SameSlotRows.keeps (same : SameSlotRows env before after) (keys : SamePlaces before after) :
    KeepsSlots env touched before after :=
  ⟨fun address slot _ => same.storageValue address slot, same.originalValue,
    fun id _ key => (keys.accounts id).trans key, fun id _ key => (keys.storage id).trans key⟩

/-- An assignment to an account row that leaves its storage alone. -/
theorem sameSlotRows_updateAccount (id : AccountId) {update : AccountRow → AccountRow}
    (created : ∀ row, (update row).flags.created = row.flags.created)
    (incarnation : ∀ row, (update row).storageIncarnation = row.storageIncarnation) :
    SameSlotRows env self (self.updateAccount id update) := by
  cases found : self.world.accounts.key id with
  | none =>
      rw [updateAccount_of_missing found]
      exact .of_world rfl rfl
  | some place =>
      obtain ⟨row, held⟩ := Table.row_eq_some_of_key found
      have storage : ∀ address slot, (self.updateAccount id update).storageAt env address slot =
          self.storageAt env address slot := by
        intro address slot
        rw [storageAt, storageAt, storage_updateAccount, accounts_updateAccount held, Table.find_set]
      have at_place : ∀ address,
          (self.updateAccount id update).accountAt env address = update (self.accountAt env address) ∨
          (self.updateAccount id update).accountAt env address = self.accountAt env address := by
        intro address
        by_cases here : address = place
        · subst here
          exact .inl (accountAt_updateAccount found update)
        · exact .inr (accountAt_updateAccount_other found here update)
      exact {
        created := fun address => by
          rcases at_place address with same | same
          · rw [same, created]
          · rw [same]
        incarnation := fun address => by
          rcases at_place address with same | same
          · rw [same, incarnation]
          · rw [same]
        current := fun address slot => by rw [storage]
        written := fun address slot => by rw [storage]
        original := fun address slot => by rw [storage]
        root := fun address slot => by rw [storage]
        lifetime := rfl }

theorem samePlaces_updateAccount (id : AccountId) (update : AccountRow → AccountRow) :
    SamePlaces self (self.updateAccount id update) :=
  ⟨fun other => key_updateAccount id other update, fun other => by rw [storage_updateAccount]⟩

theorem samePlaces_updateStorage (id : StorageId) (update : StorageRow → StorageRow) :
    SamePlaces self (self.updateStorage id update) := by
  refine ⟨fun other => by rw [accounts_updateStorage], fun other => ?_⟩
  unfold updateStorage World.updateStorage
  split
  · exact Table.key_set ..
  · rfl

theorem accountAt_updateStorage (id : StorageId) (update : StorageRow → StorageRow)
    (address : Address) :
    (self.updateStorage id update).accountAt env address = self.accountAt env address := by
  rw [accountAt, accountAt, accounts_updateStorage]

/-- A slot after its row, or another, is assigned to. -/
theorem storageAt_updateStorage (housed : Housed self) (id : StorageId)
    (update : StorageRow → StorageRow) (address : Address) (slot : U256) :
    (self.updateStorage id update).storageAt env address slot =
      if self.slotOf id = some (address, slot) then update (self.storageAt env address slot)
      else self.storageAt env address slot := by
  cases held : self.world.storage.row id with
  | none =>
      have same : self.updateStorage id update = self := by
        rw [updateStorage, World.updateStorage, held]
      rw [same]
      split
      · rename_i place
        obtain ⟨account, key, -⟩ := slotOf_eq_some.mp place
        obtain ⟨row, found⟩ := Table.row_eq_some_of_key key
        rw [held] at found
        cases found
      · rfl
  | some row =>
      obtain ⟨⟨account, own⟩, key⟩ := Table.key_eq_some_of_row held
      obtain ⟨owner, ownerKey⟩ := Option.isSome_iff_exists.mp (housed id _ key)
      have place : self.slotOf id = some (owner, own) :=
        slotOf_eq_some.mpr ⟨account, key, ownerKey⟩
      have set : StorageSet self (self.updateStorage id update) id row (update row) :=
        { held := held
          storage := storage_updateStorage held update
          accounts := accounts_updateStorage ..
          deferred := rfl
          transient := rfl
          lifetime := rfl }
      rw [place]
      by_cases here : (owner, own) = (address, slot)
      · cases here
        rw [if_pos rfl, set.at_same place, storageAt_of_row place held]
      · rw [if_neg fun same => here (Option.some.inj same)]
        exact set.at_other place fun same => here same.symm

theorem sameSlotRows_updateStorage (housed : Housed self) (id : StorageId)
    {update : StorageRow → StorageRow} (current : ∀ row, (update row).current = row.current)
    (written : ∀ row, (update row).storageIncarnation = row.storageIncarnation)
    (original : ∀ row, (update row).executionOriginal = row.executionOriginal)
    (root : ∀ row, (update row).executionOriginalRoot = row.executionOriginalRoot) :
    SameSlotRows env self (self.updateStorage id update) where
  created address := by rw [accountAt_updateStorage]
  incarnation address := by rw [accountAt_updateStorage]
  current address slot := by
    rw [storageAt_updateStorage housed]
    split
    · exact current _
    · rfl
  written address slot := by
    rw [storageAt_updateStorage housed]
    split
    · exact written _
    · rfl
  original address slot := by
    rw [storageAt_updateStorage housed]
    split
    · exact original _
    · rfl
  root address slot := by
    rw [storageAt_updateStorage housed]
    split
    · exact root _
    · rfl
  lifetime := rfl

/-! ## Reads -/

theorem Resolves.place {resolved : ResolvedStorage} (resolves : Resolves resolved address slot self) :
    self.slotOf resolved.storage = some (address, slot) :=
  slotOf_eq_some.mpr ⟨resolved.account, resolves.2, resolves.1⟩

/-- The original is what the slot holds, noted down by its first write. -/
theorem cachedOriginal_keeps {resolved : ResolvedStorage} {account : AccountRow} {row : StorageRow}
    (housed : Housed self) (resolves : Resolves resolved address slot self)
    (accountHeld : self.world.accounts.row resolved.account = some account)
    (held : self.world.storage.row resolved.storage = some row)
    (notCreated : account.flags.created = false)
    (stale : row.executionOriginalRoot ≠ self.lifetime.root) :
    KeepsSlots env touched self (self.updateStorage resolved.storage fun slot =>
      { slot with
        executionOriginal := effectiveValue account row
        executionOriginalRoot := self.lifetime.root }) := by
  generalize settled : (fun slot : StorageRow =>
    { slot with
      executionOriginal := effectiveValue account row
      executionOriginalRoot := self.lifetime.root }) = settle
  have storage := @storageAt_updateStorage env self housed resolved.storage settle
  have accounts := @accountAt_updateStorage env self resolved.storage settle
  have places : SamePlaces self (self.updateStorage resolved.storage settle) :=
    samePlaces_updateStorage _ _
  have value : ∀ address slot,
      (self.updateStorage resolved.storage settle).storageValue env address slot =
        self.storageValue env address slot := by
    intro address slot
    rw [storageValue, storageValue, accounts, storage, ← settled]
    split <;> rfl
  refine ⟨fun address slot _ => value address slot, fun other place => ?_,
    fun id _ key => (places.accounts id).trans key, fun id _ key => (places.storage id).trans key⟩
  rw [originalValue, originalValue, value, accounts, storage, resolves.place]
  by_cases here : some (address, slot) = some (other, place)
  · cases here
    have known : self.accountAt env address = account := accountAt_of_row resolves.1 accountHeld
    have slotKnown : self.storageAt env address slot = row := storageAt_of_row resolves.place held
    rw [if_pos rfl, storageValue, known, slotKnown, notCreated, if_neg stale, ← settled]
    exact if_pos rfl
  · rw [if_neg here]
    rfl

theorem kept_of_same (accounts : after.world.accounts = self.world.accounts)
    (storage : after.world.storage = self.world.storage) (lifetime : after.lifetime = self.lifetime)
    (housed : Housed self) : Housed after ∧ KeepsSlots env touched self after := by
  have same : SameSlotRows env self self := .of_world rfl rfl
  have here : SamePlaces self self := .of_world rfl
  have rows := same.congr accounts storage (by rw [lifetime])
  have places := here.congr accounts storage
  exact ⟨places.housed housed, rows.keeps places⟩

theorem kept_of_account (id : AccountId) (update : AccountRow → AccountRow)
    (world : after.world = (self.updateAccount id update).world)
    (lifetime : after.lifetime = self.lifetime)
    (created : ∀ row, (update row).flags.created = row.flags.created)
    (incarnation : ∀ row, (update row).storageIncarnation = row.storageIncarnation)
    (housed : Housed self) : Housed after ∧ KeepsSlots env touched self after := by
  have same := @sameSlotRows_updateAccount env self id update created incarnation
  have rows := same.congr (by rw [world]) (by rw [world]) (by rw [lifetime])
  have places := (samePlaces_updateAccount id update).congr (by rw [world]) (by rw [world])
  exact ⟨places.housed housed, rows.keeps places⟩

theorem kept_of_storage (id : StorageId) (update : StorageRow → StorageRow)
    (world : after.world = (self.updateStorage id update).world)
    (lifetime : after.lifetime = self.lifetime)
    (current : ∀ row, (update row).current = row.current)
    (written : ∀ row, (update row).storageIncarnation = row.storageIncarnation)
    (original : ∀ row, (update row).executionOriginal = row.executionOriginal)
    (root : ∀ row, (update row).executionOriginalRoot = row.executionOriginalRoot)
    (housed : Housed self) : Housed after ∧ KeepsSlots env touched self after := by
  have same := @sameSlotRows_updateStorage env self housed id update current written original root
  have rows := same.congr (by rw [world]) (by rw [world]) (by rw [lifetime])
  have places := (samePlaces_updateStorage id update).congr (by rw [world]) (by rw [world])
  exact ⟨places.housed housed, rows.keeps places⟩

/-- A change of a call that writes no slot keeps all slots. -/
theorem Change.keepsSlots (step : Change env .reading self after) (housed : Housed self) :
    Housed after ∧ KeepsSlots env touched self after := by
  cases step with
  | warmedAccount =>
      exact kept_of_account _ (fun row => { row with warmTransaction := self.lifetime.transaction })
        rfl rfl (fun _ => rfl) (fun _ => rfl) housed
  | warmedSlot =>
      exact kept_of_storage _ (fun row => { row with warmTransaction := self.lifetime.transaction })
        rfl rfl (fun _ => rfl) (fun _ => rfl) (fun _ => rfl) (fun _ => rfl) housed
  | deferredAccount => exact kept_of_same rfl rfl rfl housed
  | deferredSlot => exact kept_of_same rfl rfl rfl housed
  | assigned step =>
      cases step with
      | admittedAccount address fresh =>
          have rows : SameSlotRows env self (self.withAccounts (self.world.accounts.admitRow address
              (.admitted (env.parentAccount address)) fresh)) :=
            .of_at (accountAt_admitAccount self address fresh)
              (storageAt_admitAccount self address fresh housed) rfl
          refine ⟨fun id key found => ?_, fun other slot _ => rows.storageValue other slot,
            rows.originalValue, fun _ _ found => Table.key_admitRow fresh found, fun _ _ found => found⟩
          obtain ⟨owner, ownerKey⟩ := Option.isSome_iff_exists.mp (housed id key found)
          exact Option.isSome_iff_exists.mpr ⟨owner, Table.key_admitRow fresh ownerKey⟩
      | @admittedSlot key address owner fresh =>
          have rows : SameSlotRows env self (self.withStorage (self.world.storage.admitRow key
              { current := env.parentStorage address key.slot } fresh)) :=
            .of_at (fun _ => rfl) (storageAt_admitStorage self key owner fresh) rfl
          refine ⟨fun id other found => ?_, fun other slot _ => rows.storageValue other slot,
            rows.originalValue, fun _ _ found => found, fun _ _ found => Table.key_admitRow fresh found⟩
          rcases Table.key_of_admitRow (show (self.world.storage.admitRow key
            { current := env.parentStorage address key.slot } fresh).key id = some other from found)
            with old | ⟨-, same⟩
          · exact housed id other old
          · subst same
            exact Option.isSome_iff_exists.mpr ⟨address, owner⟩
      | cachedOriginal accountHeld owned held running notCreated stale =>
          obtain ⟨slot, key⟩ := owned
          obtain ⟨address, owner⟩ := Option.isSome_iff_exists.mp (housed _ _ key)
          exact ⟨(samePlaces_updateStorage _ _).housed housed,
            cachedOriginal_keeps housed ⟨owner, key⟩ accountHeld held notCreated stale⟩
      | boundCode => exact kept_of_account _ _ rfl rfl (fun _ => rfl) (fun _ => rfl) housed
      | observedAccount =>
          exact kept_of_account _ (fun row => { row with observation := ⟨self.lifetime.transaction, _⟩ })
            rfl rfl (fun _ => rfl) (fun _ => rfl) housed
      | journaled =>
          exact kept_of_account _ (fun row => { row with journaledScope := self.lifetime.scope })
            rfl rfl (fun _ => rfl) (fun _ => rfl) housed
      | blockChanged =>
          exact kept_of_account _ (fun row => { row with flags := { row.flags with blockChanged := true } })
            rfl rfl (fun _ => rfl) (fun _ => rfl) housed
      | transactionDirty =>
          exact kept_of_account _ (fun row => { row with dirtyTransaction := self.lifetime.transaction })
            rfl rfl (fun _ => rfl) (fun _ => rfl) housed
      | observedSlot =>
          exact kept_of_storage _ (fun row => { row with observation := ⟨self.lifetime.transaction, _⟩ })
            rfl rfl (fun _ => rfl) (fun _ => rfl) (fun _ => rfl) (fun _ => rfl) housed
      | stored code introduces => cases introduces
      | introduced running introduced introduces => cases introduces
      | cleared logs retained introduces => cases introduces
      | wrote assignable found value allowed ref writes => cases writes
      | touched assignable first writes => cases writes
      | enlisted assignable first writes => cases writes
      | created assignable found writes => cases writes
      | selfdestructed assignable found writes => cases writes
      | wroteSlot storable found value writes => cases writes
      | wiped assignable key allowed => cases allowed
      | wipeRecorded final => cases final
      | settledCreation final => cases final
      | settledDestruction final => cases final
      | _ => exact kept_of_same rfl rfl rfl housed

theorem Changed.keepsSlots (steps : Changed env .reading self after) (housed : Housed self) :
    Housed after ∧ KeepsSlots env touched self after := by
  induction steps with
  | refl => exact ⟨housed, .refl self⟩
  | tail _ step ih =>
      obtain ⟨still, kept⟩ := @Change.keepsSlots env _ _ touched step ih.1
      exact ⟨still, ih.2.trans kept⟩

/-- A call that writes no slot keeps them all. -/
theorem slots_of_changes {pre : WorldState → Prop} {post : α → WorldState → Prop} {body : Method α}
    (kept : Keeps (changes env .reading) pre body post) : Keeps (slots env touched) pre body post :=
  kept.relate (fun _ _ => trivial) fun _ _ housed _ steps => Changed.keepsSlots steps housed

theorem slots_of_reading {pre : WorldState → Prop} {post : α → WorldState → Prop} {body : Method α}
    (kept : Keeps (assignments env .reading) pre body post) : Keeps (slots env touched) pre body post :=
  slots_of_changes (changes_of_assignments kept)

theorem Resolves.kept {resolved : ResolvedStorage} (resolves : Resolves resolved address slot self)
    (keeps : KeepsSlots env touched self after) : Resolves resolved address slot after :=
  ⟨keeps.accountKey _ _ resolves.1, keeps.storageKey _ _ resolves.2⟩

/-! ## Writes -/

/-- The original and the value of a slot whose rows are at hand. -/
structure Tracks (env : Env) (resolved : ResolvedStorage) (address : Address) (slot : U256)
    (original current : U256) (state : WorldState) : Prop where
  resolves : Resolves resolved address slot state
  original : state.originalValue env address slot = original
  current : state.storageValue env address slot = current

section Writes

variable {resolved : ResolvedStorage} {original current : U256}

/-- Nothing is written. -/
abbrev Nowhere : Address → U256 → Prop := fun _ _ => False

/-- One slot is. -/
abbrev Only (address : Address) (slot : U256) : Address → U256 → Prop :=
  fun other place => other = address ∧ place = slot

theorem Tracks.kept (tracks : Tracks env resolved address slot original current self)
    (keeps : KeepsSlots env Nowhere self after) :
    Tracks env resolved address slot original current after :=
  ⟨tracks.resolves.kept keeps, (keeps.original address slot).trans tracks.original,
    (keeps.value address slot id).trans tracks.current⟩

theorem tracks_of_changes {body : Method α} (safe : Safe (changes env .reading) body) :
    Keeps (slots env Nowhere) (Tracks env resolved address slot original current) body
      fun _ => Tracks env resolved address slot original current :=
  (Keeps.carry (fun _ _ keeps tracks => Tracks.kept tracks keeps) (slots_of_changes safe)).imp
    (fun _ tracks => ⟨tracks, trivial⟩) fun _ _ holds => holds.1

theorem tracks_of_reading {body : Method α} (safe : Safe (assignments env .reading) body) :
    Keeps (slots env Nowhere) (Tracks env resolved address slot original current) body
      fun _ => Tracks env resolved address slot original current :=
  tracks_of_changes (changes_of_assignments safe)

theorem slots_widen {pre : WorldState → Prop} {post : α → WorldState → Prop} {body : Method α}
    (kept : Keeps (slots env Nowhere) pre body post) : Keeps (slots env touched) pre body post :=
  kept.relate (fun _ housed => housed) fun _ _ _ housed keeps =>
    ⟨housed, KeepsSlots.widen keeps fun _ _ never => never.elim⟩

theorem Resolves.accountAt_eq {account : AccountRow} (resolves : Resolves resolved address slot self)
    (held : self.world.accounts.row resolved.account = some account) :
    self.accountAt env address = account :=
  accountAt_of_row resolves.1 held

theorem Resolves.storageAt_eq {row : StorageRow} (resolves : Resolves resolved address slot self)
    (held : self.world.storage.row resolved.storage = some row) :
    self.storageAt env address slot = row :=
  storageAt_of_row resolves.place held

/-- The original is settled: it is zero, or the row has it. -/
theorem OriginalKnown.settled (known : OriginalKnown resolved self)
    (resolves : Resolves resolved address slot self) :
    (self.accountAt env address).flags.created = true ∨
      (self.storageAt env address slot).executionOriginalRoot = self.lifetime.root := by
  obtain ⟨account, row, accountHeld, held, settled⟩ := known
  rw [resolves.accountAt_eq accountHeld, resolves.storageAt_eq held]
  exact settled

theorem executionOriginal_slots (resolved : ResolvedStorage) (current : U256) :
    Keeps (slots env Nowhere) (Tracks env resolved address slot original current)
      (executionOriginal resolved current) fun result self => result = original ∧
        Tracks env resolved address slot original current self ∧ OriginalKnown resolved self := by
  unfold executionOriginal
  refine Keeps.bind (accountRow_reads _) fun account => ?_
  split
  · rename_i created
    refine Keeps.returns ?_
    rintro _ after ⟨rfl, held, tracks⟩
    have same := tracks.original
    rw [originalValue, tracks.resolves.accountAt_eq held, if_pos created] at same
    obtain ⟨row, rowHeld⟩ := Table.row_eq_some_of_key tracks.resolves.2
    exact ⟨same, tracks, account, row, held, rowHeld, .inl created⟩
  · rename_i notCreated
    refine Keeps.bind (storageRow_reads _) fun row => Keeps.bind Keeps.get fun state => ?_
    split
    · rename_i stale
      refine Keeps.bind (Keeps.assert _) fun _ => ?_
      rintro self housed ⟨root, rfl, held, accountHeld, tracks⟩
      have same := tracks.original
      have value := tracks.current
      rw [storageValue, tracks.resolves.accountAt_eq accountHeld, tracks.resolves.storageAt_eq held]
        at value
      have keeps := @cachedOriginal_keeps env state Nowhere address slot resolved account row housed
        tracks.resolves accountHeld held (Bool.eq_false_of_not_eq_true notCreated) stale
      rw [value] at keeps
      rw [originalValue, tracks.resolves.accountAt_eq accountHeld, if_neg notCreated,
        tracks.resolves.storageAt_eq held, if_neg stale, tracks.current] at same
      refine ⟨(samePlaces_updateStorage resolved.storage _).housed housed, keeps, same,
        tracks.kept keeps, account, _, ?_, row_updateStorage held _, .inr rfl⟩
      rw [accounts_updateStorage]
      exact accountHeld
    · rename_i same
      refine Keeps.returns ?_
      rintro _ after ⟨rfl, rfl, held, accountHeld, tracks⟩
      have root := not_not.mp same
      have settled := tracks.original
      rw [originalValue, tracks.resolves.accountAt_eq accountHeld, if_neg notCreated,
        tracks.resolves.storageAt_eq held, if_pos root] at settled
      exact ⟨settled, tracks, account, row, accountHeld, held, .inr root⟩

theorem journalSlotFirst_rows {id : StorageId} {row : StorageRow} (housed : Housed self)
    (effect : StorageEffect) :
    SameSlotRows env self (journalSlotFirst id row effect self) ∧
      SamePlaces self (journalSlotFirst id row effect self) := by
  unfold journalSlotFirst
  split
  · have pushed : Housed (self.push (.storage (storageUndo id row effect))) := housed
    have rows := @sameSlotRows_updateStorage env _ pushed id
      (fun held => journaledSlot held self.lifetime self.journal.storageUndos.length) (fun _ => rfl)
      (fun _ => rfl) (fun _ => rfl) fun _ => rfl
    exact ⟨⟨rows.created, rows.incarnation, rows.current, rows.written, rows.original, rows.root,
      rows.lifetime⟩, (samePlaces_updateStorage id _).1, (samePlaces_updateStorage id _).2⟩
  · exact ⟨.of_world rfl rfl, .of_world rfl⟩

theorem markStorageDirty_rows (id : AccountId) (needsUndo : Bool) :
    SameSlotRows env self (markStorageDirty id needsUndo self) ∧
      SamePlaces self (markStorageDirty id needsUndo self) := by
  unfold markStorageDirty
  have pushed : ∀ state : WorldState, state.world = self.world → state.lifetime = self.lifetime →
      SameSlotRows env self (state.updateAccount id fun row =>
        { row with flags := { row.flags with storageDirty := true } }) ∧
      SamePlaces self (state.updateAccount id fun row =>
        { row with flags := { row.flags with storageDirty := true } }) := by
    intro state world lifetime
    have rows := @sameSlotRows_updateAccount env self id (fun row =>
      { row with flags := { row.flags with storageDirty := true } }) (fun _ => rfl) fun _ => rfl
    have places := @samePlaces_updateAccount self id fun row =>
      { row with flags := { row.flags with storageDirty := true } }
    have same : (state.updateAccount id fun row =>
        { row with flags := { row.flags with storageDirty := true } }).world =
        (self.updateAccount id fun row =>
        { row with flags := { row.flags with storageDirty := true } }).world := by
      rw [updateAccount, updateAccount, world]
    exact ⟨rows.congr (congrArg World.accounts same) (congrArg World.storage same)
      (congrArg Lifetimes.root lifetime), places.congr (congrArg World.accounts same)
      (congrArg World.storage same)⟩
  cases needsUndo with
  | false => exact pushed self rfl rfl
  | true => exact pushed _ rfl rfl

/-- A write changes the value of its slot, and nothing a slot is measured against. -/
theorem storeSlot_slots {account : AccountRow} {row : StorageRow} (housed : Housed self)
    (accountHeld : self.world.accounts.row resolved.account = some account)
    (tracks : Tracks env resolved address slot original current self)
    (known : OriginalKnown resolved self) (effect : StorageEffect)
    (value : U256) :
    Housed (storeSlot resolved account row effect value self) ∧
      KeepsSlots env (Only address slot) self (storeSlot resolved account row effect value self) ∧
      Tracks env resolved address slot original value
        (storeSlot resolved account row effect value self) := by
  obtain ⟨journaled, journaledPlaces⟩ :=
    @journalSlotFirst_rows env self resolved.storage row housed effect
  obtain ⟨dirtied, dirtiedPlaces⟩ := @markStorageDirty_rows env
    (journalSlotFirst resolved.storage row effect self) resolved.account
    (account.flags.storageDirty = false ∧ account.journaledScope ≠ self.lifetime.scope)
  unfold storeSlot
  generalize middle : markStorageDirty resolved.account
    (account.flags.storageDirty = false ∧ account.journaledScope ≠ self.lifetime.scope)
    (journalSlotFirst resolved.storage row effect self) = mid at dirtied dirtiedPlaces
  have rows : SameSlotRows env self mid := journaled.trans dirtied
  have places : SamePlaces self mid := journaledPlaces.trans dirtiedPlaces
  have midHoused := places.housed housed
  have midTracks := tracks.kept (rows.keeps places)
  let change : StorageRow → StorageRow := fun row =>
    { row with
      flags := { row.flags with blockDirty := true }
      current := value
      storageIncarnation := account.storageIncarnation }
  generalize ending : setStorageEffect row.observation.index (fun _ => { written := true })
    (assignStorage resolved.storage (row.flags.blockDirty = false)
      (row.transactionUndo.transaction ≠ self.lifetime.transaction) value account.storageIncarnation
      mid) = last
  have accounts : ∀ address, last.accountAt env address = mid.accountAt env address := by
    intro address
    rw [← ending]
    exact accountAt_updateStorage resolved.storage change address
  have storage : ∀ address slot, last.storageAt env address slot =
      if mid.slotOf resolved.storage = some (address, slot) then
        change (mid.storageAt env address slot)
      else mid.storageAt env address slot := by
    intro address slot
    rw [← ending]
    exact storageAt_updateStorage midHoused resolved.storage change address slot
  have lifetime : last.lifetime = mid.lifetime := by
    rw [← ending]
    rfl
  have lastPlaces : SamePlaces mid last := by
    rw [← ending]
    exact (samePlaces_updateStorage resolved.storage change).congr rfl rfl
  have written : last.storageValue env address slot = value := by
    rw [storageValue, accounts, storage, if_pos midTracks.resolves.place, effectiveValue]
    have incarnation := rows.incarnation address
    rw [tracks.resolves.accountAt_eq accountHeld] at incarnation
    rw [incarnation]
    exact if_neg fun differs => differs rfl
  have elsewhere : ∀ other place, ¬Only address slot other place →
      last.storageAt env other place = mid.storageAt env other place := by
    intro other place free
    rw [storage, midTracks.resolves.place, if_neg]
    intro same
    cases same
    exact free ⟨rfl, rfl⟩
  have values : ∀ other place, ¬Only address slot other place →
      last.storageValue env other place = mid.storageValue env other place := by
    intro other place free
    rw [storageValue, storageValue, accounts, elsewhere other place free]
  have originals : ∀ other place,
      last.originalValue env other place = mid.originalValue env other place := by
    intro other place
    by_cases here : Only address slot other place
    · obtain ⟨rfl, rfl⟩ := here
      rw [originalValue, originalValue, accounts, storage, if_pos midTracks.resolves.place, lifetime]
      have settled : (mid.accountAt env other).flags.created = true ∨
          (mid.storageAt env other place).executionOriginalRoot = mid.lifetime.root := by
        rw [rows.created, rows.root, rows.lifetime]
        exact known.settled tracks.resolves
      rcases settled with created | root
      · rw [if_pos created, if_pos created]
      · have same : (change (mid.storageAt env other place)).executionOriginalRoot =
            mid.lifetime.root := root
        rw [if_pos same, if_pos root]
    · rw [originalValue, originalValue, accounts, elsewhere other place here, lifetime,
        values other place here]
  have before : KeepsSlots env Nowhere self mid := rows.keeps places
  have keeps : KeepsSlots env (Only address slot) self last :=
    (before.widen fun _ _ never => never.elim).trans
      ⟨values, originals, fun id _ key => (lastPlaces.accounts id).trans key,
        fun id _ key => (lastPlaces.storage id).trans key⟩
  exact ⟨lastPlaces.housed midHoused, keeps, tracks.resolves.kept keeps,
    (keeps.original address slot).trans tracks.original, written⟩

theorem writeResolvedStorage_slots (resolved : ResolvedStorage) (value : U256) :
    Keeps (slots env (Only address slot))
      (fun self => Tracks env resolved address slot original current self ∧
        OriginalKnown resolved self)
      (writeResolvedStorage env resolved value)
      fun _ => Tracks env resolved address slot original value := by
  unfold writeResolvedStorage
  refine Keeps.bind (accountRow_reads _) fun account => ?_
  refine Keeps.bind (storageRow_reads _) fun row => ?_
  refine Keeps.bind (Keeps.assert _) fun _ => Keeps.bind Keeps.get fun state => ?_
  let ready : WorldState → Prop := fun self =>
    self.world.accounts.row resolved.account = some account ∧
      self.world.storage.row resolved.storage = some row ∧ state.lifetime = self.lifetime ∧
      Tracks env resolved address slot original current self ∧ OriginalKnown resolved self
  have asks : ∀ (condition : Prop) [Decidable condition],
      Keeps (slots env (Only address slot)) ready (Action.when condition (reserve env))
        fun _ => ready := by
    intro condition _ self housed known
    obtain ⟨requests, ran⟩ := Asks.when condition (@Asks.reserve env) self
    have rows : SameSlotRows env self (asked requests self) := .of_world rfl rfl
    have keeps : KeepsSlots env Nowhere self (asked requests self) := rows.keeps (.of_world rfl)
    have wide := @KeepsSlots.widen env _ _ _ (Only address slot) keeps fun _ _ never => never.elim
    rcases ran with ran | ⟨error, ran⟩
    · rw [ran]
      exact ⟨housed, wide, known.1, known.2.1, known.2.2.1, known.2.2.2.1.kept keeps, known.2.2.2.2⟩
    · rw [ran]
      exact ⟨housed, wide⟩
  refine @Keeps.imp _ _ _ _ ready _ _ _ _ ?_ ?_ fun _ _ holds => holds
  · refine Keeps.bind (asks _) fun _ => Keeps.bind (asks _) fun _ => Keeps.bind (asks _) fun _ =>
      Keeps.bind (asks _) fun _ => ?_
    change Keeps _ _ (commitWrite resolved account row state.lifetime value) _
    rintro self housed ⟨accountHeld, held, lifetime, tracks, known⟩
    rw [lifetime]
    cases found : self.observedStorage[row.observation.index]? with
    | none =>
        rw [commitWrite_run_none held found]
        trivial
    | some observed =>
        rw [commitWrite_run held found]
        exact storeSlot_slots housed accountHeld tracks known observed.effect value
  · rintro self ⟨rfl, -, held, accountHeld, tracks, known⟩
    exact ⟨accountHeld, held, rfl, tracks, known⟩

theorem resolvedValue_tracks (resolved : ResolvedStorage) :
    Keeps (slots env touched) (Tracks env resolved address slot original current)
      (resolvedValue resolved) fun result self => result = current ∧
        Tracks env resolved address slot original current self := by
  refine (resolvedValue_reads resolved).weaken ?_
  rintro result after ⟨account, row, accountHeld, held, same, tracks⟩
  refine ⟨?_, tracks⟩
  rw [same, ← tracks.current, storageValue, tracks.resolves.accountAt_eq accountHeld,
    tracks.resolves.storageAt_eq held]

/-- A write reports how it moves the slot, and moves it. -/
theorem setResolvedStorage_slots (resolved : ResolvedStorage) (value : U256) :
    Keeps (slots env (Only address slot)) (Tracks env resolved address slot original current)
      (setResolvedStorage env resolved value) fun status self =>
        status = storageStatus original current value ∧
          Tracks env resolved address slot original value self := by
  unfold setResolvedStorage
  refine Keeps.bind (slots_widen (tracks_of_reading (observeStorage_assigned resolved _).safe))
    fun _ => ?_
  refine Keeps.bind (resolvedValue_tracks resolved) fun read => Keeps.assuming fun same => ?_
  subst same
  refine Keeps.bind (slots_widen (executionOriginal_slots resolved read)) fun baseline => ?_
  refine Keeps.assuming fun same => ?_
  subst same
  split
  · rename_i unchanged
    subst unchanged
    refine Keeps.returns ?_
    rintro status after ⟨rfl, tracks, -⟩
    exact ⟨(if_pos rfl).symm, tracks⟩
  · refine Keeps.bind (writeResolvedStorage_slots resolved value) fun _ => ?_
    refine Keeps.returns ?_
    rintro status after ⟨rfl, tracks⟩
    exact ⟨rfl, tracks⟩

end Writes

/-! ## Calls -/

/-- What the slot is measured against and what it holds, whether it has a row or not. -/
def Slot (env : Env) (address : Address) (slot : U256) (original current : U256) (self : WorldState) :
    Prop :=
  self.originalValue env address slot = original ∧ self.storageValue env address slot = current

section Calls

variable {original current : U256}

theorem requireStorage_tracks (address : Address) (slot : U256) :
    Keeps (slots env Nowhere) (Slot env address slot original current)
      (requireStorage env address slot) fun resolved =>
        Tracks env resolved address slot original current := by
  have kept := @slots_of_reading env _ Nowhere _ _ _ (requireStorage_assigned address slot)
  refine (Keeps.carry (fun before after keeps held => ?_) kept).imp (fun _ held => ⟨held, trivial⟩)
    fun resolved after holds => ⟨holds.2, holds.1.1, holds.1.2⟩
  exact ⟨(KeepsSlots.original keeps address slot).trans held.1,
    (KeepsSlots.value keeps address slot id).trans held.2⟩

theorem setStorage_slots (address : Address) (slot value : U256) :
    Keeps (slots env (Only address slot)) (Slot env address slot original current)
      (setStorage env address slot value) fun status self =>
        status = storageStatus original current value ∧ Slot env address slot original value self := by
  unfold setStorage
  refine Keeps.bind (slots_widen (requireStorage_tracks address slot)) fun resolved => ?_
  refine Keeps.bind (slots_widen (tracks_of_reading (observeAccount_safe_assigned _ _))) fun _ => ?_
  exact (setResolvedStorage_slots resolved value).weaken
    fun _ _ ends => ⟨ends.1, ends.2.original, ends.2.current⟩

theorem storeStorage_slots (address : Address) (slot value : U256) :
    Keeps (slots env (Only address slot)) (Slot env address slot original current)
      (storeStorage env address slot value) fun result self =>
        result.1 = storageStatus original current value ∧
          Slot env address slot original value self := by
  unfold storeStorage
  refine Keeps.bind (slots_widen (requireStorage_tracks address slot)) fun resolved => ?_
  refine Keeps.bind (slots_widen (tracks_of_reading (observeAccount_safe_assigned _ _))) fun _ => ?_
  refine Keeps.bind (slots_widen (tracks_of_changes (accessResolvedStorage_changes _))) fun access => ?_
  refine Keeps.bind (setResolvedStorage_slots resolved value) fun status => ?_
  refine Keeps.returns ?_
  rintro _ after ⟨rfl, same, tracks⟩
  exact ⟨same, tracks.original, tracks.current⟩

theorem readResolvedStorage_tracks (resolved : ResolvedStorage) :
    Keeps (slots env Nowhere) (Tracks env resolved address slot original current)
      (readResolvedStorage env resolved) fun result self => result = current ∧
        Tracks env resolved address slot original current self := by
  unfold readResolvedStorage
  exact Keeps.bind (tracks_of_reading (observeStorage_assigned resolved _).safe) fun _ =>
    resolvedValue_tracks resolved

theorem getStorage_slots (address : Address) (slot : U256) :
    Keeps (slots env Nowhere) (Slot env address slot original current)
      (getStorage env address slot) fun result self => result = current ∧
        Slot env address slot original current self := by
  unfold getStorage
  refine Keeps.bind (requireStorage_tracks address slot) fun resolved => ?_
  refine Keeps.bind (tracks_of_reading isAttemptOpen_looks.safe) fun isOpen => ?_
  split
  · exact (resolvedValue_tracks resolved).weaken
      fun _ _ ends => ⟨ends.1, ends.2.original, ends.2.current⟩
  · refine Keeps.bind (tracks_of_reading (observeAccount_safe_assigned _ _)) fun _ => ?_
    exact (readResolvedStorage_tracks resolved).weaken
      fun _ _ ends => ⟨ends.1, ends.2.original, ends.2.current⟩

theorem loadStorage_slots (address : Address) (slot : U256) :
    Keeps (slots env Nowhere) (Slot env address slot original current)
      (loadStorage env address slot) fun result self => result.1 = current ∧
        Slot env address slot original current self := by
  unfold loadStorage
  refine Keeps.bind (requireStorage_tracks address slot) fun resolved => ?_
  refine Keeps.bind (tracks_of_reading (observeAccount_safe_assigned _ _)) fun _ => ?_
  refine Keeps.bind (tracks_of_changes (accessResolvedStorage_changes _)) fun access => ?_
  refine Keeps.bind (readResolvedStorage_tracks resolved) fun value => ?_
  refine Keeps.returns ?_
  rintro _ after ⟨rfl, same, tracks⟩
  exact ⟨same, tracks.original, tracks.current⟩

end Calls

end WorldState

end EvmZig.State
