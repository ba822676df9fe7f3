import EvmZig.State.Aged

/-!
# The books of an attempt

An attempt keeps a record of every account it observes, an entry for every row
it may have to give back, and stamps on the rows.  What those show of the
accounts is kept by every change and by every entry undone.
-/

set_option autoImplicit false

namespace EvmZig.State

open Lib Zig

/-- What the books read of an account row. -/
structure AccountFace where
  current : Option Account
  journaledScope : Generation
  observation : ObservationHandle
  dirtyTransaction : Generation

def AccountRow.face (row : AccountRow) : AccountFace :=
  ⟨row.current, row.journaledScope, row.observation, row.dirtyTransaction⟩

/-- The face an entry gives back. -/
def AccountUndo.face (undo : AccountUndo) (observation : ObservationHandle) : AccountFace :=
  ⟨undo.current, undo.journaledScope, observation, undo.dirtyTransaction⟩

/-- What the books read of an observation record. -/
structure AccountRecord where
  account : AccountId
  original : Option Account
  effect : AccountEffect

def AccountRecord.affected (update : AccountEffect → AccountEffect) (record : AccountRecord) :
    AccountRecord :=
  { record with effect := update record.effect }

def AccountObservationRow.record (observed : AccountObservationRow) : AccountRecord :=
  ⟨observed.account, observed.original, observed.effect⟩

namespace WorldState

variable {env : Env} {licence : Licence} {self after : WorldState}

def records (self : WorldState) : List AccountRecord :=
  self.observedAccounts.map AccountObservationRow.record

theorem records_setAccountEffect (index : Nat) (update : AccountEffect → AccountEffect) :
    (setAccountEffect index update self).records =
      self.records.modify index (AccountRecord.affected update) := by
  apply List.ext_getElem?
  intro other
  simp only [records, setAccountEffect, List.getElem?_map, List.getElem?_modify]
  split
  · cases self.observedAccounts[other]? <;> rfl
  · cases self.observedAccounts[other]? <;> rfl

theorem records_mergeAccountObservation (index : Nat) (observation : AccountObservation) :
    (mergeAccountObservation index observation self).records = self.records := by
  apply List.ext_getElem?
  intro other
  simp only [records, mergeAccountObservation, List.getElem?_map, List.getElem?_modify]
  split
  · cases self.observedAccounts[other]? <;> rfl
  · cases self.observedAccounts[other]? <;> rfl

theorem records_of_observed {index : Nat} {observed : AccountObservationRow}
    (found : self.observedAccounts[index]? = some observed) :
    self.records[index]? = some observed.record := by
  rw [records, List.getElem?_map, found]
  rfl

theorem affected_of_modify {records : List AccountRecord} {index other : Nat}
    {update : AccountEffect → AccountEffect} {record : AccountRecord}
    (found : (records.modify index (AccountRecord.affected update))[other]? = some record) :
    ∃ old, records[other]? = some old ∧ record = if other = index then old.affected update else old := by
  rw [List.getElem?_modify] at found
  obtain ⟨old, here, rfl⟩ := Option.map_eq_some_iff.mp found
  refine ⟨old, here, ?_⟩
  by_cases same : index = other
  · rw [if_pos same, if_pos same.symm]
  · rw [if_neg same, if_neg fun equal => same equal.symm]

/-! ## Kinds of steps -/

/-- Rows keep their faces, records and changes stay, and only entries of other kinds are made. -/
structure SameFaces (env : Env) (before after : WorldState) : Prop where
  key : ∀ id address, before.world.accounts.key id = some address →
    after.world.accounts.key id = some address
  kept : ∀ id row, before.world.accounts.row id = some row →
    ∃ row', after.world.accounts.row id = some row' ∧ row'.face = row.face
  row : ∀ id row', after.world.accounts.row id = some row' →
    (∃ row, before.world.accounts.row id = some row ∧ row'.face = row.face) ∨
    ∃ address, before.world.accounts.find address = none ∧
      after.world.accounts.key id = some address ∧ row' = .admitted (env.parentAccount address)
  records : after.records = before.records
  changed : after.changedAccounts = before.changedAccounts
  journal : ∃ newer, after.journal = newer ++ before.journal ∧ ∀ undo, Entry.account undo ∉ newer

/-- One row shows another face. -/
structure Recast (before after : WorldState) (id : AccountId) (row : AccountRow) (face : AccountFace) :
    Prop where
  held : before.world.accounts.row id = some row
  set : ∃ row', after.world.accounts = before.world.accounts.set id row' ∧ row'.face = face

/-- What a write makes of the value and of the effect recorded for it. -/
inductive Writes (licence : Licence) (previous : Option Account) :
    Option Account → (AccountEffect → AccountEffect) → Prop
  | wrote (value : Option Account) (allowed : value.isSome ∨ licence = .finalization) :
      Writes licence previous value (recordAccountEffect previous value)
  | touched : Writes licence previous (some (previous.getD {})) id
  | marked {update : AccountEffect → AccountEffect}
      (balance : ∀ effect, (update effect).balanceWritten = effect.balanceWritten)
      (nonce : ∀ effect, (update effect).nonceWritten = effect.nonceWritten)
      (code : ∀ effect, (update effect).codeWritten = effect.codeWritten)
      (deleted : ∀ effect, (update effect).accountDeleted = effect.accountDeleted) :
      Writes licence previous previous update

/-- What a change does to the books. -/
inductive Booked (env : Env) (licence : Licence) (self after : WorldState) : Prop
  | aside (quiet : SameFaces env self after)
  | observed {id : AccountId} {row : AccountRow}
      (recast : Recast self after id row { row.face with
        observation := ⟨self.lifetime.transaction, self.records.length⟩ })
      (first : row.observation.transaction ≠ self.lifetime.transaction)
      (records : after.records = self.records ++ [⟨id, row.current, {}⟩])
      (changed : after.changedAccounts = self.changedAccounts) (journal : after.journal = self.journal)
  | journaled {id : AccountId} {row : AccountRow} {record : AccountRecord}
      (recast : Recast self after id row { row.face with journaledScope := self.lifetime.scope })
      (current : row.observation.transaction = self.lifetime.transaction)
      (found : self.records[row.observation.index]? = some record)
      (records : after.records = self.records) (changed : after.changedAccounts = self.changedAccounts)
      (journal : after.journal = .account (accountUndo id row record.effect) :: self.journal)
  | dirtied {id : AccountId} {row : AccountRow}
      (recast : Recast self after id row { row.face with
        dirtyTransaction := self.lifetime.transaction })
      (current : row.observation.transaction = self.lifetime.transaction)
      (covered : row.journaledScope = self.lifetime.scope)
      (records : after.records = self.records)
      (changed : after.changedAccounts = self.changedAccounts ++ [id])
      (journal : after.journal = self.journal)
  | wrote {id : AccountId} {row : AccountRow} {value : Option Account}
      {update : AccountEffect → AccountEffect}
      (recast : Recast self after id row { row.face with current := value })
      (ready : Ready row self.lifetime) (writes : Writes licence row.current value update)
      (records : after.records =
        self.records.modify row.observation.index (AccountRecord.affected update))
      (changed : after.changedAccounts = self.changedAccounts) (journal : after.journal = self.journal)

namespace Recast

variable {id : AccountId} {row : AccountRow} {face : AccountFace}

theorem updated (held : self.world.accounts.row id = some row) {update : AccountRow → AccountRow}
    (accounts : after.world.accounts = (self.updateAccount id update).world.accounts)
    (shows : (update row).face = face) : Recast self after id row face :=
  ⟨held, update row, accounts.trans (accounts_updateAccount held update), shows⟩

theorem key_eq (recast : Recast self after id row face) (other : AccountId) :
    after.world.accounts.key other = self.world.accounts.key other := by
  obtain ⟨row', accounts, -⟩ := recast.set
  rw [accounts, Table.key_set]

theorem find_eq (recast : Recast self after id row face) (address : Address) :
    after.world.accounts.find address = self.world.accounts.find address := by
  obtain ⟨row', accounts, -⟩ := recast.set
  rw [accounts, Table.find_set]

theorem here (recast : Recast self after id row face) :
    ∃ row', after.world.accounts.row id = some row' ∧ row'.face = face := by
  obtain ⟨row', accounts, same⟩ := recast.set
  obtain ⟨address, key⟩ := Table.key_eq_some_of_row recast.held
  refine ⟨row', ?_, same⟩
  rw [accounts, Table.row_set_same key]

theorem elsewhere (recast : Recast self after id row face) {other : AccountId} (differs : other ≠ id) :
    after.world.accounts.row other = self.world.accounts.row other := by
  obtain ⟨row', accounts, -⟩ := recast.set
  rw [accounts, Table.row_set_other _ differs]

theorem row_cases (recast : Recast self after id row face) {other : AccountId} {row' : AccountRow}
    (found : after.world.accounts.row other = some row') :
    other = id ∧ row'.face = face ∨ other ≠ id ∧ self.world.accounts.row other = some row' := by
  by_cases same : other = id
  · subst same
    obtain ⟨updated, held, shows⟩ := recast.here
    rw [held] at found
    cases found
    exact .inl ⟨rfl, shows⟩
  · rw [recast.elsewhere same] at found
    exact .inr ⟨same, found⟩

end Recast

namespace SameFaces

/-- The accounts stay as they are. -/
theorem same (accounts : after.world.accounts = self.world.accounts)
    (records : after.records = self.records)
    (changed : after.changedAccounts = self.changedAccounts) (newer : Journal)
    (journal : after.journal = newer ++ self.journal) (others : ∀ undo, Entry.account undo ∉ newer) :
    SameFaces env self after := by
  refine ⟨fun id address key => ?_, fun id row held => ⟨row, ?_, rfl⟩, fun id row held => ?_, records,
    changed, newer, journal, others⟩
  · rwa [accounts]
  · rwa [accounts]
  · rw [accounts] at held
    exact .inl ⟨row, held, rfl⟩

/-- A row is updated, and its face stays. -/
theorem updated {id : AccountId} {update : AccountRow → AccountRow}
    (accounts : after.world.accounts = (self.updateAccount id update).world.accounts)
    (face : ∀ row, (update row).face = row.face) (records : after.records = self.records)
    (changed : after.changedAccounts = self.changedAccounts) (newer : Journal)
    (journal : after.journal = newer ++ self.journal) (others : ∀ undo, Entry.account undo ∉ newer) :
    SameFaces env self after := by
  refine ⟨fun other address key => ?_, fun other row held => ?_, fun other row held => ?_, records,
    changed, newer, journal, others⟩
  · rw [accounts, key_updateAccount, key]
  · rw [accounts]
    cases found : self.world.accounts.row id with
    | none =>
        rw [updateAccount, World.updateAccount, found]
        exact ⟨row, held, rfl⟩
    | some old =>
        rw [accounts_updateAccount found]
        by_cases here : other = id
        · subst here
          obtain ⟨address, key⟩ := Table.key_eq_some_of_row found
          rw [found] at held
          cases held
          exact ⟨_, Table.row_set_same key _, face _⟩
        · exact ⟨row, (Table.row_set_other _ here _).trans held, rfl⟩
  · rw [accounts] at held
    obtain ⟨old, found, rfl | rfl⟩ := row_of_updateAccount held
    · exact .inl ⟨_, found, rfl⟩
    · exact .inl ⟨old, found, face old⟩

theorem admitted (address : Address) (fresh : self.world.accounts.find address = none) :
    SameFaces env self (self.withAccounts
      (self.world.accounts.admitRow address (.admitted (env.parentAccount address)) fresh)) := by
  refine ⟨fun id other key => Table.key_admitRow fresh key, fun id row held => ⟨row, ?_, rfl⟩,
    fun id row held => ?_, rfl, rfl, [], rfl, fun _ member => nomatch member⟩
  · exact Table.row_admitRow fresh held
  · by_cases last : id = self.world.accounts.count
    · refine .inr ⟨address, fresh, ?_, ?_⟩
      · rw [last]
        exact Table.key_admit_last _ _ _ fresh
      · rw [last] at held
        exact Option.some.inj (held.symm.trans (Table.row_admit_last _ _ _ fresh))
    · exact .inl ⟨row, (Table.row_admit_other fresh _ last).symm.trans held, rfl⟩

end SameFaces

/-! ## Changes -/

theorem storeSlot_sameFaces {resolved : ResolvedStorage} {account : AccountRow} {row : StorageRow}
    (effect : StorageEffect) (value : U256) :
    SameFaces env self (storeSlot resolved account row effect value self) := by
  have dirtied : ∀ (state : WorldState) (needsUndo : Bool) (newer : Journal),
      state.world.accounts = self.world.accounts → state.records = self.records →
      state.changedAccounts = self.changedAccounts → state.journal = newer ++ self.journal →
      (∀ undo, Entry.account undo ∉ newer) →
      SameFaces env self (markStorageDirty resolved.account needsUndo state) := by
    intro state needsUndo newer accounts records changed journal others
    have moved : (state.updateAccount resolved.account fun row =>
        { row with flags := { row.flags with storageDirty := true } }).world.accounts =
        (self.updateAccount resolved.account fun row =>
          { row with flags := { row.flags with storageDirty := true } }).world.accounts := by
      rw [updateAccount, updateAccount, World.updateAccount, World.updateAccount, accounts]
      split
      · rfl
      · exact accounts
    unfold markStorageDirty
    split
    · refine SameFaces.updated moved (fun _ => rfl) records changed
        (.accountStorageDirty resolved.account :: newer) ?_ fun undo member => ?_
      · exact congrArg (_ :: ·) journal
      · rcases List.mem_cons.mp member with same | older
        · cases same
        · exact others undo older
    · exact SameFaces.updated moved (fun _ => rfl) records changed newer journal others
  have stored : ∀ state : WorldState, SameFaces env self state →
      SameFaces env self (setStorageEffect row.observation.index (fun _ => { written := true })
        (assignStorage resolved.storage (row.flags.blockDirty = false)
          (row.transactionUndo.transaction ≠ self.lifetime.transaction) value
          account.storageIncarnation state)) := by
    intro state same
    have accounts : (state.updateStorage resolved.storage fun row =>
        { row with
          flags := { row.flags with blockDirty := true }
          current := value
          storageIncarnation := account.storageIncarnation }).world.accounts = state.world.accounts :=
      accounts_updateStorage ..
    obtain ⟨key, kept, found, records, changed, journal⟩ := same
    refine ⟨fun id address held => ?_, fun id row held => ?_, fun id row held => ?_, records, changed,
      journal⟩
    · exact (congrArg (Table.key · id) accounts).trans (key id address held)
    · obtain ⟨row', held', shows⟩ := kept id row held
      exact ⟨row', (congrArg (Table.row · id) accounts).trans held', shows⟩
    · have before := (congrArg (Table.row · id) accounts).symm.trans held
      rcases found id row before with old | ⟨address, fresh, key, admitted⟩
      · exact .inl old
      · exact .inr ⟨address, fresh, (congrArg (Table.key · id) accounts).trans key, admitted⟩
  unfold storeSlot
  apply stored
  unfold journalSlotFirst
  split
  · refine dirtied _ _ [.storage (storageUndo resolved.storage row effect)] ?_ rfl rfl rfl ?_
    · exact accounts_updateStorage ..
    · intro undo member
      cases List.mem_singleton.mp member
  · exact dirtied _ _ [] rfl rfl rfl rfl fun _ => List.not_mem_nil

/-- What each assignment does to the books. -/
theorem Assignment.booked (step : Assignment env licence self after) :
    Booked env licence self after := by
  have none : ∀ undo : AccountUndo, Entry.account undo ∉ ([] : Journal) := fun _ member => nomatch member
  cases step with
  | admittedAccount address fresh => exact .aside (.admitted address fresh)
  | admittedSlot => exact .aside (.same rfl rfl rfl [] rfl none)
  | boundCode => exact .aside (.updated rfl (fun _ => rfl) rfl rfl [] rfl none)
  | mergedAccount index observation =>
      exact .aside (.same rfl (records_mergeAccountObservation ..) rfl [] rfl none)
  | observedAccount held running first observation =>
      refine .observed (.updated held rfl ?_) first ?_ rfl rfl
      · exact congrArg (fun length => AccountFace.mk _ _ ⟨_, length⟩ _) (List.length_map ..).symm
      · exact List.map_append ..
  | observedSlot =>
      exact .aside (.same (accounts_updateStorage ..) rfl rfl [] rfl none)
  | journaled held running current found needed =>
      exact .journaled (.updated held rfl rfl) current (records_of_observed found) rfl rfl rfl
  | blockChanged => exact .aside (.updated rfl (fun _ => rfl) rfl rfl [] rfl none)
  | transactionDirty held running current journaled first =>
      exact .dirtied (.updated held rfl rfl) current journaled rfl rfl rfl
  | wrote assignable found value allowed ref =>
      exact .wrote (.updated assignable.held rfl rfl) assignable.ready (.wrote value allowed)
        (records_setAccountEffect ..) rfl rfl
  | touched assignable first =>
      refine .wrote (.updated assignable.held rfl rfl) assignable.ready .touched ?_ rfl rfl
      exact (List.modify_id ..).symm
  | wiped => exact .aside (.updated rfl (fun _ => rfl) rfl rfl [] rfl none)
  | enlisted => exact .aside (.updated rfl (fun _ => rfl) rfl rfl [] rfl none)
  | created assignable found =>
      refine .wrote (.updated assignable.held rfl rfl) assignable.ready ?_
        (records_setAccountEffect ..) rfl rfl
      exact .marked (fun _ => rfl) (fun _ => rfl) (fun _ => rfl) fun _ => rfl
  | selfdestructed assignable found =>
      refine .wrote (.updated assignable.held rfl rfl) assignable.ready ?_
        (records_setAccountEffect ..) rfl rfl
      exact .marked (fun _ => rfl) (fun _ => rfl) (fun _ => rfl) fun _ => rfl
  | wipeRecorded final assignable found =>
      refine .wrote ⟨assignable.held, _, (Table.set_row_self assignable.held).symm, rfl⟩
        assignable.ready ?_ (records_setAccountEffect ..) rfl rfl
      exact .marked (fun _ => rfl) (fun _ => rfl) (fun _ => rfl) fun _ => rfl
  | settledCreation => exact .aside (.updated rfl (fun _ => rfl) rfl rfl [] rfl none)
  | settledDestruction => exact .aside (.updated rfl (fun _ => rfl) rfl rfl [] rfl none)
  | introduced running introduced =>
      exact .aside (.same rfl rfl rfl [.introducedCode] rfl fun _ member =>
        nomatch List.mem_singleton.mp member)
  | cachedOriginal =>
      exact .aside (.same (accounts_updateStorage ..) rfl rfl [] rfl none)
  | wroteSlot storable found value => exact .aside (storeSlot_sameFaces _ value)
  | _ => exact .aside (.same rfl rfl rfl [] rfl none)

theorem Change.booked (step : Change env licence self after) : Booked env licence self after := by
  have one : ∀ {entry : Entry}, (∀ undo, entry ≠ .account undo) →
      ∀ undo : AccountUndo, Entry.account undo ∉ [entry] := by
    intro entry other undo member
    exact other undo (List.mem_singleton.mp member).symm
  cases step with
  | assigned step => exact step.booked
  | warmedAccount held running cold =>
      exact .aside (.updated rfl (fun _ => rfl) rfl rfl [_] rfl (one fun _ same => nomatch same))
  | warmedSlot held running cold =>
      exact .aside (.same (accounts_updateStorage ..) rfl rfl [_] rfl
        (one fun _ same => nomatch same))
  | deferredAccount grows running cold found =>
      exact .aside (.same rfl rfl rfl [_] rfl (one fun _ same => nomatch same))
  | deferredSlot grows running cold found =>
      exact .aside (.same rfl rfl rfl [_] rfl (one fun _ same => nomatch same))

/-! ## Entries undone -/

/-- What undoing an entry does to the books. -/
inductive Unbooked (env : Env) (self after : WorldState) (entry : Entry) : Prop
  | aside (others : ∀ undo, entry ≠ .account undo) (quiet : SameFaces env self after)
  | gaveBack {undo : AccountUndo} {row : AccountRow} (same : entry = .account undo)
      (recast : Recast self after undo.account row (undo.face row.observation))
      (records : after.records = self.records.modify row.observation.index
        (AccountRecord.affected fun _ => undo.effect))
      (changed : after.changedAccounts = self.changedAccounts)

theorem Undone.booked {entry : Entry} (undone : Undone self entry after) :
    Unbooked env self after entry := by
  have none : ∀ undo : AccountUndo, Entry.account undo ∉ ([] : Journal) := fun _ member => nomatch member
  cases undone with
  | account held =>
      exact .gaveBack rfl (.updated held rfl rfl) (records_setAccountEffect ..) rfl
  | storage undo index =>
      exact .aside (fun _ same => nomatch same)
        (.same (accounts_updateStorage ..) rfl rfl [] rfl none)
  | accountStorageDirty id =>
      exact .aside (fun _ same => nomatch same)
        (.updated rfl (fun _ => rfl) rfl rfl [] rfl none)
  | warmAccount id =>
      exact .aside (fun _ same => nomatch same)
        (.updated rfl (fun _ => rfl) rfl rfl [] rfl none)
  | warmStorage id =>
      exact .aside (fun _ same => nomatch same)
        (.same (accounts_updateStorage ..) rfl rfl [] rfl none)
  | _ =>
      exact .aside (fun _ same => nomatch same) (.same rfl rfl rfl [] rfl none)


/-! ## What the books say -/

/-- Only a row that the attempt changed differs from `start`, and only observed rows are changed. -/
structure Fits (transaction : Generation) (start : Option Account) (face : AccountFace) : Prop where
  clean : face.dirtyTransaction ≠ transaction → face.current = start
  seen : face.dirtyTransaction = transaction → face.observation.transaction = transaction
  early : face.observation.transaction ≠ transaction → face.journaledScope < transaction

/-- The books agree with the accounts as they were when the attempt began. -/
structure Books (env : Env) (start : Address → Option Account) (state : WorldState) : Prop where
  begun : 0 < state.lifetime.transaction
  handle : ∀ id row, state.world.accounts.row id = some row →
    row.observation.transaction = state.lifetime.transaction →
    ∃ record, state.records[row.observation.index]? = some record ∧ record.account = id
  record : ∀ index record, state.records[index]? = some record → ∃ row address,
    state.world.accounts.row record.account = some row ∧
    state.world.accounts.key record.account = some address ∧
    row.observation = ⟨state.lifetime.transaction, index⟩ ∧ record.original = start address
  entry : ∀ undo, Entry.account undo ∈ state.journal → ∃ row address,
    state.world.accounts.row undo.account = some row ∧
    state.world.accounts.key undo.account = some address ∧
    row.observation.transaction = state.lifetime.transaction ∧
    Fits state.lifetime.transaction (start address) (undo.face row.observation)
  row : ∀ id row address, state.world.accounts.row id = some row →
    state.world.accounts.key id = some address →
    Fits state.lifetime.transaction (start address) row.face
  missing : ∀ address, state.world.accounts.find address = none →
    start address = env.parentAccount address

namespace Books

variable {start : Address → Option Account}

/-- The same rows, records and entries. -/
theorem same (books : Books env start self) (world : after.world.accounts = self.world.accounts)
    (records : after.records = self.records)
    (journal : ∀ undo, Entry.account undo ∈ after.journal → Entry.account undo ∈ self.journal)
    (transaction : after.lifetime.transaction = self.lifetime.transaction) : Books env start after := by
  obtain ⟨begun, handle, record, entry, row, missing⟩ := books
  rw [← world] at handle record entry row missing
  rw [← transaction] at begun handle record entry row
  rw [← records] at handle record
  exact ⟨begun, handle, record, fun undo member => entry undo (journal undo member), row, missing⟩

/-- An observed row has one record. -/
theorem record_of_row (books : Books env start self) {index : Nat} {record : AccountRecord}
    (found : self.records[index]? = some record) {row : AccountRow}
    (held : self.world.accounts.row record.account = some row) :
    row.observation = ⟨self.lifetime.transaction, index⟩ := by
  obtain ⟨other, -, otherHeld, -, observation, -⟩ := books.record index record found
  cases otherHeld.symm.trans held
  exact observation

theorem sameFaces (books : Books env start self) (quiet : SameFaces env self after)
    (transaction : after.lifetime.transaction = self.lifetime.transaction) : Books env start after := by
  have fits : ∀ id row address, after.world.accounts.row id = some row →
      after.world.accounts.key id = some address →
      Fits after.lifetime.transaction (start address) row.face := by
    intro id row address held key
    rw [transaction]
    rcases quiet.row id row held with ⟨old, before, shows⟩ | ⟨other, fresh, otherKey, rfl⟩
    · obtain ⟨place, placeKey⟩ := Table.key_eq_some_of_row before
      cases (quiet.key id place placeKey).symm.trans key
      rw [shows]
      exact books.row id old _ before placeKey
    · cases otherKey.symm.trans key
      have apart : (0 : Generation) ≠ self.lifetime.transaction := Nat.ne_of_lt books.begun
      exact ⟨fun _ => (books.missing address fresh).symm, fun same => absurd same apart,
        fun _ => books.begun⟩
  refine ⟨transaction ▸ books.begun, fun id row held current => ?_, fun index record found => ?_,
    fun undo member => ?_, fits, fun address fresh => ?_⟩
  · rw [quiet.records]
    rcases quiet.row id row held with ⟨old, before, shows⟩ | ⟨other, fresh, otherKey, rfl⟩
    · have observation : row.observation = old.observation := congrArg AccountFace.observation shows
      rw [observation] at current ⊢
      exact books.handle id old before (current.trans transaction)
    · rw [transaction] at current
      exact absurd current (Nat.ne_of_lt books.begun)
  · rw [quiet.records] at found
    obtain ⟨old, address, before, key, observation, original⟩ := books.record index record found
    obtain ⟨row, held, shows⟩ := quiet.kept _ old before
    refine ⟨row, address, held, quiet.key _ _ key, ?_, original⟩
    rw [transaction]
    exact (congrArg AccountFace.observation shows).trans observation
  · obtain ⟨newer, journal, others⟩ := quiet.journal
    rw [journal] at member
    have older := (List.mem_append.mp member).resolve_left (others undo)
    obtain ⟨old, address, before, key, current, fits⟩ := books.entry undo older
    obtain ⟨row, held, shows⟩ := quiet.kept _ old before
    have observation : row.observation = old.observation := congrArg AccountFace.observation shows
    refine ⟨row, address, held, quiet.key _ _ key, ?_, ?_⟩
    · rw [observation, transaction]
      exact current
    · rw [observation, transaction]
      exact fits
  · apply books.missing
    cases found : self.world.accounts.find address with
    | none => rfl
    | some id =>
        have kept := Table.find_eq_some.mpr (quiet.key id address (Table.find_eq_some.mp found))
        rw [fresh] at kept
        cases kept

/-- A row shows another face under the same handle. -/
theorem recast (books : Books env start self) {id : AccountId} {row : AccountRow} {face : AccountFace}
    (recast : Recast self after id row face) (observation : face.observation = row.observation)
    (fits : ∀ address, self.world.accounts.key id = some address →
      Fits self.lifetime.transaction (start address) face)
    (records : ∀ (index : Nat) (record : AccountRecord), after.records[index]? = some record →
      ∃ old : AccountRecord, self.records[index]? = some old ∧ record.account = old.account ∧
        record.original = old.original)
    (length : after.records.length = self.records.length)
    (entry : ∀ undo, Entry.account undo ∈ after.journal → Entry.account undo ∈ self.journal ∨
      undo.account = id ∧ row.observation.transaction = self.lifetime.transaction ∧
        undo.face row.observation = row.face)
    (transaction : after.lifetime.transaction = self.lifetime.transaction) : Books env start after := by
  have rows : ∀ other row', after.world.accounts.row other = some row' →
      ∃ old, self.world.accounts.row other = some old ∧ row'.observation = old.observation := by
    intro other row' held
    rcases recast.row_cases held with ⟨rfl, shows⟩ | ⟨-, before⟩
    · refine ⟨row, recast.held, ?_⟩
      have same : row'.observation = face.observation := congrArg AccountFace.observation shows
      exact same.trans observation
    · exact ⟨row', before, rfl⟩
  have kept : ∀ other old, self.world.accounts.row other = some old →
      ∃ row', after.world.accounts.row other = some row' ∧ row'.observation = old.observation := by
    intro other old held
    by_cases here : other = id
    · subst here
      obtain ⟨row', held', shows⟩ := recast.here
      cases recast.held.symm.trans held
      have same : row'.observation = face.observation := congrArg AccountFace.observation shows
      exact ⟨row', held', same.trans observation⟩
    · exact ⟨old, (recast.elsewhere here).trans held, rfl⟩
  refine ⟨transaction ▸ books.begun, fun other row' held current => ?_, fun index record found => ?_,
    fun undo member => ?_, fun other row' address held key => ?_, fun address fresh => ?_⟩
  · obtain ⟨old, before, same⟩ := rows other row' held
    rw [same] at current ⊢
    obtain ⟨record, found, account⟩ := books.handle other old before (current.trans transaction)
    obtain ⟨inside, -⟩ := List.getElem?_eq_some_iff.mp found
    rw [← length] at inside
    have stays := List.getElem?_eq_getElem inside
    obtain ⟨older, olderFound, sameAccount, -⟩ := records _ _ stays
    cases found.symm.trans olderFound
    exact ⟨_, stays, sameAccount.trans account⟩
  · obtain ⟨old, before, account, original⟩ := records index record found
    obtain ⟨oldRow, address, held, key, observed, value⟩ := books.record index old before
    obtain ⟨row', held', same⟩ := kept _ oldRow held
    rw [account, original, transaction, recast.key_eq]
    exact ⟨row', address, held', key, same.trans observed, value⟩
  · rw [transaction]
    rcases entry undo member with older | ⟨rfl, current, shows⟩
    · obtain ⟨old, address, held, key, current, fits⟩ := books.entry undo older
      obtain ⟨row', held', same⟩ := kept _ old held
      refine ⟨row', address, held', (recast.key_eq _).trans key, ?_, ?_⟩
      · rw [same]
        exact current
      · rw [same]
        exact fits
    · obtain ⟨address, key⟩ := Table.key_eq_some_of_row recast.held
      obtain ⟨row', held', same⟩ := kept _ row recast.held
      refine ⟨row', address, held', (recast.key_eq _).trans key, ?_, ?_⟩
      · rw [same]
        exact current
      · rw [same, shows]
        exact books.row _ row address recast.held key
  · rw [transaction]
    rw [recast.key_eq] at key
    rcases recast.row_cases held with ⟨rfl, shows⟩ | ⟨-, before⟩
    · rw [shows]
      exact fits address key
    · exact books.row other row' address before key
  · rw [recast.find_eq] at fresh
    exact books.missing address fresh

theorem observed (books : Books env start self) {id : AccountId} {row : AccountRow}
    (recast : Recast self after id row { row.face with
      observation := ⟨self.lifetime.transaction, self.records.length⟩ })
    (first : row.observation.transaction ≠ self.lifetime.transaction)
    (records : after.records = self.records ++ [⟨id, row.current, {}⟩])
    (journal : after.journal = self.journal)
    (transaction : after.lifetime.transaction = self.lifetime.transaction) : Books env start after := by
  have apart : ∀ {other : AccountId} {old : AccountRow}, self.world.accounts.row other = some old →
      old.observation.transaction = self.lifetime.transaction → other ≠ id := by
    rintro other old held current rfl
    cases held.symm.trans recast.held
    exact first current
  have here : ∀ address, self.world.accounts.key id = some address →
      Fits self.lifetime.transaction (start address) row.face := fun address key =>
    books.row id row address recast.held key
  refine ⟨transaction ▸ books.begun, fun other row' held current => ?_, fun index record found => ?_,
    fun undo member => ?_, fun other row' address held key => ?_, fun address fresh => ?_⟩
  · rw [records]
    rcases recast.row_cases held with ⟨rfl, shows⟩ | ⟨-, before⟩
    · have handle : row'.observation = ⟨self.lifetime.transaction, self.records.length⟩ :=
        congrArg AccountFace.observation shows
      refine ⟨⟨other, row.current, {}⟩, ?_, rfl⟩
      rw [handle]
      exact List.getElem?_concat_length
    · obtain ⟨record, found, account⟩ := books.handle other row' before (current.trans transaction)
      refine ⟨record, ?_, account⟩
      obtain ⟨inside, -⟩ := List.getElem?_eq_some_iff.mp found
      rw [List.getElem?_append_left inside]
      exact found
  · rw [records] at found
    rw [transaction]
    by_cases inside : index < self.records.length
    · rw [List.getElem?_append_left inside] at found
      obtain ⟨old, address, held, key, observation, original⟩ := books.record index record found
      have other := apart held (congrArg ObservationHandle.transaction observation)
      exact ⟨old, address, (recast.elsewhere other).trans held, (recast.key_eq _).trans key, observation,
        original⟩
    · rw [List.getElem?_append_right (Nat.le_of_not_lt inside)] at found
      obtain ⟨last, rfl⟩ := List.getElem?_eq_some_iff.mp found
      rw [List.length_singleton, Nat.lt_one_iff] at last
      obtain ⟨address, key⟩ := Table.key_eq_some_of_row recast.held
      obtain ⟨row', held, shows⟩ := recast.here
      have length : index = self.records.length :=
        Nat.le_antisymm (Nat.sub_eq_zero_iff_le.mp last) (Nat.le_of_not_lt inside)
      simp only [last, List.getElem_cons_zero]
      refine ⟨row', address, held, (recast.key_eq _).trans key, ?_, ?_⟩
      · rw [length]
        exact congrArg AccountFace.observation shows
      · exact (here address key).clean fun dirty => first ((here address key).seen dirty)
  · rw [journal] at member
    obtain ⟨old, address, held, key, current, fits⟩ := books.entry undo member
    rw [transaction]
    exact ⟨old, address, (recast.elsewhere (apart held current)).trans held,
      (recast.key_eq _).trans key, current, fits⟩
  · rw [transaction]
    rw [recast.key_eq] at key
    rcases recast.row_cases held with ⟨rfl, shows⟩ | ⟨-, before⟩
    · rw [shows]
      exact ⟨(here address key).clean, fun _ => rfl, fun unseen => absurd rfl unseen⟩
    · exact books.row other row' address before key
  · rw [recast.find_eq] at fresh
    exact books.missing address fresh

/-- What a change does to the books, they go on to agree. -/
theorem booked (books : Books env start self) (booked : Booked env licence self after)
    (transaction : after.lifetime.transaction = self.lifetime.transaction) : Books env start after := by
  cases booked with
  | aside quiet => exact books.sameFaces quiet transaction
  | observed recast first records changed journal =>
      exact books.observed recast first records journal transaction
  | journaled recast current found records changed journal =>
      rename_i id row record
      refine books.recast recast rfl (fun address key => ?_) (fun index old found => ?_) ?_
        (fun undo member => ?_) transaction
      · obtain ⟨clean, seen, -⟩ := books.row id row address recast.held key
        exact ⟨clean, seen, fun unseen => absurd current unseen⟩
      · rw [records] at found
        exact ⟨old, found, rfl, rfl⟩
      · rw [records]
      · rw [journal] at member
        rcases List.mem_cons.mp member with same | older
        · cases same
          exact .inr ⟨rfl, current, rfl⟩
        · exact .inl older
  | dirtied recast current covered records changed journal =>
      rename_i id row
      refine books.recast recast rfl (fun address key => ?_) (fun index old found => ?_) ?_
        (fun undo member => .inl (journal ▸ member)) transaction
      · exact ⟨fun clean => absurd rfl clean, fun _ => current, fun unseen => absurd current unseen⟩
      · rw [records] at found
        exact ⟨old, found, rfl, rfl⟩
      · rw [records]
  | wrote recast ready writes records changed journal =>
      refine books.recast recast rfl (fun address key => ?_) (fun index old found => ?_) ?_
        (fun undo member => .inl (journal ▸ member)) transaction
      · exact ⟨fun clean => absurd ready.dirty clean, fun _ => ready.observed,
          fun unseen => absurd ready.observed unseen⟩
      · rw [records] at found
        obtain ⟨older, before, rfl⟩ := affected_of_modify found
        refine ⟨older, before, ?_⟩
        split <;> exact ⟨rfl, rfl⟩
      · rw [records, List.length_modify]

/-- So they do after an entry is undone. -/
theorem unbooked (books : Books env start self) {entry : Entry}
    (unbooked : Unbooked env self after entry)
    (journal : after.journal = self.journal)
    (fits : ∀ undo, entry = .account undo → ∃ row address,
      self.world.accounts.row undo.account = some row ∧
      self.world.accounts.key undo.account = some address ∧
      Fits self.lifetime.transaction (start address) (undo.face row.observation))
    (transaction : after.lifetime.transaction = self.lifetime.transaction) : Books env start after := by
  cases unbooked with
  | aside others quiet => exact books.sameFaces quiet transaction
  | gaveBack same recast records changed =>
      rename_i undo row
      refine books.recast recast rfl (fun address key => ?_) (fun index old found => ?_) ?_
        (fun undo member => .inl (journal ▸ member)) transaction
      · obtain ⟨held, place, heldRow, placeKey, back⟩ := fits undo same
        cases heldRow.symm.trans recast.held
        cases placeKey.symm.trans key
        exact back
      · rw [records] at found
        obtain ⟨older, before, rfl⟩ := affected_of_modify found
        refine ⟨older, before, ?_⟩
        split <;> exact ⟨rfl, rfl⟩
      · rw [records, List.length_modify]

theorem popped (books : Books env start self) {entry : Entry} {older : Journal}
    (journal : self.journal = entry :: older)
    (undone : Undone { self with journal := older } entry after) : Books env start after := by
  have bare : Books env start { self with journal := older } :=
    books.same rfl rfl (fun undo member => journal ▸ List.mem_cons_of_mem _ member) rfl
  refine bare.unbooked undone.booked undone.journal (fun undo same => ?_)
    (congrArg Lifetimes.transaction undone.control.lifetime)
  obtain ⟨row, address, held, key, -, fits⟩ :=
    books.entry undo (journal ▸ same ▸ List.mem_cons_self)
  exact ⟨row, address, held, key, fits⟩

theorem unwound (books : Books env start self) {count : Nat}
    (ran : popEntries count self = .ok () after) :
    Books env start after := by
  refine popEntries_induct (motive := Books env start) ?_ ran books
  intro state entry older last journal books undone
  exact books.popped journal (undoEntry_ran undone)

theorem changed (books : Books env start self) (steps : Changed env licence self after) :
    Books env start after := by
  induction steps with
  | refl => exact books
  | tail _ step ih =>
      exact ih.booked step.booked (congrArg Lifetimes.transaction step.control.lifetime)

theorem reverted (books : Books env start self) {held : Checkpoint} {mid : WorldState}
    (unwound : revertJournalTo held.journalLen self.flagged = .ok () mid) :
    Books env start (rewoundTo held mid) := by
  have flagged : Books env start self.flagged := books.same rfl rfl (fun _ member => member) rfl
  have left : Books env start mid := flagged.unwound unwound
  exact left.same rfl rfl (fun _ member => member) rfl

end Books
end WorldState

end EvmZig.State
