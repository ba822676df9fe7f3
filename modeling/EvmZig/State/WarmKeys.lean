import EvmZig.State.Transient

/-!
# The keys that are warm

A warming leaves a mark, on the row of its key or in the deferred entry kept for
a key without one, and an entry of the journal.  Marks and entries correspond
throughout, so a key is warm just when the journal holds a warming of it.
-/

set_option autoImplicit false

namespace EvmZig.State

open Lib Zig

/-- An account or a slot, as a caller names it. -/
inductive WarmKey where
  | account (address : Address)
  | slot (key : TransientKey)
  deriving DecidableEq

def Entry.isWarming : Entry → Bool
  | .warmAccount _ => true
  | .warmStorage _ => true
  | .deferredWarmAccount _ => true
  | .deferredWarmStorage _ => true
  | _ => false

theorem Entry.OfRow.notWarming {entry : Entry} (ofRow : entry.OfRow) : entry.isWarming = false := by
  cases entry <;> first | rfl | exact ofRow.elim

namespace WorldState

variable {env : Env} {licence : Licence} {self after last : WorldState} {id : StorageId}
  {update : StorageRow → StorageRow} {entry : Entry} {key : WarmKey} {journal : Journal}

/-! ## Stamps of warmth -/

def accountStamp (self : WorldState) (id : AccountId) : Option Generation :=
  (self.world.accounts.row id).map (·.warmTransaction)

def slotStamp (self : WorldState) (id : StorageId) : Option Generation :=
  (self.world.storage.row id).map (·.warmTransaction)

/-- Rows keep their stamps, and a new row has none. -/
structure StampsKept (before after : WorldState) : Prop where
  account : ∀ id, after.accountStamp id = before.accountStamp id ∨
    before.accountStamp id = none ∧ after.accountStamp id = some 0
  slot : ∀ id, after.slotStamp id = before.slotStamp id ∨
    before.slotStamp id = none ∧ after.slotStamp id = some 0

namespace StampsKept

theorem same (accounts : ∀ id, after.accountStamp id = self.accountStamp id)
    (slots : ∀ id, after.slotStamp id = self.slotStamp id) : StampsKept self after :=
  ⟨fun id => .inl (accounts id), fun id => .inl (slots id)⟩

theorem refl (self : WorldState) : StampsKept self self := .same (fun _ => rfl) fun _ => rfl

theorem trans (first : StampsKept self after) (second : StampsKept after last) :
    StampsKept self last := by
  refine ⟨fun id => ?_, fun id => ?_⟩
  · rcases second.account id with same | ⟨missing, fresh⟩
    · rw [same]
      exact first.account id
    · rcases first.account id with same | ⟨-, there⟩
      · exact .inr ⟨same ▸ missing, fresh⟩
      · rw [missing] at there
        cases there
  · rcases second.slot id with same | ⟨missing, fresh⟩
    · rw [same]
      exact first.slot id
    · rcases first.slot id with same | ⟨-, there⟩
      · exact .inr ⟨same ▸ missing, fresh⟩
      · rw [missing] at there
        cases there

end StampsKept

theorem map_row_set {κ ρ σ : Type} {table : Table κ ρ} {index : Nat} {old new : ρ} {read : ρ → σ}
    (held : table.row index = some old) (same : read new = read old) (other : Nat) :
    ((table.set index new).row other).map read = (table.row other).map read := by
  obtain ⟨key, keyed⟩ := Table.key_eq_some_of_row held
  by_cases here : other = index
  · subst here
    rw [Table.row_set_same keyed, held, Option.map_some, Option.map_some, same]
  · rw [Table.row_set_other _ here]

theorem updateAccount_stamps {id : AccountId} {update : AccountRow → AccountRow}
    (world : after.world = self.world.updateAccount id update)
    (keeps : ∀ row, (update row).warmTransaction = row.warmTransaction) : StampsKept self after := by
  cases held : self.world.accounts.row id with
  | none =>
      rw [World.updateAccount, held] at world
      exact .same (fun other => by rw [accountStamp, world]; rfl) fun other => by
        rw [slotStamp, world]
        rfl
  | some row =>
      rw [World.updateAccount, held] at world
      refine .same (fun other => ?_) fun other => ?_
      · rw [accountStamp, world]
        exact map_row_set held (keeps row) other
      · rw [slotStamp, world]
        rfl

theorem updateStorage_stamps (world : after.world = self.world.updateStorage id update)
    (keeps : ∀ row, (update row).warmTransaction = row.warmTransaction) :
    StampsKept self after := by
  cases held : self.world.storage.row id with
  | none =>
      rw [World.updateStorage, held] at world
      exact .same (fun other => by rw [accountStamp, world]; rfl) fun other => by
        rw [slotStamp, world]
        rfl
  | some row =>
      rw [World.updateStorage, held] at world
      refine .same (fun other => ?_) fun other => ?_
      · rw [accountStamp, world]
        rfl
      · rw [slotStamp, world]
        exact map_row_set held (keeps row) other

theorem map_row_admitted {κ ρ σ : Type} [DecidableEq κ] {table : Table κ ρ} {key : κ} {value : ρ}
    (fresh : table.find key = none) (read : ρ → σ) (index : Nat) :
    ((table.admitRow key value fresh).row index).map read = (table.row index).map read ∨
      (table.row index).map read = none ∧
        ((table.admitRow key value fresh).row index).map read = some (read value) := by
  by_cases last : index = table.count
  · right
    have missing : table.row index = none := by
      rw [last, Table.row, Table.count, List.getElem?_length]
      rfl
    rw [missing, last, Table.row_admit_last]
    exact ⟨rfl, rfl⟩
  · left
    rw [Table.row_admit_other fresh value last]

theorem storeSlot_stamps {resolved : ResolvedStorage} {account : AccountRow} {row : StorageRow}
    (effect : StorageEffect) (value : U256) :
    StampsKept self (storeSlot resolved account row effect value self) := by
  have journaled : StampsKept self (journalSlotFirst resolved.storage row effect self) := by
    unfold journalSlotFirst
    split
    · exact updateStorage_stamps rfl fun _ => rfl
    · exact .refl self
  have dirtied : ∀ (state : WorldState) (needsUndo : Bool),
      StampsKept state (markStorageDirty resolved.account needsUndo state) := by
    intro state needsUndo
    unfold markStorageDirty
    split <;> exact updateAccount_stamps rfl fun _ => rfl
  exact (journaled.trans (dirtied _ _)).trans (updateStorage_stamps rfl fun _ => rfl)

/-- Only warming calls stamp rows. -/
theorem Assignment.stamps (step : Assignment env licence self after) : StampsKept self after := by
  cases step with
  | admittedAccount address fresh => exact ⟨map_row_admitted fresh _, fun _ => .inl rfl⟩
  | admittedSlot owner fresh => exact ⟨fun _ => .inl rfl, map_row_admitted fresh _⟩
  | wroteSlot storable found value => exact storeSlot_stamps _ value
  | boundCode => exact updateAccount_stamps rfl fun _ => rfl
  | observedAccount => exact updateAccount_stamps rfl fun _ => rfl
  | observedSlot => exact updateStorage_stamps rfl fun _ => rfl
  | journaled => exact updateAccount_stamps rfl fun _ => rfl
  | blockChanged => exact updateAccount_stamps rfl fun _ => rfl
  | transactionDirty => exact updateAccount_stamps rfl fun _ => rfl
  | wrote => exact updateAccount_stamps rfl fun _ => rfl
  | touched => exact updateAccount_stamps rfl fun _ => rfl
  | wiped => exact updateAccount_stamps rfl fun _ => rfl
  | enlisted => exact updateAccount_stamps rfl fun _ => rfl
  | created => exact updateAccount_stamps rfl fun _ => rfl
  | selfdestructed => exact updateAccount_stamps rfl fun _ => rfl
  | settledCreation => exact updateAccount_stamps rfl fun _ => rfl
  | settledDestruction => exact updateAccount_stamps rfl fun _ => rfl
  | cachedOriginal => exact updateStorage_stamps rfl fun _ => rfl
  | _ => exact .same (fun _ => rfl) fun _ => rfl

/-! ## Marks and entries -/

/-- The key a warming was of. -/
def warmKeyOf (self : WorldState) : Entry → Option WarmKey
  | .warmAccount id => (self.world.accounts.key id).map .account
  | .warmStorage id => (self.slotOf id).map fun place => .slot ⟨place.1, place.2⟩
  | .deferredWarmAccount entry => (self.deferredWarmth.accounts.key entry).map .account
  | .deferredWarmStorage entry => (self.deferredWarmth.storage.key entry).map .slot
  | _ => none

/-- The mark of a warming is there. -/
def Marked (self : WorldState) : Entry → Prop
  | .warmAccount id => self.accountStamp id = some self.lifetime.transaction
  | .warmStorage id => self.slotStamp id = some self.lifetime.transaction
  | .deferredWarmAccount entry => self.deferredWarmth.accounts.row entry = some true
  | .deferredWarmStorage entry => self.deferredWarmth.storage.row entry = some true
  | _ => False

/-- The warm keys a journal accounts for. -/
def warmKeys (self : WorldState) (journal : Journal) : List WarmKey :=
  journal.filterMap self.warmKeyOf

/-- `isAccountWarm` and `isStorageWarm`. -/
def isWarm (env : Env) (self : WorldState) : WarmKey → Bool
  | .account address => self.isAccountWarm env address
  | .slot key => self.isStorageWarm env key.address key.slot

/-- Every mark has its entry, and every warming its mark and its key. -/
structure Journaled (env : Env) (state : WorldState) : Prop where
  marked : ∀ entry, state.Marked entry ↔ entry ∈ state.journal ∧ entry.isWarming = true
  once : (state.journal.filter Entry.isWarming).Nodup
  keyed : ∀ entry ∈ state.journal, entry.isWarming = true → (state.warmKeyOf entry).isSome = true
  deferred : env.growsOnTouch = false → state.deferredWarmth = ⟨Table.empty, Table.empty⟩

theorem warmKeyOf_isWarming (known : self.warmKeyOf entry = some key) : entry.isWarming = true := by
  cases entry <;> first | rfl | cases known

theorem mem_warmKeys :
    key ∈ self.warmKeys journal ↔ ∃ entry ∈ journal, self.warmKeyOf entry = some key :=
  List.mem_filterMap

theorem warmKeys_append (newer older : Journal) :
    self.warmKeys (newer ++ older) = self.warmKeys newer ++ self.warmKeys older :=
  List.filterMap_append

theorem warmKeys_aside {newer : Journal} (aside : ∀ entry ∈ newer, entry.isWarming = false) :
    self.warmKeys newer = [] := by
  rw [warmKeys, List.filterMap_eq_nil_iff]
  intro entry member
  have notWarming := aside entry member
  cases entry <;> first | rfl | cases notWarming

theorem warmKeys_congr (same : ∀ entry ∈ journal, after.warmKeyOf entry = self.warmKeyOf entry) :
    after.warmKeys journal = self.warmKeys journal := List.filterMap_congr same

namespace Journaled

variable (journaled : Journaled env self)
include journaled

theorem grows_of_deferred {entry : Nat}
    (held : self.deferredWarmth.accounts.row entry = some true ∨
      self.deferredWarmth.storage.row entry = some true) : env.growsOnTouch = true := by
  by_contra closed
  rw [journaled.deferred (Bool.eq_false_of_not_eq_true closed)] at held
  rcases held with held | held <;> cases held

theorem deferredAccount_iff (address : Address) :
    self.deferredAccountWarm env address = true ↔
      ∃ entry, self.deferredWarmth.accounts.key entry = some address ∧
        self.deferredWarmth.accounts.row entry = some true := by
  rw [deferredAccountWarm, ← Table.value_eq_some]
  cases held : self.deferredWarmth.accounts.value address with
  | none => simp
  | some warm =>
      obtain ⟨entry, key, row⟩ := Table.value_eq_some.mp held
      cases warm with
      | false => simp
      | true => simp [journaled.grows_of_deferred (.inl row)]

theorem deferredStorage_iff (key : TransientKey) :
    self.deferredStorageWarm env key.address key.slot = true ↔
      ∃ entry, self.deferredWarmth.storage.key entry = some key ∧
        self.deferredWarmth.storage.row entry = some true := by
  rw [deferredStorageWarm, ← Table.value_eq_some]
  cases held : self.deferredWarmth.storage.value key with
  | none => simp
  | some warm =>
      obtain ⟨entry, found, row⟩ := Table.value_eq_some.mp held
      cases warm with
      | false => simp
      | true => simp [journaled.grows_of_deferred (.inr row)]

omit journaled in
theorem accountWarm_iff (address : Address) :
    self.isAccountWarm env address = true ↔
      (∃ id, self.world.accounts.key id = some address ∧
        self.accountStamp id = some self.lifetime.transaction) ∨
      self.deferredAccountWarm env address = true := by
  rw [isAccountWarm, findAccount]
  cases found : self.world.accounts.find address with
  | none =>
      refine ⟨.inr, fun warm => ?_⟩
      rcases warm with ⟨id, key, -⟩ | deferred
      · exact absurd key (Table.find_eq_none.mp found id)
      · exact deferred
  | some id =>
      have key := Table.find_eq_some.mp found
      obtain ⟨row, held⟩ := Table.row_eq_some_of_key key
      have unique : ∀ other, self.world.accounts.key other = some address → other = id :=
        fun other otherKey => Table.key_inj otherKey key
      simp only [accountWarm, held, key]
      by_cases warm : row.warmTransaction = self.lifetime.transaction
      · rw [if_pos warm]
        refine ⟨fun _ => .inl ⟨id, key, ?_⟩, fun _ => rfl⟩
        rw [accountStamp, held, Option.map_some, warm]
      · rw [if_neg warm]
        refine ⟨.inr, fun either => either.resolve_left ?_⟩
        rintro ⟨other, otherKey, stamp⟩
        rw [unique other otherKey, accountStamp, held] at stamp
        exact warm (Option.some.inj stamp)

omit journaled in
theorem slotWarm_iff (key : TransientKey) :
    self.isStorageWarm env key.address key.slot = true ↔
      (∃ id, self.slotOf id = some (key.address, key.slot) ∧
        self.slotStamp id = some self.lifetime.transaction) ∨
      self.deferredStorageWarm env key.address key.slot = true := by
  have nowhere : (∀ id, self.slotOf id ≠ some (key.address, key.slot)) →
      (self.deferredStorageWarm env key.address key.slot = true ↔
        (∃ id, self.slotOf id = some (key.address, key.slot) ∧
          self.slotStamp id = some self.lifetime.transaction) ∨
        self.deferredStorageWarm env key.address key.slot = true) := by
    intro none
    exact ⟨.inr, fun either => either.resolve_left fun ⟨id, place, _⟩ => none id place⟩
  rw [isStorageWarm, findAccount]
  cases foundAccount : self.world.accounts.find key.address with
  | none =>
      refine nowhere fun id place => ?_
      obtain ⟨account, -, accountKey⟩ := slotOf_eq_some.mp place
      exact Table.find_eq_none.mp foundAccount account accountKey
  | some account =>
      have accountKey := Table.find_eq_some.mp foundAccount
      have stored : ∀ id, self.slotOf id = some (key.address, key.slot) →
          self.world.storage.key id = some ⟨account, key.slot⟩ := by
        intro id place
        obtain ⟨other, storageKey, otherKey⟩ := slotOf_eq_some.mp place
        rw [← Table.key_inj otherKey accountKey]
        exact storageKey
      dsimp only
      rw [findStorage]
      cases found : self.world.storage.find ⟨account, key.slot⟩ with
      | none => exact nowhere fun id place => Table.find_eq_none.mp found id (stored id place)
      | some id =>
          have storageKey := Table.find_eq_some.mp found
          have place : self.slotOf id = some (key.address, key.slot) :=
            slotOf_eq_some.mpr ⟨account, storageKey, accountKey⟩
          obtain ⟨row, held⟩ := Table.row_eq_some_of_key storageKey
          simp only [storageWarm, held, place]
          by_cases warm : row.warmTransaction = self.lifetime.transaction
          · rw [if_pos warm]
            refine ⟨fun _ => .inl ⟨id, place, ?_⟩, fun _ => rfl⟩
            rw [slotStamp, held, Option.map_some, warm]
          · rw [if_neg warm]
            refine ⟨.inr, fun either => either.resolve_left ?_⟩
            rintro ⟨other, otherPlace, stamp⟩
            have same : other = id := Table.key_inj (stored other otherPlace) storageKey
            rw [same, slotStamp, held] at stamp
            exact warm (Option.some.inj stamp)

/-- A key is warm just when the journal has a warming of it. -/
theorem isWarm_iff (key : WarmKey) : self.isWarm env key = true ↔ key ∈ self.warmKeys self.journal := by
  have marks : key ∈ self.warmKeys self.journal ↔
      ∃ entry, self.Marked entry ∧ self.warmKeyOf entry = some key := by
    rw [mem_warmKeys]
    refine exists_congr fun entry => ?_
    rw [journaled.marked]
    exact ⟨fun ⟨held, known⟩ => ⟨⟨held, warmKeyOf_isWarming known⟩, known⟩,
      fun ⟨held, known⟩ => ⟨held.1, known⟩⟩
  rw [marks]
  cases key with
  | account address =>
      rw [isWarm, accountWarm_iff, journaled.deferredAccount_iff]
      constructor
      · rintro (⟨id, key, stamp⟩ | ⟨entry, key, row⟩)
        · exact ⟨.warmAccount id, stamp, by rw [warmKeyOf, key]; rfl⟩
        · exact ⟨.deferredWarmAccount entry, row, by rw [warmKeyOf, key]; rfl⟩
      · rintro ⟨entry, marked, known⟩
        cases entry with
        | warmAccount id =>
            obtain ⟨_, key, same⟩ := Option.map_eq_some_iff.mp known
            cases same
            exact .inl ⟨id, key, marked⟩
        | deferredWarmAccount entry =>
            obtain ⟨_, key, same⟩ := Option.map_eq_some_iff.mp known
            cases same
            exact .inr ⟨entry, key, marked⟩
        | warmStorage id =>
            obtain ⟨_, -, same⟩ := Option.map_eq_some_iff.mp known
            cases same
        | deferredWarmStorage entry =>
            obtain ⟨_, -, same⟩ := Option.map_eq_some_iff.mp known
            cases same
        | _ => exact marked.elim
  | slot key =>
      rw [isWarm, slotWarm_iff, journaled.deferredStorage_iff]
      constructor
      · rintro (⟨id, place, stamp⟩ | ⟨entry, found, row⟩)
        · exact ⟨.warmStorage id, stamp, by rw [warmKeyOf, place]; rfl⟩
        · exact ⟨.deferredWarmStorage entry, row, by rw [warmKeyOf, found]; rfl⟩
      · rintro ⟨entry, marked, known⟩
        cases entry with
        | warmStorage id =>
            obtain ⟨_, place, same⟩ := Option.map_eq_some_iff.mp known
            cases same
            exact .inl ⟨id, place, marked⟩
        | deferredWarmStorage entry =>
            obtain ⟨_, found, same⟩ := Option.map_eq_some_iff.mp known
            cases same
            exact .inr ⟨entry, found, marked⟩
        | warmAccount id =>
            obtain ⟨_, -, same⟩ := Option.map_eq_some_iff.mp known
            cases same
        | deferredWarmAccount entry =>
            obtain ⟨_, -, same⟩ := Option.map_eq_some_iff.mp known
            cases same
        | _ => exact marked.elim

end Journaled

/-! ## What keeps them in step -/

/-- Only rows, their lists and their records change. -/
structure Undisturbed (before after : WorldState) : Prop where
  stamps : StampsKept before after
  accountKey : ∀ id address, before.world.accounts.key id = some address →
    after.world.accounts.key id = some address
  storageKey : ∀ id key, before.world.storage.key id = some key →
    after.world.storage.key id = some key
  deferred : after.deferredWarmth = before.deferredWarmth
  control : SameControl before after
  journal : ∃ newer, after.journal = newer ++ before.journal ∧
    ∀ entry ∈ newer, entry.isWarming = false

namespace Undisturbed

theorem refl (self : WorldState) : Undisturbed self self where
  stamps := .refl self
  accountKey _ _ key := key
  storageKey _ _ key := key
  deferred := rfl
  control := rfl
  journal := ⟨[], rfl, fun _ member => nomatch member⟩

theorem trans (first : Undisturbed self after) (second : Undisturbed after last) :
    Undisturbed self last where
  stamps := first.stamps.trans second.stamps
  accountKey id address key := second.accountKey id address (first.accountKey id address key)
  storageKey id key held := second.storageKey id key (first.storageKey id key held)
  deferred := second.deferred.trans first.deferred
  control := first.control.trans second.control
  journal := by
    obtain ⟨newer, journal, aside⟩ := first.journal
    obtain ⟨newest, journal', aside'⟩ := second.journal
    refine ⟨newest ++ newer, ?_, fun entry member => ?_⟩
    · rw [journal', journal, List.append_assoc]
    · rcases List.mem_append.mp member with late | early
      · exact aside' entry late
      · exact aside entry early

theorem unjournaled (stamps : StampsKept self after)
    (accountKey : ∀ id address, self.world.accounts.key id = some address →
      after.world.accounts.key id = some address)
    (storageKey : ∀ id key, self.world.storage.key id = some key →
      after.world.storage.key id = some key)
    (deferred : after.deferredWarmth = self.deferredWarmth) (control : SameControl self after)
    (journal : after.journal = self.journal) : Undisturbed self after :=
  ⟨stamps, accountKey, storageKey, deferred, control, [], journal, fun _ member => nomatch member⟩

theorem account {id : AccountId} {update : AccountRow → AccountRow}
    (world : after.world = self.world.updateAccount id update)
    (keeps : ∀ row, (update row).warmTransaction = row.warmTransaction)
    (deferred : after.deferredWarmth = self.deferredWarmth) (control : SameControl self after)
    (journal : after.journal = self.journal) : Undisturbed self after := by
  refine unjournaled (updateAccount_stamps world keeps) (fun other address key => ?_)
    (fun other key held => ?_) deferred control journal
  · rw [world]
    exact (key_updateAccount id other update).trans key
  · rw [world, World.updateAccount]
    split <;> exact held

theorem storage (world : after.world = self.world.updateStorage id update)
    (keeps : ∀ row, (update row).warmTransaction = row.warmTransaction)
    (deferred : after.deferredWarmth = self.deferredWarmth) (control : SameControl self after)
    (journal : after.journal = self.journal) : Undisturbed self after := by
  refine unjournaled (updateStorage_stamps world keeps) (fun other address key => ?_)
    (fun other key held => ?_) deferred control journal
  · rw [world, World.updateStorage]
    split <;> exact key
  · rw [world, World.updateStorage]
    split
    · exact (Table.key_set ..).trans held
    · exact held

theorem world (world : after.world = self.world)
    (deferred : after.deferredWarmth = self.deferredWarmth) (control : SameControl self after)
    (journal : after.journal = self.journal) : Undisturbed self after := by
  refine unjournaled (.same (fun id => ?_) fun id => ?_) (fun _ _ key => ?_) (fun _ _ key => ?_)
    deferred control journal
  · rw [accountStamp, world]
    rfl
  · rw [slotStamp, world]
    rfl
  · rw [world]
    exact key
  · rw [world]
    exact key

theorem marked (undisturbed : Undisturbed self after) (begun : self.lifetime.transaction ≠ 0)
    (entry : Entry) : after.Marked entry ↔ self.Marked entry := by
  have lifetime := undisturbed.control.lifetime
  have fresh : some (0 : Generation) ≠ some self.lifetime.transaction :=
    fun same => begun (Option.some.inj same).symm
  cases entry with
  | warmAccount id =>
      rw [Marked, Marked, lifetime]
      rcases undisturbed.stamps.account id with same | ⟨missing, stamp⟩
      · rw [same]
      · rw [missing, stamp]
        exact ⟨fun same => absurd same fresh, fun same => nomatch same⟩
  | warmStorage id =>
      rw [Marked, Marked, lifetime]
      rcases undisturbed.stamps.slot id with same | ⟨missing, stamp⟩
      · rw [same]
      · rw [missing, stamp]
        exact ⟨fun same => absurd same fresh, fun same => nomatch same⟩
  | deferredWarmAccount entry => rw [Marked, Marked, undisturbed.deferred]
  | deferredWarmStorage entry => rw [Marked, Marked, undisturbed.deferred]
  | _ => exact Iff.rfl

/-- A warming that has a key keeps it. -/
theorem warmKeyOf (undisturbed : Undisturbed self after) (known : self.warmKeyOf entry = some key) :
    after.warmKeyOf entry = some key := by
  cases entry with
  | warmAccount id =>
      obtain ⟨address, held, same⟩ := Option.map_eq_some_iff.mp known
      rw [WorldState.warmKeyOf, undisturbed.accountKey id address held, Option.map_some, same]
  | warmStorage id =>
      obtain ⟨place, held, same⟩ := Option.map_eq_some_iff.mp known
      obtain ⟨account, storageKey, accountKey⟩ := slotOf_eq_some.mp held
      have kept : after.slotOf id = some place := slotOf_eq_some.mpr
        ⟨account, undisturbed.storageKey _ _ storageKey, undisturbed.accountKey _ _ accountKey⟩
      rw [WorldState.warmKeyOf, kept, Option.map_some, same]
  | deferredWarmAccount entry =>
      rw [WorldState.warmKeyOf, undisturbed.deferred]
      exact known
  | deferredWarmStorage entry =>
      rw [WorldState.warmKeyOf, undisturbed.deferred]
      exact known
  | _ => cases known

end Undisturbed

theorem Assignment.undisturbed (step : Assignment env licence self after) : Undisturbed self after where
  stamps := step.stamps
  accountKey _ _ key := step.accountKey key
  storageKey _ _ key := step.storageKey key
  deferred := by
    cases step with
    | wroteSlot storable found value =>
        unfold storeSlot journalSlotFirst markStorageDirty
        split <;> split <;> rfl
    | _ => rfl
  control := step.control
  journal := by
    obtain ⟨newer, journal, kinds, -⟩ := step.pushes.journal
    exact ⟨newer, journal, fun entry member => (kinds entry member).notWarming⟩

theorem Assigned.undisturbed (steps : Assigned env licence self after) : Undisturbed self after := by
  induction steps with
  | refl => exact .refl self
  | tail _ step ih => exact ih.trans step.undisturbed

namespace Journaled

/-- The keys of the journal so far do not change. -/
theorem warmKeys_kept (journaled : Journaled env self) (undisturbed : Undisturbed self after)
    (within : ∀ entry ∈ journal, entry ∈ self.journal) :
    after.warmKeys journal = self.warmKeys journal := by
  refine warmKeys_congr fun entry member => ?_
  cases warming : entry.isWarming with
  | true =>
      obtain ⟨key, known⟩ := Option.isSome_iff_exists.mp
        (journaled.keyed entry (within entry member) warming)
      rw [known, undisturbed.warmKeyOf known]
  | false => cases entry <;> first | rfl | cases warming

theorem undisturbed (journaled : Journaled env self) (undisturbed : Undisturbed self after)
    (begun : self.lifetime.transaction ≠ 0) : Journaled env after := by
  obtain ⟨newer, journal, aside⟩ := undisturbed.journal
  have warmings : ∀ entry, entry ∈ after.journal ∧ entry.isWarming = true ↔
      entry ∈ self.journal ∧ entry.isWarming = true := by
    intro entry
    refine and_congr_left fun warming => ?_
    rw [journal, List.mem_append]
    refine or_iff_right fun member => ?_
    rw [aside entry member] at warming
    cases warming
  refine ⟨fun entry => ?_, ?_, fun entry member warming => ?_, fun closed => ?_⟩
  · rw [undisturbed.marked begun, journaled.marked, warmings]
  · have none : newer.filter Entry.isWarming = [] := by
      rw [List.filter_eq_nil_iff]
      intro entry member
      rw [aside entry member]
      exact Bool.false_ne_true
    rw [journal, List.filter_append, none]
    exact journaled.once
  · obtain ⟨held, -⟩ := (warmings entry).mp ⟨member, warming⟩
    obtain ⟨key, known⟩ := Option.isSome_iff_exists.mp (journaled.keyed entry held warming)
    rw [undisturbed.warmKeyOf known]
    rfl
  · rw [undisturbed.deferred]
    exact journaled.deferred closed

end Journaled

/-! ## Warming -/

/-- A warming of a key, with the entry it leaves. -/
inductive Warming (env : Env) (self : WorldState) : WarmKey → Entry → WorldState → Prop
  | account {id : AccountId} {address : Address} {row : AccountRow}
      (key : self.world.accounts.key id = some address)
      (held : self.world.accounts.row id = some row)
      (cold : row.warmTransaction ≠ self.lifetime.transaction) :
      Warming env self (.account address) (.warmAccount id)
        ((self.push (.warmAccount id)).updateAccount id fun row =>
          { row with warmTransaction := self.lifetime.transaction })
  | slot {id : StorageId} {key : TransientKey} {row : StorageRow}
      (place : self.slotOf id = some (key.address, key.slot))
      (held : self.world.storage.row id = some row)
      (cold : row.warmTransaction ≠ self.lifetime.transaction) :
      Warming env self (.slot key) (.warmStorage id)
        ((self.push (.warmStorage id)).updateStorage id fun row =>
          { row with warmTransaction := self.lifetime.transaction })
  | deferredAccount {address : Address} {entry : Nat} (grows : env.growsOnTouch = true)
      (cold : (self.deferredWarmth.accounts.value address).getD false = false)
      (found : (self.deferredWarmth.accounts.put address true).find address = some entry) :
      Warming env self (.account address) (.deferredWarmAccount entry)
        (deferAccount address entry self)
  | deferredSlot {key : TransientKey} {entry : Nat} (grows : env.growsOnTouch = true)
      (cold : (self.deferredWarmth.storage.value key).getD false = false)
      (found : (self.deferredWarmth.storage.put key true).find key = some entry) :
      Warming env self (.slot key) (.deferredWarmStorage entry) (deferStorage key entry self)

/-- One mark is set or cleared; keys stay. -/
structure Toggles (before after : WorldState) (entry : Entry) (set : Prop) : Prop where
  marked : ∀ other, after.Marked other ↔ other = entry ∧ set ∨ other ≠ entry ∧ before.Marked other
  warmKeyOf : ∀ other key, before.warmKeyOf other = some key → after.warmKeyOf other = some key
  control : SameControl before after

theorem accountStamp_update {id : AccountId} {row : AccountRow} {update : AccountRow → AccountRow}
    (held : self.world.accounts.row id = some row) (other : AccountId) :
    (self.updateAccount id update).accountStamp other =
      if other = id then some (update row).warmTransaction else self.accountStamp other := by
  obtain ⟨address, key⟩ := Table.key_eq_some_of_row held
  rw [accountStamp, updateAccount, World.updateAccount, held]
  by_cases here : other = id
  · rw [if_pos here, here, Table.row_set_same key]
    rfl
  · rw [if_neg here, Table.row_set_other _ here]
    rfl

theorem slotStamp_update {row : StorageRow} (held : self.world.storage.row id = some row)
    (other : StorageId) : (self.updateStorage id update).slotStamp other =
      if other = id then some (update row).warmTransaction else self.slotStamp other := by
  obtain ⟨key, keyed⟩ := Table.key_eq_some_of_row held
  rw [slotStamp, updateStorage, World.updateStorage, held]
  by_cases here : other = id
  · rw [if_pos here, here, Table.row_set_same keyed]
    rfl
  · rw [if_neg here, Table.row_set_other _ here]
    rfl

theorem slotStamp_updateAccount (id : AccountId) (update : AccountRow → AccountRow)
    (other : StorageId) : (self.updateAccount id update).slotStamp other = self.slotStamp other := by
  rw [slotStamp, updateAccount, World.updateAccount]
  split <;> rfl

theorem accountStamp_updateStorage (id : StorageId) (update : StorageRow → StorageRow)
    (other : AccountId) : (self.updateStorage id update).accountStamp other =
    self.accountStamp other := by
  rw [accountStamp, accounts_updateStorage]
  rfl

theorem warmKeyOf_updateAccount (id : AccountId) (update : AccountRow → AccountRow) (entry : Entry) :
    (self.updateAccount id update).warmKeyOf entry = self.warmKeyOf entry := by
  have storage : (self.updateAccount id update).world.storage = self.world.storage := by
    rw [updateAccount, World.updateAccount]
    split <;> rfl
  cases entry with
  | warmAccount other => rw [warmKeyOf, warmKeyOf, key_updateAccount]
  | warmStorage other =>
      rw [warmKeyOf, warmKeyOf, slotOf, slotOf, storage]
      simp only [key_updateAccount]
  | _ => rfl

theorem warmKeyOf_updateStorage (id : StorageId) (update : StorageRow → StorageRow) (entry : Entry) :
    (self.updateStorage id update).warmKeyOf entry = self.warmKeyOf entry := by
  have storage : ∀ other, (self.updateStorage id update).world.storage.key other =
      self.world.storage.key other := by
    intro other
    rw [updateStorage, World.updateStorage]
    split
    · exact Table.key_set ..
    · rfl
  cases entry with
  | warmAccount other => rw [warmKeyOf, warmKeyOf, accounts_updateStorage]
  | warmStorage other => rw [warmKeyOf, warmKeyOf, slotOf, slotOf, storage, accounts_updateStorage]
  | _ => rfl

namespace Toggles

variable {set : Prop}

theorem account {id : AccountId} {row : AccountRow} {update : AccountRow → AccountRow}
    (held : self.world.accounts.row id = some row)
    (now : (update row).warmTransaction = self.lifetime.transaction ↔ set) :
    Toggles self (self.updateAccount id update) (.warmAccount id) set where
  marked other := by
    cases other with
    | warmAccount other =>
        rw [Marked, Marked, accountStamp_update held]
        by_cases here : other = id
        · subst here
          simp [updateAccount, now]
        · simp [here, updateAccount]
    | warmStorage other =>
        rw [Marked, Marked, slotStamp_updateAccount]
        simp [updateAccount]
    | _ => simp [Marked, updateAccount]
  warmKeyOf other key known := (warmKeyOf_updateAccount ..).trans known
  control := rfl

theorem slot {id : StorageId} {row : StorageRow} {update : StorageRow → StorageRow}
    (held : self.world.storage.row id = some row)
    (now : (update row).warmTransaction = self.lifetime.transaction ↔ set) :
    Toggles self (self.updateStorage id update) (.warmStorage id) set where
  marked other := by
    cases other with
    | warmStorage other =>
        rw [Marked, Marked, slotStamp_update held]
        by_cases here : other = id
        · subst here
          simp [updateStorage, now]
        · simp [here, updateStorage]
    | warmAccount other =>
        rw [Marked, Marked, accountStamp_updateStorage]
        simp [updateStorage]
    | _ => simp [Marked, updateStorage]
  warmKeyOf other key known := (warmKeyOf_updateStorage ..).trans known
  control := rfl

theorem deferredAccount {entry : Nat} {accounts : Table Address Bool} {warm : Bool}
    (here : accounts.row entry = some warm) (now : warm = true ↔ set)
    (elsewhere : ∀ other, other ≠ entry → accounts.row other = self.deferredWarmth.accounts.row other)
    (keys : ∀ other address, self.deferredWarmth.accounts.key other = some address →
      accounts.key other = some address) :
    Toggles self { self with deferredWarmth := { self.deferredWarmth with accounts } }
      (.deferredWarmAccount entry) set where
  marked other := by
    cases other with
    | deferredWarmAccount other =>
        rw [Marked, Marked]
        by_cases same : other = entry
        · subst same
          simp [here, now]
        · simp [same, elsewhere other same]
    | warmAccount other => simp [Marked, accountStamp]
    | warmStorage other => simp [Marked, slotStamp]
    | _ => simp [Marked]
  warmKeyOf other key known := by
    cases other with
    | deferredWarmAccount other =>
        obtain ⟨address, held, same⟩ := Option.map_eq_some_iff.mp known
        rw [WorldState.warmKeyOf, keys other address held, Option.map_some, same]
    | _ => exact known
  control := rfl

theorem deferredSlot {entry : Nat} {storage : Table TransientKey Bool} {warm : Bool}
    (here : storage.row entry = some warm) (now : warm = true ↔ set)
    (elsewhere : ∀ other, other ≠ entry → storage.row other = self.deferredWarmth.storage.row other)
    (keys : ∀ other key, self.deferredWarmth.storage.key other = some key →
      storage.key other = some key) :
    Toggles self { self with deferredWarmth := { self.deferredWarmth with storage } }
      (.deferredWarmStorage entry) set where
  marked other := by
    cases other with
    | deferredWarmStorage other =>
        rw [Marked, Marked]
        by_cases same : other = entry
        · subst same
          simp [here, now]
        · simp [same, elsewhere other same]
    | warmAccount other => simp [Marked, accountStamp]
    | warmStorage other => simp [Marked, slotStamp]
    | _ => simp [Marked]
  warmKeyOf other key known := by
    cases other with
    | deferredWarmStorage other =>
        obtain ⟨held, found, same⟩ := Option.map_eq_some_iff.mp known
        rw [WorldState.warmKeyOf, keys other held found, Option.map_some, same]
    | _ => exact known
  control := rfl

theorem pushed {entry other : Entry} (toggles : Toggles (self.push other) after entry set) :
    Toggles self after entry set where
  marked place := by
    have same : (self.push other).Marked place ↔ self.Marked place := by cases place <;> exact Iff.rfl
    rw [toggles.marked, same]
  warmKeyOf place key known := by
    refine toggles.warmKeyOf place key ?_
    cases place <;> exact known
  control := toggles.control

end Toggles

theorem row_of_cold {κ : Type} [DecidableEq κ] {table : Table κ Bool} {key : κ} {entry : Nat}
    (cold : (table.value key).getD false = false)
    (found : (table.put key true).find key = some entry) : table.row entry ≠ some true := by
  intro held
  obtain ⟨other, otherKey⟩ := Table.key_eq_some_of_row held
  have kept : (table.put key true).key entry = some other := Table.key_put true otherKey
  rw [Table.find_eq_some.mp found] at kept
  obtain rfl := Option.some.inj kept
  rw [Table.value_eq_row otherKey, held] at cold
  cases cold

/-- What every warming does. -/
structure Warms (env : Env) (before : WorldState) (key : WarmKey) (entry : Entry)
    (after : WorldState) : Prop where
  journal : after.journal = entry :: before.journal
  cold : ¬before.Marked entry
  toggles : Toggles before after entry True
  key : after.warmKeyOf entry = some key
  closed : env.growsOnTouch = false → after.deferredWarmth = before.deferredWarmth

theorem Warming.warms (warming : Warming env self key entry after) :
    Warms env self key entry after := by
  have yes : ∀ {value : Generation}, value = value ↔ True := iff_of_true rfl trivial
  cases warming with
  | @account id address row key held cold =>
      refine ⟨rfl, fun marked => ?_, Toggles.pushed (Toggles.account held yes), ?_, fun _ => rfl⟩
      · rw [Marked, accountStamp, held] at marked
        exact cold (Option.some.inj marked)
      · rw [warmKeyOf_updateAccount, warmKeyOf]
        exact congrArg (Option.map WarmKey.account) key
  | @slot id key row place held cold =>
      refine ⟨rfl, fun marked => ?_, Toggles.pushed (Toggles.slot held yes), ?_, fun _ => rfl⟩
      · rw [Marked, slotStamp, held] at marked
        exact cold (Option.some.inj marked)
      · rw [warmKeyOf_updateStorage, warmKeyOf]
        exact congrArg (Option.map fun place => WarmKey.slot ⟨place.1, place.2⟩) place
  | @deferredAccount address entry grows cold found =>
      refine ⟨rfl, fun marked => ?_, ?_, ?_, fun closed => ?_⟩
      · exact row_of_cold cold found marked
      · refine @Toggles.pushed _ _ _ _ (.deferredWarmAccount entry) ?_
        exact Toggles.deferredAccount (Table.row_put_same found) (iff_of_true rfl trivial)
          (fun other differs => Table.row_put_other found differs)
          (fun other key held => Table.key_put true held)
      · rw [warmKeyOf]
        exact congrArg (Option.map WarmKey.account) (Table.find_eq_some.mp found)
      · rw [grows] at closed
        cases closed
  | @deferredSlot key entry grows cold found =>
      refine ⟨rfl, fun marked => ?_, ?_, ?_, fun closed => ?_⟩
      · exact row_of_cold cold found marked
      · refine @Toggles.pushed _ _ _ _ (.deferredWarmStorage entry) ?_
        exact Toggles.deferredSlot (Table.row_put_same found) (iff_of_true rfl trivial)
          (fun other differs => Table.row_put_other found differs)
          (fun other key held => Table.key_put true held)
      · rw [warmKeyOf]
        exact congrArg (Option.map WarmKey.slot) (Table.find_eq_some.mp found)
      · rw [grows] at closed
        cases closed

/-! ## Pushing and popping warmings -/

theorem Toggles.warmKeys_kept {set : Prop} (toggles : Toggles self after entry set)
    (keyed : ∀ entry ∈ journal, entry.isWarming = true → (self.warmKeyOf entry).isSome = true) :
    after.warmKeys journal = self.warmKeys journal := by
  refine warmKeys_congr fun entry member => ?_
  cases warming : entry.isWarming with
  | true =>
      obtain ⟨key, known⟩ := Option.isSome_iff_exists.mp (keyed entry member warming)
      rw [known, toggles.warmKeyOf entry key known]
  | false => cases entry <;> first | rfl | cases warming

theorem Journaled.warmed (journaled : Journaled env self) (warms : Warms env self key entry after) :
    Journaled env after := by
  have warming := warmKeyOf_isWarming warms.key
  have fresh : entry ∉ self.journal :=
    fun member => warms.cold ((journaled.marked entry).mpr ⟨member, warming⟩)
  refine ⟨fun other => ?_, ?_, ?_, fun closed => ?_⟩
  · rw [warms.toggles.marked, warms.journal, journaled.marked, List.mem_cons]
    by_cases same : other = entry
    · subst same
      simp [warming]
    · simp [same]
  · rw [warms.journal, List.filter_cons_of_pos warming, List.nodup_cons]
    exact ⟨fun member => fresh (List.mem_filter.mp member).1, journaled.once⟩
  · rw [warms.journal]
    rintro other member otherWarming
    rcases List.mem_cons.mp member with rfl | earlier
    · rw [warms.key]
      rfl
    · obtain ⟨held, known⟩ :=
        Option.isSome_iff_exists.mp (journaled.keyed other earlier otherWarming)
      rw [warms.toggles.warmKeyOf other held known]
      rfl
  · rw [warms.closed closed]
    exact journaled.deferred closed

/-- Undoing a warming clears its mark. -/
theorem Undone.toggles (undone : Undone self entry after) (begun : self.lifetime.transaction ≠ 0)
    (warming : entry.isWarming = true) (marked : self.Marked entry) :
    Toggles self after entry False := by
  have cleared : (0 : Generation) = self.lifetime.transaction ↔ False :=
    iff_of_false begun.symm not_false
  cases undone with
  | warmAccount id =>
      obtain ⟨row, held, -⟩ := Option.map_eq_some_iff.mp marked
      exact Toggles.account held cleared
  | warmStorage id =>
      obtain ⟨row, held, -⟩ := Option.map_eq_some_iff.mp marked
      exact Toggles.slot held cleared
  | deferredWarmAccount entry =>
      have held : self.deferredWarmth.accounts.row entry = some true := marked
      obtain ⟨key, keyed⟩ := Table.key_eq_some_of_row held
      exact Toggles.deferredAccount (Table.row_set_same keyed _)
        (iff_of_false Bool.false_ne_true not_false)
        (fun other differs => Table.row_set_other _ differs _)
        fun other address found => (Table.key_set ..).trans found
  | deferredWarmStorage entry =>
      have held : self.deferredWarmth.storage.row entry = some true := marked
      obtain ⟨key, keyed⟩ := Table.key_eq_some_of_row held
      exact Toggles.deferredSlot (Table.row_set_same keyed _) (iff_of_false Bool.false_ne_true not_false)
        (fun other differs => Table.row_set_other _ differs _)
        fun other address found => (Table.key_set ..).trans found
  | _ => cases warming

/-- Undoing any other entry leaves the marks alone. -/
theorem Undone.undisturbed (undone : Undone self entry after) (aside : entry.isWarming = false) :
    Undisturbed self after := by
  have journal := undone.journal
  have control := undone.control
  cases undone with
  | account held => exact .account rfl (fun _ => rfl) rfl control journal
  | storage undo index => exact .storage rfl (fun _ => rfl) rfl control journal
  | accountStorageDirty id => exact .account rfl (fun _ => rfl) rfl control journal
  | transientStorage key previous => exact .world rfl rfl control journal
  | introducedCode blockId => exact .world rfl rfl control journal
  | _ => cases aside

theorem Undone.deferred (undone : Undone self entry after)
    (empty : self.deferredWarmth = ⟨Table.empty, Table.empty⟩) :
    after.deferredWarmth = ⟨Table.empty, Table.empty⟩ := by
  cases undone with
  | deferredWarmAccount entry =>
      dsimp only
      rw [empty, Table.set_empty]
  | deferredWarmStorage entry =>
      dsimp only
      rw [empty, Table.set_empty]
  | _ => exact empty

/-- Popping an entry. -/
theorem Journaled.popped {older : Journal} (journaled : Journaled env self)
    (begun : self.lifetime.transaction ≠ 0) (journal : self.journal = entry :: older)
    (undone : Undone { self with journal := older } entry after) :
    Journaled env after ∧ ∀ kept, (∀ other ∈ kept, other ∈ older) →
      after.warmKeys kept = self.warmKeys kept := by
  let bare : WorldState := { self with journal := older }
  have bareKeys : ∀ entry, bare.warmKeyOf entry = self.warmKeyOf entry := by
    intro entry
    cases entry <;> rfl
  have bareMarks : ∀ entry, bare.Marked entry ↔ self.Marked entry := by
    intro entry
    cases entry <;> exact Iff.rfl
  have keyed : ∀ other ∈ older, other.isWarming = true → (bare.warmKeyOf other).isSome = true := by
    intro other member warming
    rw [bareKeys]
    refine journaled.keyed other ?_ warming
    rw [journal]
    exact List.mem_cons_of_mem _ member
  have once := journaled.once
  rw [journal] at once
  cases warming : entry.isWarming with
  | false =>
      rw [List.filter_cons_of_neg (by rw [warming]; exact Bool.false_ne_true)] at once
      have bareJournaled : Journaled env bare := by
        refine ⟨fun other => ?_, once, keyed, journaled.deferred⟩
        rw [bareMarks, journaled.marked, journal, List.mem_cons]
        refine and_congr_left fun otherWarming => or_iff_right ?_
        rintro rfl
        rw [warming] at otherWarming
        cases otherWarming
      have aside := undone.undisturbed warming
      refine ⟨bareJournaled.undisturbed aside begun, fun kept within => ?_⟩
      rw [bareJournaled.warmKeys_kept aside within]
      exact warmKeys_congr fun entry _ => bareKeys entry
  | true =>
      rw [List.filter_cons_of_pos warming, List.nodup_cons] at once
      have marked : bare.Marked entry := by
        rw [bareMarks, journaled.marked, journal]
        exact ⟨List.mem_cons_self, warming⟩
      have toggles := undone.toggles begun warming marked
      have fresh : entry ∉ older := fun member => once.1 (List.mem_filter.mpr ⟨member, warming⟩)
      refine ⟨⟨fun other => ?_, ?_, fun other member otherWarming => ?_, fun closed => ?_⟩,
        fun kept within => ?_⟩
      · rw [toggles.marked, bareMarks, journaled.marked, undone.journal, journal, List.mem_cons]
        by_cases same : other = entry
        · subst same
          simp [fresh]
        · simp [same]
      · rw [undone.journal]
        exact once.2
      · rw [undone.journal] at member
        obtain ⟨key, known⟩ := Option.isSome_iff_exists.mp (keyed other member otherWarming)
        rw [toggles.warmKeyOf other key known]
        rfl
      · exact undone.deferred (journaled.deferred closed)
      · rw [toggles.warmKeys_kept fun other member => keyed other (within other member)]
        exact warmKeys_congr fun entry _ => bareKeys entry

theorem Journaled.unwound {count : Nat} (journaled : Journaled env self)
    (begun : self.lifetime.transaction ≠ 0) (ran : popEntries count self = .ok () after) :
    Journaled env after ∧ ∀ kept, (∀ entry ∈ kept, entry ∈ self.journal.drop count) →
      after.warmKeys kept = self.warmKeys kept := by
  induction count generalizing self with
  | zero =>
      cases ran
      exact ⟨journaled, fun _ _ => rfl⟩
  | succ count ih =>
      obtain ⟨entry, older, middle, journal, undone, rest⟩ := popEntries_succ ran
      have restored := undoEntry_ran undone
      obtain ⟨middleJournaled, keys⟩ := journaled.popped begun journal restored
      have control := restored.control
      obtain ⟨last, lastKeys⟩ := ih middleJournaled
        (by rw [control.lifetime]; exact begun) rest
      refine ⟨last, fun kept within => ?_⟩
      rw [journal, List.drop_succ_cons] at within
      rw [lastKeys kept (by rw [restored.journal]; exact within)]
      exact keys kept fun entry member => List.mem_of_mem_drop (within entry member)

end WorldState

end EvmZig.State
