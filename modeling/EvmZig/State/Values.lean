import EvmZig.State.Readable

/-!
# Which accounts a call changes

`accounts env touched` is the discipline of calls that add rows, change no
account outside `touched`, and leave every lifecycle mark as it is.  Reads
change no account, and a write leaves the value it was given at its own address.
-/

set_option autoImplicit false

namespace EvmZig.State

open Lib Zig

/-- The marks lifecycle finalisation looks at. -/
structure LifecycleMarks where
  created : Bool
  selfdestructed : Bool
  deriving DecidableEq

def AccountFlags.marks (flags : AccountFlags) : LifecycleMarks where
  created := flags.created
  selfdestructed := flags.selfdestructed

def LifecycleMarks.Any (marks : LifecycleMarks) : Prop :=
  marks.created = true ∨ marks.selfdestructed = true

/-- The value of an account, whether it was touched, and its marks. -/
structure AccountFacts where
  current : Option Account
  touched : Bool
  marks : LifecycleMarks
  lifecycleTransaction : Generation
  deriving DecidableEq

/-- The facts with another balance; an absent account is created. -/
def AccountFacts.withBalance (facts : AccountFacts) (balance : U256) : AccountFacts :=
  { facts with current := some { facts.current.getD {} with balance } }

/-- The facts once the account is touched. -/
def AccountFacts.touch (facts : AccountFacts) : AccountFacts :=
  if facts.touched then facts
  else { facts with current := some (facts.current.getD {}), touched := true }

def AccountRow.facts (row : AccountRow) : AccountFacts where
  current := row.current
  touched := row.flags.touched
  marks := row.flags.marks
  lifecycleTransaction := row.lifecycleTransaction

/-- The account records of a journal. -/
def Journal.accountUndos (journal : Journal) : List AccountUndo :=
  journal.filterMap fun entry =>
    match entry with
    | .account undo => some undo
    | _ => none

/-- The balance of an account value; zero where there is no account. -/
def WorldState.balanceOf (account : Option Account) : U256 :=
  match account with
  | some account => account.balance
  | none => 0

open WorldState (balanceOf)

/-- The facts once an amount is credited. -/
def AccountFacts.credited (facts : AccountFacts) (amount : U256) : AccountFacts :=
  if amount = 0 then facts else facts.withBalance (balanceOf facts.current + amount)

theorem AccountFacts.credited_balance {facts : AccountFacts} {amount : U256}
    (fits : (balanceOf facts.current).val + amount.val < 2 ^ 256) :
    (balanceOf (facts.credited amount).current).val = (balanceOf facts.current).val + amount.val := by
  unfold credited
  split
  · rename_i zero
    rw [zero]
    rfl
  · exact Fin.val_add_eq_of_add_lt fits

theorem AccountFacts.credited_touched (facts : AccountFacts) (amount : U256) :
    (facts.credited amount).touched = facts.touched := by
  unfold credited
  split <;> rfl

theorem AccountFacts.credited_absent {facts : AccountFacts} {amount : U256} :
    (facts.credited amount).current = none ↔ facts.current = none ∧ amount = 0 := by
  unfold credited
  split
  · rename_i zero
    exact ⟨fun absent => ⟨absent, zero⟩, fun both => both.1⟩
  · rename_i nonzero
    exact ⟨fun absent => (nomatch absent), fun both => absurd both.2 nonzero⟩

theorem AccountFacts.touch_balance (facts : AccountFacts) :
    balanceOf facts.touch.current = balanceOf facts.current := by
  unfold touch
  split
  · rfl
  · cases facts.current <;> rfl

theorem AccountFacts.touch_absent {facts : AccountFacts} :
    facts.touch.current = none ↔ facts.current = none ∧ facts.touched = true := by
  unfold touch
  split
  · rename_i already
    exact ⟨fun absent => ⟨absent, already⟩, fun both => both.1⟩
  · rename_i fresh
    exact ⟨fun absent => (nomatch absent), fun both => absurd both.2 fresh⟩

namespace WorldState

def factsAt (env : Env) (self : WorldState) (address : Address) : AccountFacts :=
  (self.accountAt env address).facts

theorem factsAt_current (env : Env) (self : WorldState) (address : Address) :
    (self.factsAt env address).current = self.accountValue env address := rfl

/-- The lists and stamps of the lifecycle, besides the rows. -/
structure SameLifecycle (before after : WorldState) : Prop where
  listed : after.lifecycleAccounts = before.lifecycleAccounts
  transaction : after.lifetime.transaction = before.lifetime.transaction

/-- Rows stay, and the accounts outside `touched` keep their facts. -/
structure KeepsAccounts (env : Env) (touched : Address → Prop) (before after : WorldState) : Prop
    extends SameLifecycle before after where
  key : ∀ id address, before.world.accounts.key id = some address →
    after.world.accounts.key id = some address
  facts : ∀ address, ¬touched address → after.factsAt env address = before.factsAt env address
  marks : ∀ address, (after.factsAt env address).marks = (before.factsAt env address).marks
  stamp : ∀ address, (after.factsAt env address).lifecycleTransaction =
    (before.factsAt env address).lifecycleTransaction
  /-- A record taken since holds the marks the account had. -/
  undos : ∀ undo ∈ Journal.accountUndos after.journal, undo ∈ Journal.accountUndos before.journal ∨
    ∃ address, after.world.accounts.key undo.account = some address ∧
      undo.flags.marks = (before.factsAt env address).marks

theorem KeepsAccounts.value {env : Env} {touched : Address → Prop} {before after : WorldState}
    (kept : KeepsAccounts env touched before after) {address : Address} (outside : ¬touched address) :
    after.accountValue env address = before.accountValue env address := by
  rw [← factsAt_current, ← factsAt_current, kept.facts address outside]

theorem KeepsAccounts.refl {env : Env} {touched : Address → Prop} (self : WorldState) :
    KeepsAccounts env touched self self :=
  ⟨⟨rfl, rfl⟩, fun _ _ found => found, fun _ _ => rfl, fun _ => rfl, fun _ => rfl,
    fun _ member => .inl member⟩

theorem KeepsAccounts.trans {env : Env} {touched : Address → Prop} {first second third : WorldState}
    (left : KeepsAccounts env touched first second)
    (right : KeepsAccounts env touched second third) : KeepsAccounts env touched first third where
  listed := right.listed.trans left.listed
  transaction := right.transaction.trans left.transaction
  key id address found := right.key id address (left.key id address found)
  facts address outside := (right.facts address outside).trans (left.facts address outside)
  marks address := (right.marks address).trans (left.marks address)
  stamp address := (right.stamp address).trans (left.stamp address)
  undos undo member := by
    rcases right.undos undo member with older | ⟨address, key, same⟩
    · rcases left.undos undo older with oldest | ⟨address, key, same⟩
      · exact .inl oldest
      · exact .inr ⟨address, right.key _ _ key, same⟩
    · exact .inr ⟨address, key, same.trans (left.marks address)⟩

/-- What changes no account is within any bound. -/
theorem KeepsAccounts.widen {env : Env} {touched : Address → Prop} {before after : WorldState}
    (kept : KeepsAccounts env (fun _ => False) before after) :
    KeepsAccounts env touched before after :=
  ⟨kept.toSameLifecycle, kept.key, fun address _ => kept.facts address id, kept.marks, kept.stamp,
    kept.undos⟩

def accounts (env : Env) (touched : Address → Prop) : Discipline WorldState where
  inv _ := True
  rel := KeepsAccounts env touched
  refl _ := .refl _
  trans := .trans

/-- The calls that change no account value. -/
def reading (env : Env) : Discipline WorldState := accounts env fun _ => False

variable {env : Env} {touched : Address → Prop} {licence : Licence} {self after : WorldState}
  {α : Type} {body : Method α} {value : U256} {pre : WorldState → Prop}
  {post : α → WorldState → Prop} {address : Address} {held : AccountFacts} {id : AccountId}

/-! ## Using the discipline -/

theorem reading_ok {value : α} (safe : Safe (reading env) body) (ran : body self = .ok value after) :
    KeepsAccounts env (fun _ => False) self after := by
  have allowed := safe self trivial trivial
  rw [ran] at allowed
  exact allowed.2.1

theorem keeps_ok {pre : WorldState → Prop} {post : α → WorldState → Prop} {body : Method α} {value : α}
    (kept : Keeps (accounts env touched) pre body post) (holds : pre self)
    (ran : body self = .ok value after) :
    KeepsAccounts env touched self after ∧ post value after := by
  have allowed := kept self trivial holds
  rw [ran] at allowed
  exact allowed.2

/-- What a read changes, nothing, is within any bound; and the facts it found stay. -/
theorem reading_within (kept : Keeps (reading env) pre body post) :
    Keeps (accounts env touched) (fun self => self.factsAt env address = held ∧ pre self) body
      fun value after => after.factsAt env address = held ∧ post value after := by
  intro self invariant holds
  have carried := kept.carry (fun before after (rel : KeepsAccounts env (fun _ => False) before after)
    (found : before.factsAt env address = held) => (rel.facts address id).trans found)
    self invariant holds
  cases outcome : body self with
  | illegal => trivial
  | fail error after =>
      rw [outcome] at carried
      exact ⟨carried.1, carried.2.widen⟩
  | ok value after =>
      rw [outcome] at carried
      exact ⟨carried.1, carried.2.1.widen, carried.2.2⟩

theorem accounts_key (kept : Keeps (accounts env touched) pre body post) :
    Keeps (accounts env touched) (fun self => self.world.accounts.key id = some address ∧ pre self) body
      fun value after => after.world.accounts.key id = some address ∧ post value after :=
  kept.carry fun _ _ rel found => rel.key id address found

/-- The same where nothing else is assumed of the body. -/
theorem accounts_key_of_safe (safe : Safe (accounts env touched) body) :
    Keeps (accounts env touched) (fun self => self.world.accounts.key id = some address) body
      fun _ after => after.world.accounts.key id = some address :=
  (accounts_key safe).imp (fun _ key => ⟨key, trivial⟩) fun _ _ holds => holds.1

/-! ## Assignments -/

/-- An assignment outside the account rows that takes no account record. -/
structure Aside (before after : WorldState) : Prop extends SameLifecycle before after where
  undos : Journal.accountUndos after.journal = Journal.accountUndos before.journal

theorem KeepsAccounts.of_facts (aside : Aside self after)
    (key : ∀ id address, self.world.accounts.key id = some address →
      after.world.accounts.key id = some address)
    (facts : ∀ address, after.factsAt env address = self.factsAt env address) :
    KeepsAccounts env touched self after where
  toSameLifecycle := aside.toSameLifecycle
  key := key
  facts address _ := facts address
  marks address := by rw [facts]
  stamp address := by rw [facts]
  undos undo member := .inl (aside.undos ▸ member)

theorem KeepsAccounts.of_accounts (same : after.world.accounts = self.world.accounts)
    (aside : Aside self after) : KeepsAccounts env touched self after :=
  .of_facts aside (fun id address found => by rw [same, found])
    fun address => by rw [factsAt, factsAt, accountAt, accountAt, same]

theorem accountAt_updateAccount (key : self.world.accounts.key id = some address)
    (update : AccountRow → AccountRow) :
    (self.updateAccount id update).accountAt env address = update (self.accountAt env address) := by
  obtain ⟨row, held⟩ := Table.row_eq_some_of_key key
  rw [accountAt_of_row key held, accountAt, accounts_updateAccount held, Table.value_set_same key]
  rfl

theorem accountAt_updateAccount_other {other : Address}
    (key : self.world.accounts.key id = some address) (differs : other ≠ address)
    (update : AccountRow → AccountRow) :
    (self.updateAccount id update).accountAt env other = self.accountAt env other := by
  obtain ⟨row, held⟩ := Table.row_eq_some_of_key key
  rw [accountAt, accountAt, accounts_updateAccount held, Table.value_set_other key differs]

theorem updateAccount_of_missing (missing : self.world.accounts.key id = none)
    (update : AccountRow → AccountRow) : self.updateAccount id update = self := by
  have noRow : self.world.accounts.row id = none := by
    cases held : self.world.accounts.row id with
    | none => rfl
    | some row =>
        obtain ⟨other, otherKey⟩ := Table.key_eq_some_of_row held
        rw [otherKey] at missing
        cases missing
  rw [updateAccount, World.updateAccount, noRow]

theorem factsAt_updateAccount {id : AccountId} {update : AccountRow → AccountRow}
    (facts : ∀ row, (update row).facts = row.facts) (address : Address) :
    (self.updateAccount id update).factsAt env address = self.factsAt env address := by
  cases found : self.world.accounts.key id with
  | none => rw [updateAccount_of_missing found]
  | some other =>
      by_cases same : address = other
      · subst same
        rw [factsAt, accountAt_updateAccount found, facts]
        rfl
      · rw [factsAt, accountAt_updateAccount_other found same]
        rfl

/-- An assignment that leaves the facts of its row alone. -/
theorem KeepsAccounts.assigned {before : WorldState} {update : AccountRow → AccountRow}
    (same : after.world.accounts = (before.updateAccount id update).world.accounts)
    (started : before.world.accounts = self.world.accounts)
    (facts : ∀ row, (update row).facts = row.facts) (aside : Aside self after) :
    KeepsAccounts env touched self after := by
  refine .of_facts aside ?_ ?_
  · intro other address found
    rw [same, key_updateAccount, started, found]
  · intro address
    have assigned := @factsAt_updateAccount env before id update facts address
    rw [factsAt, accountAt] at assigned ⊢
    rw [same, assigned, factsAt, factsAt, accountAt, accountAt, started]

/-- An assignment to a storage row, among others outside the account rows. -/
theorem KeepsAccounts.stored {before : WorldState} {id : StorageId}
    {update : StorageRow → StorageRow}
    (same : after.world.accounts = (before.updateStorage id update).world.accounts)
    (started : before.world.accounts = self.world.accounts) (aside : Aside self after) :
    KeepsAccounts env touched self after :=
  .of_accounts (by rw [same, accounts_updateStorage, started]) aside

/-- An undo record taken of a row of known key. -/
theorem KeepsAccounts.journaled {row : AccountRow} (effect : AccountEffect)
    (held : self.world.accounts.row id = some row) :
    KeepsAccounts env touched self ((self.push (.account (accountUndo id row effect))).updateAccount id
      fun row => { row with journaledScope := self.lifetime.scope }) := by
  obtain ⟨address, key⟩ := Table.key_eq_some_of_row held
  have facts : ∀ entry other, factsAt env ((self.push entry).updateAccount id fun row =>
      { row with journaledScope := self.lifetime.scope }) other = self.factsAt env other :=
    fun entry => @factsAt_updateAccount env (self.push entry) id _ fun _ => rfl
  refine ⟨⟨rfl, rfl⟩, ?_, fun other _ => facts _ other, fun other => by rw [facts],
    fun other => by rw [facts], ?_⟩
  · intro other place found
    rw [key_updateAccount]
    exact found
  · intro undo member
    rcases List.mem_cons.mp member with taken | older
    · subst taken
      refine .inr ⟨address, ?_, ?_⟩
      · rw [key_updateAccount]
        exact key
      · rw [factsAt, accountAt_of_row key held]
        rfl
    · exact .inl older

theorem markStorageDirty_accounts (id : AccountId) (needsUndo : Bool) :
    KeepsAccounts env touched self (markStorageDirty id needsUndo self) := by
  unfold markStorageDirty
  cases needsUndo <;> exact .assigned rfl rfl (fun _ => rfl) ⟨⟨rfl, rfl⟩, rfl⟩

theorem storeSlot_accounts {resolved : ResolvedStorage} {account : AccountRow} {row : StorageRow}
    (effect : StorageEffect) (value : U256) :
    KeepsAccounts env touched self (storeSlot resolved account row effect value self) := by
  have journaled : KeepsAccounts env touched self (journalSlotFirst resolved.storage row effect
      self) := by
    unfold journalSlotFirst
    split
    · exact .stored rfl rfl ⟨⟨rfl, rfl⟩, rfl⟩
    · exact .refl self
  exact (journaled.trans (markStorageDirty_accounts resolved.account _)).trans
    (.stored rfl rfl ⟨⟨rfl, rfl⟩, rfl⟩)

/-! ## Changes that write no account -/

theorem Change.keepsAccounts (step : Change env licence self after) (aside : ¬licence.WritesAccounts) :
    KeepsAccounts env touched self after := by
  have final : licence ≠ .finalization := by
    rintro rfl
    exact aside trivial
  cases step with
  | warmedSlot => exact .stored rfl rfl ⟨⟨rfl, rfl⟩, rfl⟩
  | warmedAccount => exact .assigned rfl rfl (fun _ => rfl) ⟨⟨rfl, rfl⟩, rfl⟩
  | deferredAccount => exact .of_accounts rfl ⟨⟨rfl, rfl⟩, rfl⟩
  | deferredSlot => exact .of_accounts rfl ⟨⟨rfl, rfl⟩, rfl⟩
  | assigned step =>
      cases step with
      | admittedAccount address fresh =>
          exact .of_facts ⟨⟨rfl, rfl⟩, rfl⟩ (fun id other found => Table.key_admitRow fresh found)
            fun other => congrArg AccountRow.facts (accountAt_admitAccount self address fresh other)
      | journaled held running current found => exact .journaled _ held
      | wroteSlot storable found value => exact storeSlot_accounts _ value
      | cachedOriginal => exact .stored rfl rfl ⟨⟨rfl, rfl⟩, rfl⟩
      | observedSlot => exact .stored rfl rfl ⟨⟨rfl, rfl⟩, rfl⟩
      | boundCode => exact .assigned rfl rfl (fun _ => rfl) ⟨⟨rfl, rfl⟩, rfl⟩
      | observedAccount => exact .assigned rfl rfl (fun _ => rfl) ⟨⟨rfl, rfl⟩, rfl⟩
      | blockChanged => exact .assigned rfl rfl (fun _ => rfl) ⟨⟨rfl, rfl⟩, rfl⟩
      | transactionDirty => exact .assigned rfl rfl (fun _ => rfl) ⟨⟨rfl, rfl⟩, rfl⟩
      | wiped => exact .assigned rfl rfl (fun _ => rfl) ⟨⟨rfl, rfl⟩, rfl⟩
      | stored code introduces => exact absurd (writes_of_introduces introduces) aside
      | introduced running introduced introduces => exact absurd (writes_of_introduces introduces) aside
      | cleared logs retained introduces => exact absurd (writes_of_introduces introduces) aside
      | wrote assignable found value allowed ref writes => exact absurd writes aside
      | touched assignable first writes => exact absurd writes aside
      | enlisted assignable first writes => exact absurd writes aside
      | created assignable found writes => exact absurd writes aside
      | selfdestructed assignable found writes => exact absurd writes aside
      | settledCreation finalizes => exact absurd finalizes final
      | settledDestruction finalizes => exact absurd finalizes final
      | _ => exact .of_accounts rfl ⟨⟨rfl, rfl⟩, rfl⟩

theorem Changed.keepsAccounts (steps : Changed env licence self after)
    (aside : ¬licence.WritesAccounts) : KeepsAccounts env touched self after := by
  induction steps with
  | refl => exact .refl self
  | tail _ step ih => exact ih.trans (Change.keepsAccounts step aside)

/-- A call that writes no account keeps them all. -/
theorem accounts_of_changes {pre : WorldState → Prop} {post : α → WorldState → Prop} {body : Method α}
    (aside : ¬licence.WritesAccounts) (kept : Keeps (changes env licence) pre body post) :
    Keeps (accounts env touched) pre body post :=
  kept.relate (fun _ _ => trivial) fun _ _ _ _ steps => ⟨trivial, Changed.keepsAccounts steps aside⟩

theorem accounts_of_reading (kept : Keeps (assignments env .reading) pre body post) :
    Keeps (accounts env touched) pre body post :=
  @accounts_of_changes env touched .reading _ _ _ _ (fun writes => writes) (changes_of_assignments kept)

theorem modify_accounts {update : WorldState → WorldState}
    (kept : ∀ self, KeepsAccounts env touched self (update self)) :
    Safe (accounts env touched) (Action.modify update : Method Unit) :=
  Keeps.modify fun self _ _ => ⟨trivial, kept self, trivial⟩

/-! ## Reads -/

theorem reserve_accounts : Safe (accounts env touched) (reserve env) :=
  accounts_of_reading (reserve_assigned fun _ _ holds => holds)

theorem requireAccount_accounts (address : Address) :
    Keeps (accounts env touched) (fun _ => True) (requireAccount env address)
      fun id after => after.world.accounts.key id = some address :=
  accounts_of_reading (requireAccount_assigned address)

theorem observeAccount_accounts (id : AccountId) (observation : AccountObservation) :
    Safe (accounts env touched) (observeAccount env id observation) :=
  accounts_of_reading (observeAccount_safe_assigned id observation)

theorem updateAccountEffect_accounts (id : AccountId) (update : AccountEffect → AccountEffect) :
    Safe (accounts env touched) (updateAccountEffect id update) :=
  Safe.bind (accountRow_looks id).safe fun _ =>
    Safe.bind (accountObservation_looks id).safe fun _ => modify_accounts fun _ =>
      .of_accounts rfl ⟨⟨rfl, rfl⟩, rfl⟩

/-- A read returns the value, and leaves every account as it is. -/
theorem readAccount_accounts (address : Address) (observation : AccountObservation) :
    Keeps (accounts env touched) (fun _ => True) (readAccount env address observation)
      fun value after => value = after.accountValue env address := by
  unfold readAccount
  refine Keeps.bind (requireAccount_accounts address) fun id =>
    Keeps.bind (accounts_key_of_safe isAttemptOpen_looks.safe) fun isOpen =>
    Keeps.bind (accounts_key_of_safe (Safe.when (observeAccount_accounts id observation))) fun _ =>
    Keeps.bind (accountRow_reads id) fun row => Keeps.returns ?_
  rintro _ after ⟨rfl, held, key⟩
  rw [accountValue, accountAt_of_row key held]

theorem getAccount_accounts (address : Address) :
    Keeps (accounts env touched) (fun _ => True) (getAccount env address)
      fun value after => value = after.accountValue env address :=
  readAccount_accounts address _

/-- The value a read returns is the one it started from. -/
theorem getAccount_ok {account : Option Account}
    (ran : getAccount env address self = .ok account after) :
    account = self.accountValue env address ∧ KeepsAccounts env (fun _ => False) self after := by
  obtain ⟨kept, found⟩ := @keeps_ok env (fun _ => False) _ _ _ _ _ _ _ (getAccount_accounts address)
    trivial ran
  exact ⟨found.trans (kept.value id), kept⟩

theorem getBalance_accounts (address : Address) :
    Keeps (accounts env touched) (fun _ => True) (getBalance env address)
      fun value after => value = balanceOf (after.accountValue env address) := by
  unfold getBalance
  refine Keeps.bind (readAccount_accounts address _) fun account =>
    Keeps.returns ?_
  rintro _ after ⟨rfl, rfl⟩
  rfl

/-! ## Rows of known facts -/

/-- The facts of an address whose row is known. -/
def FactsOf (env : Env) (id : AccountId) (address : Address) (held : AccountFacts)
    (self : WorldState) : Prop :=
  self.world.accounts.key id = some address ∧ self.factsAt env address = held

theorem FactsOf.row {row : AccountRow} (known : FactsOf env id address held self)
    (rowHeld : self.world.accounts.row id = some row) : row.facts = held := by
  rw [← known.2, factsAt, accountAt_of_row known.1 rowHeld]

theorem reading_facts (safe : Safe (reading env) body) :
    Keeps (accounts env touched) (FactsOf env id address held) body
      fun _ => FactsOf env id address held := by
  have kept : Keeps (accounts env touched)
      (fun self => self.factsAt env address = held ∧ self.world.accounts.key id = some address) body
      fun _ after => after.factsAt env address = held ∧
        after.world.accounts.key id = some address :=
    reading_within (accounts_key_of_safe safe)
  exact kept.imp (fun _ known => ⟨known.2, known.1⟩) fun _ _ known => ⟨known.2, known.1⟩

theorem requireAccount_facts (address : Address) (held : AccountFacts) :
    Keeps (accounts env touched) (fun self => self.factsAt env address = held)
      (requireAccount env address) fun id => FactsOf env id address held := by
  refine (reading_within (requireAccount_accounts address)).imp (fun _ found => ⟨found, trivial⟩) ?_
  rintro id after ⟨found, key⟩
  exact ⟨key, found⟩

theorem accountRow_facts :
    Keeps (accounts env touched) (FactsOf env id address held) (accountRow id)
      fun row after => row.facts = held ∧ FactsOf env id address held after := by
  refine (accountRow_reads id).weaken ?_
  rintro row after ⟨rowHeld, known⟩
  exact ⟨known.row rowHeld, known⟩

/-- The row behind an id has the facts of its address. -/
theorem accountRow_known (id : AccountId) :
    Keeps (accounts env touched) (fun _ => True) (accountRow id)
      fun row after => ∃ address, FactsOf env id address row.facts after := by
  refine (accountRow_reads id).weaken ?_
  rintro row after ⟨held, -⟩
  obtain ⟨address, key⟩ := Table.key_eq_some_of_row held
  refine ⟨address, key, ?_⟩
  rw [factsAt, accountAt_of_row key held]

/-! ## Mutations -/

theorem appendAccountUndo_accounts (id : AccountId) :
    Safe (accounts env touched) (appendAccountUndo id) :=
  Keeps.bind (accountRow_reads id) fun _ => Keeps.bind (accountObservation_looks id).kept fun _ =>
    Keeps.modify fun _ _ known => ⟨trivial, .journaled _ known.1, trivial⟩

theorem prepareAccountMutation_accounts (id : AccountId) :
    Safe (accounts env touched) (prepareAccountMutation env id) := by
  have changed : Safe (accounts env touched) (Action.modify (markBlockChanged id) : Method Unit) :=
    modify_accounts fun _ => .assigned rfl rfl (fun _ => rfl) ⟨⟨rfl, rfl⟩, rfl⟩
  have dirty : Safe (accounts env touched) (Action.modify (markTransactionDirty id) : Method Unit) :=
    modify_accounts fun _ => .assigned rfl rfl (fun _ => rfl) ⟨⟨rfl, rfl⟩, rfl⟩
  exact Safe.bind (accountRow_looks id).safe fun _ => Safe.bind (Safe.assert _) fun _ =>
    Safe.bind Safe.get fun _ =>
    Safe.bind (Safe.when (Safe.bind reserve_accounts fun _ => reserve_accounts)) fun _ =>
    Safe.bind (Safe.when reserve_accounts) fun _ => Safe.bind (Safe.when reserve_accounts) fun _ =>
    Safe.bind (Safe.when (appendAccountUndo_accounts id)) fun _ =>
    Safe.bind (Safe.when changed) fun _ => Safe.when dirty

theorem wipeStorage_accounts (id : AccountId) : Safe (accounts env touched) (wipeStorage env id) := by
  have wiped : ∀ firstBlockWipe firstTransactionWipe incarnation, Safe (accounts env touched)
      (Action.modify (markStorageWiped id firstBlockWipe firstTransactionWipe incarnation) :
        Method Unit) :=
    fun _ _ _ => modify_accounts fun _ => .assigned rfl rfl (fun _ => rfl) ⟨⟨rfl, rfl⟩, rfl⟩
  exact Safe.bind (observeAccount_accounts id _) fun _ =>
    Safe.bind (accountRow_looks id).safe fun _ => Safe.bind Safe.get fun _ =>
    Safe.bind (Safe.when reserve_accounts) fun _ => Safe.bind (Safe.when reserve_accounts) fun _ =>
    Safe.bind (prepareAccountMutation_accounts id) fun _ =>
    Safe.bind (accountRow_looks id).safe fun _ => Safe.bind (Safe.liftOption _) fun _ =>
    wiped _ _ _

/-! ## Writes -/

/-- Assign to a row of known facts. -/
theorem assign_facts {update : WorldState → AccountRow → AccountRow} (assigned : AccountFacts)
    (facts : ∀ self row, row.facts = held → (update self row).facts = assigned)
    (marks : assigned.marks = held.marks)
    (stamp : assigned.lifecycleTransaction = held.lifecycleTransaction) :
    Keeps (accounts env (· = address)) (FactsOf env id address held)
      (Action.modify (fun self => self.updateAccount id (update self)) : Method Unit)
      fun _ => FactsOf env id address assigned := by
  refine Keeps.modify fun self _ known => ?_
  have same : (self.updateAccount id (update self)).factsAt env address = assigned := by
    rw [factsAt, accountAt_updateAccount known.1]
    exact facts self _ known.2
  have others : ∀ other, other ≠ address →
      (self.updateAccount id (update self)).factsAt env other = self.factsAt env other := by
    intro other differs
    rw [factsAt, accountAt_updateAccount_other known.1 differs]
    rfl
  refine ⟨trivial, ⟨⟨rfl, rfl⟩, ?_, others, ?_, ?_, fun _ member => .inl member⟩, ?_, same⟩
  · intro other place found
    rw [key_updateAccount, found]
  · intro other
    by_cases here : other = address
    · rw [here, same, marks, known.2]
    · rw [others other here]
  · intro other
    by_cases here : other = address
    · rw [here, same, stamp, known.2]
    · rw [others other here]
  · rw [key_updateAccount, known.1]

theorem writeAccount_facts (id : AccountId) (address : Address) (value : Option Account)
    (held : AccountFacts) :
    Keeps (accounts env (· = address)) (FactsOf env id address held) (writeAccount env id value)
      fun _ => FactsOf env id address { held with current := value } := by
  unfold writeAccount
  refine Keeps.bind (reading_facts assertMutable_looks.safe) fun _ =>
    Keeps.bind (reading_facts (observeAccount_accounts id _)) fun _ =>
    Keeps.bind (reading_facts (prepareAccountMutation_accounts id)) fun _ =>
    Keeps.bind (reading_facts (accountRow_looks id).safe) fun row =>
    Keeps.bind (reading_facts Safe.get) fun state =>
    Keeps.bind (assign_facts { held with current := value } (fun self row same => ?_) rfl rfl) fun _ =>
      reading_facts (updateAccountEffect_accounts id _)
  subst same
  rfl

/-- Store a value through its address. -/
theorem setBalance_facts (address : Address) (balance : U256) (held : AccountFacts) :
    Keeps (accounts env (· = address)) (fun self => self.factsAt env address = held)
      (setBalance env address balance)
      fun _ after => after.factsAt env address = held.withBalance balance := by
  unfold setBalance
  refine Keeps.bind (requireAccount_facts address held) fun id =>
    Keeps.bind accountRow_facts fun row => Keeps.assuming fun same => ?_
  subst same
  dsimp only
  split
  · rename_i unchanged
    refine Keeps.returns ?_
    rintro _ after ⟨-, -, found⟩
    obtain ⟨account, accountEq⟩ := Option.isSome_iff_exists.mp unchanged.1
    simp only [AccountFacts.withBalance, AccountRow.facts, accountEq,
      Option.getD_some] at unchanged found ⊢
    rw [found, ← unchanged.2]
  · exact (writeAccount_facts id address _ _).weaken fun _ _ known => known.2

theorem touchAccount_facts (address : Address) (held : AccountFacts) :
    Keeps (accounts env (· = address)) (fun self => self.factsAt env address = held)
      (touchAccount env address)
      fun _ after => after.factsAt env address = held.touch := by
  unfold touchAccount
  refine Keeps.bind (requireAccount_facts address held) fun id =>
    Keeps.bind (reading_facts (observeAccount_accounts id _)) fun _ =>
    Keeps.bind accountRow_facts fun row => Keeps.assuming fun same => ?_
  subst same
  split
  · rename_i already
    refine Keeps.returns ?_
    rintro _ after ⟨-, -, found⟩
    have already : row.facts.touched = true := already
    rw [AccountFacts.touch, if_pos already, found]
  · rename_i fresh
    have assigned : Keeps (accounts env (· = address)) (FactsOf env id address row.facts)
        (Action.modify (fun self => self.updateAccount id fun row =>
          { row with
            current := some (row.current.getD {})
            flags := { row.flags with touched := true } }) : Method Unit)
        fun _ => FactsOf env id address
          { row.facts with current := some (row.facts.current.getD {}), touched := true } := by
      refine assign_facts _ (fun _ _ same => ?_) rfl rfl
      rw [← same]
      rfl
    refine Keeps.bind (reading_facts (prepareAccountMutation_accounts id)) fun _ =>
      assigned.weaken fun _ _ known => ?_
    have fresh : ¬row.facts.touched = true := fresh
    rw [AccountFacts.touch, if_neg fresh, known.2]

/-! ## Moving balances -/

theorem addBalance_zero (address : Address) : addBalance env address 0 = pure () := by
  rw [addBalance, if_pos rfl]

theorem getBalance_facts (address : Address) (held : AccountFacts) :
    Keeps (accounts env touched) (fun self => self.factsAt env address = held)
      (getBalance env address)
      fun balance after => balance = balanceOf held.current ∧ after.factsAt env address = held := by
  refine (reading_within (getBalance_accounts address)).imp (fun _ found => ⟨found, trivial⟩) ?_
  rintro balance after ⟨found, rfl⟩
  refine ⟨?_, found⟩
  rw [← factsAt_current, found]

theorem addBalance_facts (address : Address) (nonzero : value ≠ 0) (held : AccountFacts) :
    Keeps (accounts env (· = address)) (fun self => self.factsAt env address = held)
      (addBalance env address value)
      fun _ after => ∃ balance : U256, balance.val = (balanceOf held.current).val + value.val ∧
        after.factsAt env address = held.withBalance balance := by
  unfold addBalance
  rw [if_neg nonzero]
  refine Keeps.bind (getBalance_facts address held) fun balance => Keeps.assuming fun same => ?_
  subst same
  split
  · rename_i fits
    exact (setBalance_facts address _ held).weaken
      fun _ _ found => ⟨_, rfl, found⟩
  · exact Keeps.fail _

/-- A credit that succeeded. -/
theorem addBalance_ran (ran : addBalance env address value self = .ok () after) :
    (balanceOf (self.accountValue env address)).val + value.val < 2 ^ 256 ∧
      ∀ other, after.factsAt env other =
        if other = address then (self.factsAt env address).credited value
        else self.factsAt env other := by
  by_cases zero : value = 0
  · subst zero
    rw [addBalance_zero] at ran
    cases ran
    refine ⟨(balanceOf (self.accountValue env address)).isLt, fun other => ?_⟩
    by_cases same : other = address
    · rw [if_pos same, same]
      exact (if_pos rfl).symm
    · rw [if_neg same]
  · obtain ⟨kept, balance, sum, found⟩ :=
      keeps_ok (addBalance_facts address zero (self.factsAt env address)) rfl ran
    rw [factsAt_current] at sum
    have fits : (balanceOf (self.accountValue env address)).val + value.val < 2 ^ 256 :=
      sum ▸ balance.isLt
    refine ⟨fits, fun other => ?_⟩
    by_cases same : other = address
    · rw [if_pos same, same, found, AccountFacts.credited, if_neg zero]
      congr 1
      exact Fin.ext (sum.trans (Fin.val_add_eq_of_add_lt fits).symm)
    · rw [if_neg same]
      exact kept.facts other same

theorem touchAccount_ran (ran : touchAccount env address self = .ok () after) (other : Address) :
    after.factsAt env other =
      if other = address then (self.factsAt env address).touch else self.factsAt env other := by
  obtain ⟨kept, found⟩ := keeps_ok (touchAccount_facts address (self.factsAt env address)) rfl ran
  by_cases same : other = address
  · rw [if_pos same, same, found]
  · rw [if_neg same]
    exact kept.facts other same

theorem subtractBalance_facts (address : Address) (nonzero : value ≠ 0) (held : AccountFacts) :
    Keeps (accounts env (· = address)) (fun self => self.factsAt env address = held)
      (subtractBalance env address value)
      fun paid after =>
        (paid = false ∧ balanceOf held.current < value ∧ after.factsAt env address = held) ∨
        (paid = true ∧ value ≤ balanceOf held.current ∧
          after.factsAt env address = held.withBalance (balanceOf held.current - value)) := by
  unfold subtractBalance
  rw [if_neg nonzero]
  refine Keeps.bind (getBalance_facts address held) fun balance => Keeps.assuming fun same => ?_
  subst same
  split
  · rename_i short
    refine Keeps.returns ?_
    rintro _ after ⟨rfl, found⟩
    exact .inl ⟨rfl, short, found⟩
  · rename_i enough
    refine Keeps.bind (setBalance_facts address _ held) fun _ =>
      Keeps.returns ?_
    rintro _ after ⟨rfl, found⟩
    exact .inr ⟨rfl, not_lt.mp enough, found⟩

/-- A debit within the balance is made. -/
theorem subtractBalance_ok {paid : Bool}
    (covered : value ≤ balanceOf (self.accountValue env address))
    (ran : subtractBalance env address value self = .ok paid after) :
    paid = true ∧ (balanceOf (after.accountValue env address)).val + value.val =
      (balanceOf (self.accountValue env address)).val := by
  by_cases zero : value = 0
  · subst zero
    rw [subtractBalance, if_pos rfl] at ran
    cases ran
    exact ⟨rfl, Nat.add_zero _⟩
  · have ended := keeps_ok (subtractBalance_facts address zero (self.factsAt env address)) rfl ran
    rcases ended.2 with ⟨-, short, -⟩ | ⟨done, -, left⟩
    · exact absurd covered (not_le.mpr short)
    · have balance : balanceOf (after.accountValue env address) =
          balanceOf (self.accountValue env address) - value := by
        rw [← factsAt_current, left]
        rfl
      rw [balance, Fin.sub_val_of_le covered]
      exact ⟨done, Nat.sub_add_cancel covered⟩

end WorldState

end EvmZig.State
