import EvmZig.State.Effects

/-!
# Lifecycle marks

A created or self-destructed account is on the list finalisation goes through,
whatever was reverted since it was marked.
-/

set_option autoImplicit false

namespace EvmZig.State

open Lib Zig

/-- Weaken what a call starts from. -/
theorem Keeps.given {σ ε α : Type} {discipline : Discipline σ} {body : Action σ ε α} {pre : σ → Prop}
    {post : α → σ → Prop} (known : σ → Prop) (stronger : ∀ self, pre self → known self)
    (kept : Keeps discipline known body post) : Keeps discipline pre body post :=
  kept.imp stronger fun _ _ holds => holds

namespace WorldState

/-! ## Marked accounts are listed -/

/-- The account is on the list of finalisation. -/
def OnList (self : WorldState) (address : Address) : Prop :=
  ∃ id ∈ self.lifecycleAccounts, self.world.accounts.key id = some address

structure Listed (env : Env) (state : WorldState) : Prop where
  begun : state.lifetime.transaction ≠ 0
  marks : ∀ address, (state.factsAt env address).marks.Any → state.OnList address
  stamps : ∀ address,
    (state.factsAt env address).lifecycleTransaction = state.lifetime.transaction →
      state.OnList address
  past : ∀ address,
    (state.factsAt env address).lifecycleTransaction ≤ state.lifetime.transaction
  /-- Rollback cannot mark an account that is not listed. -/
  undos : ∀ undo ∈ Journal.accountUndos state.journal, undo.flags.marks.Any →
    undo.account ∈ state.lifecycleAccounts

/-- Rows and the list of finalisation only grow. -/
structure ListGrows (before after : WorldState) : Prop where
  key : ∀ id address, before.world.accounts.key id = some address →
    after.world.accounts.key id = some address
  listed : ∀ id ∈ before.lifecycleAccounts, id ∈ after.lifecycleAccounts
  transaction : after.lifetime.transaction = before.lifetime.transaction

theorem ListGrows.refl (self : WorldState) : ListGrows self self :=
  ⟨fun _ _ found => found, fun _ member => member, rfl⟩

theorem ListGrows.trans {first second third : WorldState} (left : ListGrows first second)
    (right : ListGrows second third) : ListGrows first third where
  key id address found := right.key id address (left.key id address found)
  listed id member := right.listed id (left.listed id member)
  transaction := right.transaction.trans left.transaction

theorem ListGrows.onList {before after : WorldState} (grows : ListGrows before after)
    {address : Address} (listed : before.OnList address) : after.OnList address := by
  obtain ⟨id, member, key⟩ := listed
  exact ⟨id, grows.listed id member, grows.key id address key⟩

def listing (env : Env) : Discipline WorldState where
  inv := Listed env
  rel := ListGrows
  refl _ := .refl _
  trans := .trans

variable {env : Env} {touched : Address → Prop} {self after : WorldState} {α : Type}
  {body : Method α} {id : AccountId} {address : Address} {update : AccountRow → AccountRow}

theorem KeepsAccounts.grows (kept : KeepsAccounts env touched self after) : ListGrows self after :=
  ⟨kept.key, fun _ member => kept.listed.symm ▸ member, kept.transaction⟩

theorem KeepsAccounts.listing (kept : KeepsAccounts env touched self after)
    (held : Listed env self) : Listed env after where
  begun := by
    rw [kept.transaction]
    exact held.begun
  marks address marked := by
    rw [kept.marks] at marked
    exact kept.grows.onList (held.marks address marked)
  stamps address stamped := by
    rw [kept.stamp, kept.transaction] at stamped
    exact kept.grows.onList (held.stamps address stamped)
  past address := by
    rw [kept.stamp, kept.transaction]
    exact held.past address
  undos undo member marked := by
    rcases kept.undos undo member with older | ⟨address, key, same⟩
    · exact kept.grows.listed _ (held.undos undo older marked)
    · rw [same] at marked
      obtain ⟨id, listed, idKey⟩ := kept.grows.onList (held.marks address marked)
      rw [Table.key_inj key idKey]
      exact listed

/-- A call that leaves the marks alone keeps the list. -/
theorem listing_of_accounts {pre : WorldState → Prop} {post : α → WorldState → Prop}
    (kept : Keeps (accounts env touched) pre body post) : Keeps (listing env) pre body post :=
  kept.relate (fun _ _ => trivial) fun _ _ held _ rel => ⟨rel.listing held, rel.grows⟩

theorem listing_of_reading (safe : Safe (reading env) body) : Safe (listing env) body :=
  listing_of_accounts safe

/-- A row of known key whose id is listed. -/
def ListedAt (id : AccountId) (address : Address) (self : WorldState) : Prop :=
  self.world.accounts.key id = some address ∧ id ∈ self.lifecycleAccounts

theorem listing_listedAt (safe : Safe (listing env) body) :
    Keeps (listing env) (ListedAt id address) body fun _ => ListedAt id address := by
  have kept := safe.carry (fun before after (rel : ListGrows before after)
    (known : ListedAt id address before) =>
      (⟨rel.key id address known.1, rel.listed id known.2⟩ : ListedAt id address after))
  exact kept.imp (fun _ known => ⟨known, trivial⟩) fun _ _ known => known.1

theorem listing_key (safe : Safe (listing env) body) :
    Keeps (listing env) (fun self => self.world.accounts.key id = some address) body
      fun _ after => after.world.accounts.key id = some address := by
  have kept := safe.carry (fun before after (rel : ListGrows before after)
    (known : before.world.accounts.key id = some address) => rel.key id address known)
  exact kept.imp (fun _ known => ⟨known, trivial⟩) fun _ _ known => known.1

/-- A row of known key, in the transaction `now`. -/
def KeyIn (id : AccountId) (address : Address) (now : Generation) (self : WorldState) : Prop :=
  self.world.accounts.key id = some address ∧ self.lifetime.transaction = now

theorem listing_keyIn {now : Generation} (safe : Safe (listing env) body) :
    Keeps (listing env) (KeyIn id address now) body fun _ => KeyIn id address now := by
  have kept := safe.carry (fun before after (rel : ListGrows before after)
    (known : KeyIn id address now before) =>
      (⟨rel.key id address known.1, rel.transaction.trans known.2⟩ : KeyIn id address now after))
  exact kept.imp (fun _ known => ⟨known, trivial⟩) fun _ _ known => known.1

/-- An assignment that marks its row only where the row is listed. -/
theorem Listed.updateAccount (held : Listed env self)
    (stamp : ∀ row, (update row).lifecycleTransaction = row.lifecycleTransaction)
    (marks : ∀ row, (update row).flags.marks.Any → row.flags.marks.Any ∨ id ∈ self.lifecycleAccounts) :
    Listed env (self.updateAccount id update) := by
  cases found : self.world.accounts.key id with
  | none =>
      rw [updateAccount_of_missing found]
      exact held
  | some place =>
      have onList : ∀ {address}, self.OnList address →
          (self.updateAccount id update).OnList address := by
        rintro address ⟨other, member, key⟩
        exact ⟨other, member, by rw [key_updateAccount, key]⟩
      refine ⟨held.begun, ?_, ?_, ?_, held.undos⟩
      · intro address marked
        by_cases here : address = place
        · subst here
          rw [factsAt, accountAt_updateAccount found] at marked
          rcases marks _ marked with before | listed
          · exact onList (held.marks address before)
          · exact onList ⟨id, listed, found⟩
        · rw [factsAt, accountAt_updateAccount_other found here] at marked
          exact onList (held.marks address marked)
      · intro address stamped
        by_cases here : address = place
        · subst here
          rw [factsAt, accountAt_updateAccount found] at stamped
          exact onList (held.stamps address ((stamp _).symm.trans stamped))
        · rw [factsAt, accountAt_updateAccount_other found here] at stamped
          exact onList (held.stamps address stamped)
      · intro address
        by_cases here : address = place
        · subst here
          rw [factsAt, accountAt_updateAccount found]
          exact (stamp _).le.trans (held.past address)
        · rw [factsAt, accountAt_updateAccount_other found here]
          exact held.past address

theorem updateAccount_grows (id : AccountId) (update : AccountRow → AccountRow) :
    ListGrows self (self.updateAccount id update) :=
  ⟨fun other address found => by rw [key_updateAccount, found], fun _ member => member, rfl⟩

/-- Marking a listed row. -/
theorem mark_listing (stamp : ∀ row, (update row).lifecycleTransaction = row.lifecycleTransaction) :
    Keeps (listing env) (ListedAt id address) (Action.modify (updateAccount id update) : Method Unit)
      fun _ => ListedAt id address := by
  refine Keeps.modify fun self held known => ⟨?_, updateAccount_grows id update, ?_, known.2⟩
  · exact Listed.updateAccount held stamp fun _ _ => .inr known.2
  · rw [key_updateAccount, known.1]

theorem enlist_listing (id : AccountId) (address : Address) (transaction : Generation) :
    Keeps (listing env) (KeyIn id address transaction)
      (Action.modify (enlist id transaction) : Method Unit) fun _ => ListedAt id address := by
  refine Keeps.modify fun self held within => ?_
  obtain ⟨known, now⟩ := within
  have grows : ListGrows self (enlist id transaction self) :=
    ⟨(updateAccount_grows id _).key, fun _ member => List.mem_append_left _ member, rfl⟩
  have here : (enlist id transaction self).OnList address :=
    ⟨id, List.mem_append_right _ (List.mem_singleton.mpr rfl), grows.key id address known⟩
  have other : ∀ place, place ≠ address →
      (enlist id transaction self).factsAt env place = self.factsAt env place := by
    intro place differs
    exact congrArg AccountRow.facts (accountAt_updateAccount_other known differs _)
  refine ⟨⟨held.begun, ?_, ?_, ?_, ?_⟩, grows, grows.key id address known,
    List.mem_append_right _ (List.mem_singleton.mpr rfl)⟩
  · intro place marked
    by_cases same : place = address
    · exact same ▸ here
    · rw [other place same] at marked
      exact grows.onList (held.marks place marked)
  · intro place stamped
    by_cases same : place = address
    · exact same ▸ here
    · rw [other place same] at stamped
      exact grows.onList (held.stamps place stamped)
  · intro place
    by_cases same : place = address
    · subst same
      have stamped : (enlist id transaction self).factsAt env place =
          { self.factsAt env place with lifecycleTransaction := transaction } :=
        congrArg AccountRow.facts (accountAt_updateAccount known _)
      rw [stamped]
      exact now.ge
    · rw [other place same]
      exact held.past place
  · exact fun undo member marked => grows.listed _ (held.undos undo member marked)

theorem prepareLifecycleMutation_listing (id : AccountId) (address : Address) :
    Keeps (listing env) (fun self => self.world.accounts.key id = some address)
      (prepareLifecycleMutation env id) fun _ => ListedAt id address := by
  have read : Keeps (listing env) (fun self => self.world.accounts.key id = some address)
      (accountRow id) fun row after => after.world.accounts.key id = some address ∧
        (row.lifecycleTransaction = after.lifetime.transaction → ListedAt id address after) := by
    intro self held key
    unfold accountRow
    cases found : self.world.accounts.row id with
    | none => trivial
    | some row =>
        refine ⟨held, .refl self, key, fun stamped => ⟨key, ?_⟩⟩
        rw [← accountAt_of_row key found] at stamped
        obtain ⟨other, member, otherKey⟩ := held.stamps address stamped
        exact Table.key_inj key otherKey ▸ member
  have reserved : ∀ {first : Prop} [Decidable first],
      Safe (listing env) (Action.when first (reserve env)) :=
    listing_of_reading (Safe.when reserve_accounts)
  have prepared : Safe (listing env) (prepareAccountMutation env id) :=
    listing_of_reading (prepareAccountMutation_accounts id)
  unfold prepareLifecycleMutation
  refine Keeps.bind read fun row => Keeps.bind Keeps.get fun state => ?_
  by_cases stamped : row.lifecycleTransaction = state.lifetime.transaction
  · have skipped : ∀ body : Method Unit, Keeps (listing env) (ListedAt id address)
        (Action.when (row.lifecycleTransaction ≠ state.lifetime.transaction) body)
        fun _ => ListedAt id address :=
      fun body => Keeps.when _ (fun first => absurd stamped first) fun _ _ known => known
    refine Keeps.given (ListedAt id address) ?_ ?_
    · rintro self ⟨rfl, -, listed⟩
      exact listed stamped
    · exact Keeps.bind (listing_listedAt reserved) fun _ =>
        Keeps.bind (listing_listedAt prepared) fun _ => skipped _
  · have first : ∀ body : Method Unit, Keeps (listing env)
        (KeyIn id address state.lifetime.transaction) body (fun _ => ListedAt id address) →
        Keeps (listing env) (KeyIn id address state.lifetime.transaction)
          (Action.when (row.lifecycleTransaction ≠ state.lifetime.transaction) body)
          fun _ => ListedAt id address :=
      fun body kept => Keeps.when _ (fun _ => kept) fun skipped => absurd stamped skipped
    refine Keeps.given (KeyIn id address state.lifetime.transaction) ?_ ?_
    · rintro self ⟨rfl, key, -⟩
      exact ⟨key, rfl⟩
    · exact Keeps.bind (listing_keyIn reserved) fun _ => Keeps.bind (listing_keyIn prepared) fun _ =>
        first _ (enlist_listing id address state.lifetime.transaction)

/-! ## Calls keep the list -/

/-- What is known for any facts of an address is known without them. -/
theorem accounts_of_facts {post : AccountFacts → α → WorldState → Prop}
    (kept : ∀ held, Keeps (accounts env touched) (fun self => self.factsAt env address = held) body
      (post held)) :
    Safe (accounts env touched) body := by
  intro self invariant _
  have weak := (kept (self.factsAt env address)).weaken fun _ _ _ => trivial
  exact weak self invariant rfl

theorem accounts_of_row {post : AccountFacts → α → WorldState → Prop}
    (kept : ∀ held, Keeps (accounts env touched) (FactsOf env id address held) body (post held)) :
    Keeps (accounts env touched) (fun self => self.world.accounts.key id = some address) body
      fun _ _ => True := by
  intro self invariant key
  have weak := (kept (self.factsAt env address)).weaken fun _ _ _ => trivial
  exact weak self invariant ⟨key, rfl⟩

theorem setBalance_accounts (address : Address) (balance : U256) :
    Safe (accounts env (· = address)) (setBalance env address balance) :=
  accounts_of_facts (setBalance_facts address balance)

theorem addBalance_accounts (address : Address) (value : U256) :
    Safe (accounts env (· = address)) (addBalance env address value) := by
  by_cases zero : value = 0
  · subst zero
    rw [addBalance_zero]
    exact Safe.pure ()
  · exact accounts_of_facts (addBalance_facts address zero)

theorem subtractBalance_accounts (address : Address) (value : U256) :
    Safe (accounts env (· = address)) (subtractBalance env address value) := by
  by_cases zero : value = 0
  · rw [subtractBalance, if_pos zero]
    exact Safe.pure true
  · exact accounts_of_facts (subtractBalance_facts address zero)

theorem setNonce_accounts (address : Address) (nonce : U64) :
    Safe (accounts env (· = address)) (setNonce env address nonce) :=
  accounts_of_facts (setNonce_facts address nonce)

theorem setCode_accounts (address : Address) (bytes : Bytes) :
    Safe (accounts env (· = address)) (setCode env address bytes) :=
  accounts_of_facts (setCode_facts address bytes)

theorem touchAccount_accounts (address : Address) :
    Safe (accounts env (· = address)) (touchAccount env address) :=
  accounts_of_facts (touchAccount_facts address)

theorem requireAccount_listing (address : Address) :
    Keeps (listing env) (fun _ => True) (requireAccount env address)
      fun id after => after.world.accounts.key id = some address :=
  listing_of_accounts (@requireAccount_accounts env (fun _ => False) address)

theorem writeAccount_listing (id : AccountId) (address : Address) (value : Option Account) :
    Keeps (listing env) (fun self => self.world.accounts.key id = some address)
      (writeAccount env id value) fun _ after => after.world.accounts.key id = some address := by
  refine (listing_of_accounts (accounts_key (accounts_of_row
    (writeAccount_facts id address value)))).imp (fun _ key => ⟨key, key⟩) fun _ _ holds => holds.1

theorem markSelfdestructed_listing (address : Address) :
    Safe (listing env) (markSelfdestructed env address) := by
  unfold markSelfdestructed
  refine Keeps.bind (requireAccount_listing address) fun id =>
    Keeps.bind (listing_key (listing_of_reading (accountRow_looks id).safe)) fun row => ?_
  split
  · exact (Keeps.pure ()).weaken fun _ _ _ => trivial
  · refine Keeps.bind (listing_key (listing_of_reading (observeAccount_accounts id _))) fun _ =>
      Keeps.bind (prepareLifecycleMutation_listing id address) fun _ =>
      Keeps.bind (mark_listing fun _ => rfl) fun _ =>
      (listing_listedAt (listing_of_reading (updateAccountEffect_accounts id _))).weaken
        fun _ _ _ => trivial

theorem initializeContract_listing (address : Address) (initialNonce : U64) :
    Safe (listing env) (initializeContract env address initialNonce) := by
  unfold initializeContract
  refine Safe.bind (listing_of_reading assertSession_looks.safe) fun _ =>
    Safe.bind (Safe.assert _) fun _ =>
    Keeps.bind (requireAccount_listing address) fun id =>
    Keeps.bind (listing_key (listing_of_reading (accountRow_looks id).safe)) fun row =>
    Keeps.bind (writeAccount_listing id address _) fun _ =>
    Keeps.bind (listing_key (listing_of_reading (wipeStorage_accounts id))) fun _ =>
    Keeps.bind (prepareLifecycleMutation_listing id address) fun _ =>
    Keeps.bind (mark_listing fun _ => rfl) fun _ =>
    (listing_listedAt (listing_of_reading (updateAccountEffect_accounts id _))).weaken
      fun _ _ _ => trivial

theorem transferRemaining_listing (source beneficiary : Address) (balance : U256)
    (policy : SelfDestructPolicy) (touchZeroBeneficiary : Bool) :
    Safe (listing env)
      (transferRemaining env source beneficiary balance policy touchZeroBeneficiary) := by
  unfold transferRemaining
  split
  · exact Safe.bind (Safe.when (listing_of_accounts (addBalance_accounts beneficiary balance)))
      fun _ => Safe.when (listing_of_accounts (setBalance_accounts source 0))
  · exact Safe.when (listing_of_accounts (touchAccount_accounts beneficiary))

theorem applySelfDestruct_listing (source beneficiary : Address) (policy : SelfDestructPolicy)
    (touchZeroBeneficiary : Bool) :
    Safe (listing env) (applySelfDestruct env source beneficiary policy touchZeroBeneficiary) :=
  Safe.bind (listing_of_reading assertSession_looks.safe) fun _ => Safe.bind (Safe.assert _) fun _ =>
    Safe.bind (listing_of_accounts (@getBalance_accounts env (fun _ => False) source)).safe fun _ =>
    Safe.bind (Safe.read _) fun _ =>
    Safe.bind (transferRemaining_listing source beneficiary _ policy touchZeroBeneficiary) fun _ =>
    Safe.bind (Safe.when (markSelfdestructed_listing source)) fun _ => Safe.pure _

theorem resetOrDelete_listing (id : AccountId) (address : Address) (policy : SelfDestructFinalization) :
    Keeps (listing env) (fun self => self.world.accounts.key id = some address)
      (resetOrDelete env id policy) fun _ after => after.world.accounts.key id = some address := by
  unfold resetOrDelete
  split
  · exact Keeps.bind (listing_key (listing_of_reading (accountRow_looks id).safe)) fun row =>
      writeAccount_listing id address _
  · exact Keeps.when _ (fun _ => writeAccount_listing id address none) fun _ _ key => key

/-- Taking marks away needs no listing. -/
theorem unmark_listing (stamp : ∀ row, (update row).lifecycleTransaction = row.lifecycleTransaction)
    (marks : ∀ row, (update row).flags.marks.Any → row.flags.marks.Any) :
    Safe (listing env) (Action.modify (updateAccount id update) : Method Unit) :=
  Keeps.modify fun _ held _ => ⟨Listed.updateAccount held stamp fun row marked =>
    .inl (marks row marked),
    updateAccount_grows id update, trivial⟩

theorem finalizeSelfdestructed_listing (id : AccountId) (address : Address)
    (policy : SelfDestructFinalization) :
    Keeps (listing env) (fun self => self.world.accounts.key id = some address)
      (finalizeSelfdestructed env id policy) fun _ _ => True := by
  unfold finalizeSelfdestructed
  refine Keeps.bind (listing_key (Safe.when ?_)) fun _ =>
    Keeps.bind (resetOrDelete_listing id address policy) fun _ =>
    Keeps.bind (listing_key (listing_of_reading (prepareAccountMutation_accounts id))) fun _ =>
    Keeps.given (fun _ => True) (fun _ _ => trivial) (unmark_listing (fun _ => rfl) ?_)
  · exact Safe.bind (listing_of_reading (wipeStorage_accounts id)) fun _ =>
      listing_of_reading (updateAccountEffect_accounts id _)
  · rintro row (marked | marked) <;> cases marked

theorem accountRow_listing (id : AccountId) :
    Keeps (listing env) (fun _ => True) (accountRow id)
      fun _ after => ∃ address, after.world.accounts.key id = some address := by
  refine (listing_of_accounts (@accountRow_known env (fun _ => False) id)).weaken ?_
  rintro row after ⟨address, key, -⟩
  exact ⟨address, key⟩

theorem finalizeAccount_listing (rules : FinalizationRules) (id : AccountId) :
    Safe (listing env) (finalizeAccount env rules id) := by
  unfold finalizeAccount
  refine Keeps.bind (accountRow_listing id) fun row => Keeps.ofExists fun address => ?_
  split
  · exact (Keeps.pure ()).weaken fun _ _ _ => trivial
  · split
    · refine Keeps.given (fun _ => True) (fun _ _ => trivial)
        (Safe.bind (listing_of_reading (prepareAccountMutation_accounts id)) fun _ =>
          unmark_listing (fun _ => rfl) ?_)
      rintro row (marked | marked)
      · cases marked
      · exact .inr marked
    · exact finalizeSelfdestructed_listing id address _

/-! ## Scopes keep the list -/

theorem checkpoint_accounts : Safe (accounts env touched) checkpoint := by
  have ticked : Safe (accounts env touched) tick :=
    Safe.bind (Safe.assert _) fun _ =>
      Safe.bind (modify_accounts fun _ => .of_accounts rfl ⟨⟨rfl, rfl⟩, rfl⟩) fun _ => Safe.read _
  exact Safe.bind assertSession_looks.safe fun _ => Safe.bind (Safe.assert _) fun _ =>
    Safe.bind (Safe.read _) fun _ => Safe.bind ticked fun _ =>
    Safe.bind (modify_accounts fun _ => .of_accounts rfl ⟨⟨rfl, rfl⟩, rfl⟩) fun _ =>
    Safe.bind Safe.get fun _ => Safe.pure _

theorem assertCheckpoint_accounts (held : Checkpoint) :
    Safe (accounts env touched) (assertCheckpoint held) :=
  Safe.bind assertSession_looks.safe fun _ => Safe.bind (Safe.assert _) fun _ =>
    Safe.bind (Safe.assert _) fun _ => Safe.bind (Safe.assert _) fun _ =>
    Safe.bind (Safe.assert _) fun _ => Safe.assert _

theorem commitCheckpoint_accounts (held : Checkpoint) :
    Safe (accounts env touched) (commitCheckpoint held) :=
  Safe.bind (assertCheckpoint_accounts held) fun _ =>
    modify_accounts fun _ => .of_accounts rfl ⟨⟨rfl, rfl⟩, rfl⟩

/-- The marks an entry restores are those of a listed row. -/
def RestoresListed (entry : Entry) (self : WorldState) : Prop :=
  ∀ undo, entry = .account undo → undo.flags.marks.Any → undo.account ∈ self.lifecycleAccounts

theorem modify_listing {update : WorldState → WorldState}
    (kept : ∀ self, KeepsAccounts env (fun _ => False) self (update self)) :
    Safe (listing env) (Action.modify update : Method Unit) :=
  listing_of_reading (modify_accounts kept)

theorem undoEntry_listing (entry : Entry) :
    Keeps (listing env) (RestoresListed entry) (undoEntry entry) fun _ _ => True := by
  have ignore : ∀ {body : Method Unit}, Safe (listing env) body →
      Keeps (listing env) (RestoresListed entry) body fun _ _ => True :=
    fun safe => Keeps.given _ (fun _ _ => trivial) safe
  cases entry with
  | account undo =>
      refine Keeps.bind (Keeps.modify fun self held restores => ⟨Listed.updateAccount held (fun _ => rfl)
        fun _ marked => .inr (restores undo rfl marked), updateAccount_grows _ _, trivial⟩) fun _ =>
        listing_of_reading (updateAccountEffect_accounts _ _)
  | storage undo =>
      exact ignore (Safe.bind (modify_listing fun _ => .stored rfl rfl ⟨⟨rfl, rfl⟩, rfl⟩) fun _ =>
        listing_of_reading (updateStorageEffect_accounts _ _))
  | accountStorageDirty id =>
      exact ignore (Safe.bind (listing_of_reading (accountRow_looks id).safe) fun _ =>
        modify_listing fun _ => .assigned rfl rfl (fun _ => rfl) ⟨⟨rfl, rfl⟩, rfl⟩)
  | warmAccount id =>
      exact ignore (Safe.bind (listing_of_reading (accountRow_looks id).safe) fun _ =>
        modify_listing fun _ => .assigned rfl rfl (fun _ => rfl) ⟨⟨rfl, rfl⟩, rfl⟩)
  | warmStorage id =>
      exact ignore (Safe.bind (listing_of_reading (storageRow_looks id).safe) fun _ =>
        modify_listing fun _ => .stored rfl rfl ⟨⟨rfl, rfl⟩, rfl⟩)
  | deferredWarmAccount entry =>
      exact ignore (Safe.bind (Safe.assert _) fun _ =>
        modify_listing fun _ => .of_accounts rfl ⟨⟨rfl, rfl⟩, rfl⟩)
  | deferredWarmStorage entry =>
      exact ignore (Safe.bind (Safe.assert _) fun _ =>
        modify_listing fun _ => .of_accounts rfl ⟨⟨rfl, rfl⟩, rfl⟩)
  | transientStorage key previous =>
      exact ignore (modify_listing fun _ => .of_accounts rfl ⟨⟨rfl, rfl⟩, rfl⟩)
  | introducedCode =>
      refine ignore (Safe.bind Safe.get fun state => ?_)
      split
      · exact Safe.illegal
      · exact Safe.bind (Safe.assert _) fun _ =>
          modify_listing fun _ => .of_accounts rfl ⟨⟨rfl, rfl⟩, rfl⟩

/-- Taking the newest entry off the journal. -/
theorem pop_listing (entry : Entry) (older : Journal) :
    Keeps (listing env) (fun self => self.journal = entry :: older)
      (Action.modify (fun self => { self with journal := older }) : Method Unit)
      fun _ => RestoresListed entry := by
  refine Keeps.modify fun self held journal => ?_
  have older : ∀ undo ∈ Journal.accountUndos older, undo ∈ Journal.accountUndos self.journal := by
    intro undo member
    rw [journal, Journal.accountUndos, List.mem_filterMap]
    obtain ⟨found, foundIn, same⟩ := List.mem_filterMap.mp member
    exact ⟨found, List.mem_cons_of_mem _ foundIn, same⟩
  refine ⟨⟨held.begun, held.marks, held.stamps, held.past,
    fun undo member => held.undos undo (older undo member)⟩,
    ⟨fun _ _ found => found, fun _ member => member, rfl⟩, ?_⟩
  rintro undo rfl marked
  refine held.undos undo ?_ marked
  rw [journal, Journal.accountUndos, List.mem_filterMap]
  exact ⟨_, List.mem_cons_self, rfl⟩

theorem popEntries_listing (count : Nat) : Safe (listing env) (popEntries count) := by
  induction count with
  | zero => exact Safe.pure ()
  | succ count ih =>
      unfold popEntries
      refine Keeps.bind Keeps.get fun state => ?_
      split
      · exact Keeps.illegal
      · rename_i entry older journal
        refine Keeps.given (fun self => self.journal = entry :: older) ?_ ?_
        · rintro self ⟨rfl, -⟩
          exact journal
        · exact Keeps.bind (pop_listing entry older) fun _ =>
            Keeps.bind (undoEntry_listing entry) fun _ => ih

theorem revertToCheckpoint_listing (held : Checkpoint) :
    Safe (listing env) (revertToCheckpoint held) :=
  Safe.bind (listing_of_reading (assertCheckpoint_accounts held)) fun _ =>
    Safe.bind (modify_listing fun _ => .of_accounts rfl ⟨⟨rfl, rfl⟩, rfl⟩) fun _ =>
    Safe.bind (Safe.bind Safe.get fun _ => popEntries_listing _) fun _ =>
    modify_listing fun _ => .of_accounts rfl ⟨⟨rfl, rfl⟩, rfl⟩

theorem closing_listing (held : Checkpoint) {body : Method Unit} (safe : Safe (listing env) body) :
    Safe (listing env) (closing held body) := by
  intro self inv _
  have ran := safe self inv trivial
  unfold closing
  cases outcome : body self with
  | illegal => trivial
  | ok value after =>
      rw [outcome] at ran
      have committed := listing_of_reading (commitCheckpoint_accounts held) after ran.1 trivial
      dsimp only
      cases ending : commitCheckpoint held after with
      | illegal => trivial
      | fail error last =>
          rw [ending] at committed
          exact ⟨committed.1, ran.2.1.trans committed.2⟩
      | ok value last =>
          rw [ending] at committed
          exact ⟨committed.1, ran.2.1.trans committed.2.1, trivial⟩
  | fail error after =>
      rw [outcome] at ran
      have reverted := @revertToCheckpoint_listing env held after ran.1 trivial
      dsimp only
      cases ending : revertToCheckpoint held after with
      | illegal => trivial
      | fail error last => trivial
      | ok value last =>
          rw [ending] at reverted
          exact ⟨reverted.1, ran.2.trans reverted.2.1⟩

theorem finalizeLifecycle_listing (rules : FinalizationRules) :
    Safe (listing env) (finalizeLifecycle env rules) := by
  unfold finalizeLifecycle
  refine Safe.bind (listing_of_reading assertSession_looks.safe) fun _ =>
    Safe.bind (Safe.read _) fun listed => ?_
  split
  · exact Safe.pure ()
  · exact Safe.bind (listing_of_reading checkpoint_accounts) fun held =>
      closing_listing held (Safe.forEach (fun id => finalizeAccount_listing rules id) _)

/-- Every call keeps the list. -/
theorem Op.run_listing (op : Op) : Safe (listing env) (op.run env) := by
  cases op with
  | setBalance address balance => exact listing_of_accounts (setBalance_accounts address balance)
  | addBalance address value => exact listing_of_accounts (addBalance_accounts address value)
  | subtractBalance address value =>
      exact Safe.discard (listing_of_accounts (subtractBalance_accounts address value))
  | setNonce address nonce => exact listing_of_accounts (setNonce_accounts address nonce)
  | setCode address bytes => exact listing_of_accounts (setCode_accounts address bytes)
  | clearCode address => exact listing_of_accounts (setCode_accounts address [])
  | touchAccount address => exact listing_of_accounts (touchAccount_accounts address)
  | setTransientStorage address slot value =>
      exact listing_of_reading (setTransientStorage_accounts address slot value)
  | initializeContract address nonce => exact initializeContract_listing address nonce
  | applySelfDestruct source beneficiary policy touch =>
      exact (applySelfDestruct_listing source beneficiary policy touch).discard
  | finalizeLifecycle rules => exact finalizeLifecycle_listing rules
  | clearTransientStorage =>
      exact Safe.bind (listing_of_reading assertSession_looks.safe) fun _ =>
        modify_listing fun _ => .of_accounts rfl ⟨⟨rfl, rfl⟩, rfl⟩
  | clearLogs => exact listing_of_reading clearLogs_accounts
  | _ => exact listing_of_reading (accounts_of_changes (by exact id) (Op.run_changes _ trivial))

end WorldState

end EvmZig.State
