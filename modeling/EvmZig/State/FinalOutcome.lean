import EvmZig.State.Layers

/-!
# The outcome of finalisation

Lifecycle finalisation either settles every mark as the rules say, storage
included, or leaves everything a caller can read as it was.
-/

set_option autoImplicit false

namespace EvmZig.State

open Lib Zig

variable {update : WorldState → WorldState} {rules : FinalizationRules}

/-- The policy for a self-destructed account with these flags. -/
def FinalizationRules.policyFor (rules : FinalizationRules) (flags : AccountFlags) :
    SelfDestructFinalization :=
  if flags.created then rules.createdAccount else rules.existingAccount

/-- The incarnation finalisation leaves of an account's storage. -/
def AccountRow.settledIncarnation (row : AccountRow) (rules : FinalizationRules) : Incarnation :=
  if row.flags.selfdestructed = true ∧ (rules.policyFor row.flags).clearStorage = true then
    row.storageIncarnation + 1
  else row.storageIncarnation

/-- What finalisation makes of an account row. -/
structure AccountRow.Settled (rules : FinalizationRules) (before after : AccountRow) : Prop where
  facts : after.facts = before.facts.finalized rules
  incarnation : after.storageIncarnation = before.settledIncarnation rules
  unmarked : ¬before.flags.marks.Any → after = before

theorem AccountFacts.finalized_settled (facts : AccountFacts) (rules : FinalizationRules) :
    ¬(facts.finalized rules).marks.Any := by
  by_cases unmarked : facts.marks.created = false ∧ facts.marks.selfdestructed = false
  · rw [finalized_unmarked unmarked]
    rintro (created | destructed)
    · exact absurd (unmarked.1.symm.trans created) Bool.false_ne_true
    · exact absurd (unmarked.2.symm.trans destructed) Bool.false_ne_true
  · by_cases kept : facts.marks.selfdestructed = false
    · rw [finalized_created unmarked kept]
      rintro (created | destructed)
      · cases created
      · exact absurd (kept.symm.trans destructed) Bool.false_ne_true
    · rw [finalized_selfdestructed kept]
      rintro (created | destructed)
      · cases created
      · cases destructed

namespace AccountRow.Settled

variable {rules : FinalizationRules} {before middle after row : AccountRow}

theorem of_unmarked (unmarked : ¬row.flags.marks.Any) : Settled rules row row := by
  have created : row.facts.marks.created = false :=
    Bool.eq_false_of_not_eq_true fun marked => unmarked (.inl marked)
  have kept : row.facts.marks.selfdestructed = false :=
    Bool.eq_false_of_not_eq_true fun marked => unmarked (.inr marked)
  refine ⟨(AccountFacts.finalized_unmarked ⟨created, kept⟩).symm, ?_, fun _ => rfl⟩
  unfold settledIncarnation
  rw [if_neg fun destructed => absurd (kept.symm.trans destructed.1) Bool.false_ne_true]

theorem marks (settled : Settled rules before after) : ¬after.flags.marks.Any := by
  have none : ¬after.facts.marks.Any := by
    rw [settled.facts]
    exact before.facts.finalized_settled rules
  exact none

/-- A second round finds nothing to settle. -/
theorem again (first : Settled rules before middle) (second : Settled rules middle after) :
    Settled rules before after :=
  second.unmarked first.marks ▸ first

end AccountRow.Settled

namespace WorldState

variable {env : Env} {self after : WorldState} {α : Type}

/-! ## One account -/

/-- Slots stay, and so do the rows of other accounts. -/
structure Confined (id : AccountId) (before after : WorldState) : Prop where
  storage : after.world.storage = before.world.storage
  key : ∀ other, after.world.accounts.key other = before.world.accounts.key other
  row : ∀ other, other ≠ id → after.world.accounts.row other = before.world.accounts.row other

def confined (id : AccountId) : Discipline WorldState where
  inv _ := True
  rel := Confined id
  refl _ := ⟨rfl, fun _ => rfl, fun _ _ => rfl⟩
  trans left right := ⟨right.storage.trans left.storage,
    fun other => (right.key other).trans (left.key other),
    fun other differs => (right.row other differs).trans (left.row other differs)⟩

/-- The storage of the account has this incarnation. -/
def Incarnate (id : AccountId) (incarnation : Incarnation) (self : WorldState) : Prop :=
  ∃ row, self.world.accounts.row id = some row ∧ row.storageIncarnation = incarnation

variable {id : AccountId} {incarnation next : Incarnation}

theorem confined_tables {pre : WorldState → Prop} (world : ∀ self, (update self).world = self.world)
    (kept : ∀ self, pre self → pre (update self)) :
    Keeps (confined id) pre (Action.modify update : Method Unit) fun _ => pre := by
  refine Keeps.modify fun self _ holds => ⟨trivial, ⟨?_, ?_, ?_⟩, kept self holds⟩
  · rw [world]
  · intro other
    rw [world]
  · intro other _
    rw [world]

theorem Incarnate.of_world (world : after.world = self.world) (known : Incarnate id incarnation self) :
    Incarnate id incarnation after := by
  obtain ⟨row, held, same⟩ := known
  exact ⟨row, (congrArg (fun world => world.accounts.row id) world).trans held, same⟩

/-- The row is assigned to. -/
theorem confined_assign {change : WorldState → AccountRow → AccountRow}
    (accounts : ∀ self, (update self).world.accounts =
      (self.updateAccount id (change self)).world.accounts)
    (storage : ∀ self, (update self).world.storage = self.world.storage)
    (incarnates : ∀ self row, row.storageIncarnation = incarnation →
      (change self row).storageIncarnation = next) :
    Keeps (confined id) (Incarnate id incarnation) (Action.modify update : Method Unit)
      fun _ => Incarnate id next := by
  refine Keeps.modify fun self _ known => ?_
  obtain ⟨row, held, same⟩ := known
  have rows := (accounts self).trans (accounts_updateAccount held (change self))
  obtain ⟨address, key⟩ := Table.key_eq_some_of_row held
  refine ⟨trivial, ⟨storage self, ?_, ?_⟩, ⟨change self row, ?_, incarnates self row same⟩⟩
  · intro other
    rw [rows, Table.key_set]
  · intro other differs
    rw [rows, Table.row_set_other _ differs]
  · rw [rows]
    exact Table.row_set_same key _

/-- The incarnation of the row stays. -/
theorem confined_relabel {change : WorldState → AccountRow → AccountRow}
    (accounts : ∀ self, (update self).world.accounts =
      (self.updateAccount id (change self)).world.accounts)
    (storage : ∀ self, (update self).world.storage = self.world.storage)
    (same : ∀ self row, (change self row).storageIncarnation = row.storageIncarnation) :
    Keeps (confined id) (Incarnate id incarnation) (Action.modify update : Method Unit)
      fun _ => Incarnate id incarnation :=
  confined_assign accounts storage fun self row known => (same self row).trans known

theorem confined_reserve :
    Keeps (confined id) (Incarnate id incarnation) (reserve env) fun _ => Incarnate id incarnation := by
  intro self _ known
  have kept : ∀ requests, Incarnate id incarnation (asked requests self) :=
    fun requests => known.of_world rfl
  obtain ⟨requests, ran | ⟨error, ran⟩⟩ := @Asks.reserve env self
  · rw [ran]
    exact ⟨trivial, ⟨rfl, fun _ => rfl, fun _ _ => rfl⟩, kept requests⟩
  · rw [ran]
    exact ⟨trivial, ⟨rfl, fun _ => rfl, fun _ _ => rfl⟩⟩

theorem confined_when {condition : Prop} [Decidable condition] {body : Method Unit}
    (kept : Keeps (confined id) (Incarnate id incarnation) body fun _ => Incarnate id incarnation) :
    Keeps (confined id) (Incarnate id incarnation) (Action.when condition body)
      fun _ => Incarnate id incarnation :=
  Keeps.when _ (fun _ => kept) fun _ _ known => known

theorem observeAccount_confined (observation : AccountObservation) :
    Keeps (confined id) (Incarnate id incarnation) (observeAccount env id observation)
      fun _ => Incarnate id incarnation := by
  unfold observeAccount
  refine Keeps.bind assertMutable_looks.kept fun _ => Keeps.bind (accountRow_looks id).kept fun row =>
    Keeps.bind Looks.get.kept fun state => ?_
  split
  · exact Keeps.bind (accountObservation_looks id).kept fun _ =>
      confined_tables (fun _ => rfl) fun _ known => known.of_world rfl
  · exact Keeps.bind confined_reserve fun _ =>
      confined_relabel (fun _ => rfl) (fun _ => storage_updateAccount ..) fun _ _ => rfl

theorem prepareAccountMutation_confined :
    Keeps (confined id) (Incarnate id incarnation) (prepareAccountMutation env id)
      fun _ => Incarnate id incarnation := by
  have appended : Keeps (confined id) (Incarnate id incarnation) (appendAccountUndo id)
      fun _ => Incarnate id incarnation := by
    unfold appendAccountUndo
    exact Keeps.bind (accountRow_looks id).kept fun row =>
      Keeps.bind (accountObservation_looks id).kept fun observed =>
      confined_relabel (fun _ => rfl) (fun _ => storage_updateAccount ..) fun _ _ => rfl
  unfold prepareAccountMutation
  exact Keeps.bind (accountRow_looks id).kept fun row => Keeps.bind (Looks.assert _).kept fun _ =>
    Keeps.bind Looks.get.kept fun state =>
    Keeps.bind (confined_when (Keeps.bind confined_reserve fun _ => confined_reserve)) fun _ =>
    Keeps.bind (confined_when confined_reserve) fun _ =>
    Keeps.bind (confined_when confined_reserve) fun _ =>
    Keeps.bind (confined_when appended) fun _ =>
    Keeps.bind (confined_when (confined_relabel (fun _ => rfl) (fun _ => storage_updateAccount ..)
      fun _ _ => rfl)) fun _ =>
    confined_when (confined_relabel (fun _ => rfl) (fun _ => storage_updateAccount ..) fun _ _ => rfl)

theorem updateAccountEffect_confined (update : AccountEffect → AccountEffect) :
    Keeps (confined id) (Incarnate id incarnation) (updateAccountEffect id update)
      fun _ => Incarnate id incarnation :=
  Keeps.bind (accountRow_looks id).kept fun _ => Keeps.bind (accountObservation_looks id).kept fun _ =>
    confined_tables (fun _ => rfl) fun _ known => known.of_world rfl

theorem writeAccount_confined (value : Option Account) :
    Keeps (confined id) (Incarnate id incarnation) (writeAccount env id value)
      fun _ => Incarnate id incarnation := by
  unfold writeAccount
  exact Keeps.bind assertMutable_looks.kept fun _ => Keeps.bind (observeAccount_confined _) fun _ =>
    Keeps.bind prepareAccountMutation_confined fun _ => Keeps.bind (accountRow_looks id).kept fun row =>
    Keeps.bind Looks.get.kept fun state =>
    Keeps.bind (confined_relabel (fun _ => rfl) (fun _ => storage_updateAccount ..) fun _ _ => rfl)
      fun _ =>
    updateAccountEffect_confined _

/-- A wipe takes the incarnation one forward. -/
theorem wipeStorage_confined :
    Keeps (confined id) (Incarnate id incarnation) (wipeStorage env id)
      fun _ => Incarnate id (incarnation + 1) := by
  unfold wipeStorage
  refine Keeps.bind (observeAccount_confined _) fun _ =>
    Keeps.bind (accountRow_looks id).kept fun original =>
    Keeps.bind Looks.get.kept fun state => Keeps.bind (confined_when confined_reserve) fun _ =>
    Keeps.bind (confined_when confined_reserve) fun _ =>
    Keeps.bind prepareAccountMutation_confined fun _ => Keeps.bind (accountRow_reads id) fun row =>
    Keeps.bind (Keeps.liftOption _) fun advanced => ?_
  refine Keeps.given (fun self => advanced = incarnation + 1 ∧ Incarnate id incarnation self) ?_
    (Keeps.assuming fun same => ?_)
  · rintro self ⟨next, held, other, otherHeld, same⟩
    cases held.symm.trans otherHeld
    unfold Incarnation.next at next
    split at next
    · cases next
      exact ⟨congrArg (· + 1) same, row, held, same⟩
    · cases next
  · exact confined_assign (fun _ => rfl) (fun _ => storage_updateAccount ..) fun _ _ _ => same

theorem resetOrDelete_confined (policy : SelfDestructFinalization) :
    Keeps (confined id) (Incarnate id incarnation) (resetOrDelete env id policy)
      fun _ => Incarnate id incarnation := by
  unfold resetOrDelete
  split
  · exact Keeps.bind (accountRow_looks id).kept fun row => writeAccount_confined _
  · exact confined_when (writeAccount_confined none)

theorem finalizeSelfdestructed_confined (policy : SelfDestructFinalization) :
    Keeps (confined id) (Incarnate id incarnation) (finalizeSelfdestructed env id policy)
      fun _ => Incarnate id (if policy.clearStorage then incarnation + 1 else incarnation) := by
  have wiped : Keeps (confined id) (Incarnate id incarnation)
      (Action.when (policy.clearStorage = true) (do
      wipeStorage env id
      updateAccountEffect id fun effect => { effect with storageWiped := true }))
      fun _ => Incarnate id (if policy.clearStorage then incarnation + 1 else incarnation) := by
    by_cases clears : policy.clearStorage = true
    · rw [if_pos clears]
      exact Keeps.when _ (fun _ => Keeps.bind wipeStorage_confined fun _ =>
        updateAccountEffect_confined _)
        fun kept => absurd clears kept
    · rw [if_neg clears]
      exact Keeps.when _ (fun cleared => absurd cleared clears) fun _ _ known => known
  unfold finalizeSelfdestructed
  exact Keeps.bind wiped fun _ => Keeps.bind (resetOrDelete_confined policy) fun _ =>
    Keeps.bind prepareAccountMutation_confined fun _ =>
    confined_relabel (fun _ => rfl) (fun _ => storage_updateAccount ..) fun _ _ => rfl

theorem finalizeAccount_confined (rules : FinalizationRules) (row : AccountRow) :
    Keeps (confined id) (fun self => self.world.accounts.row id = some row)
      (finalizeAccount env rules id)
      fun _ => Incarnate id (row.settledIncarnation rules) := by
  unfold finalizeAccount
  refine Keeps.bind (accountRow_reads id) fun other => ?_
  refine Keeps.given (fun self => other = row ∧ Incarnate id row.storageIncarnation self) ?_
    (Keeps.assuming fun same => ?_)
  · rintro self ⟨otherHeld, held⟩
    cases held.symm.trans otherHeld
    exact ⟨rfl, row, held, rfl⟩
  · subst same
    unfold AccountRow.settledIncarnation
    split
    · rename_i unmarked
      rw [if_neg fun destructed => absurd (unmarked.2.symm.trans destructed.1) Bool.false_ne_true]
      exact (Keeps.pure ()).weaken fun _ _ holds => holds.2
    · split
      · rename_i kept
        rw [if_neg fun destructed => absurd (kept.symm.trans destructed.1) Bool.false_ne_true]
        exact Keeps.bind prepareAccountMutation_confined fun _ =>
          confined_relabel (fun _ => rfl) (fun _ => storage_updateAccount ..) fun _ _ => rfl
      · rename_i destructed
        have marked : other.flags.selfdestructed = true := Bool.eq_true_of_not_eq_false destructed
        have same : (if other.flags.selfdestructed = true ∧
            (rules.policyFor other.flags).clearStorage = true
              then other.storageIncarnation + 1 else other.storageIncarnation) =
            if (rules.policyFor other.flags).clearStorage then other.storageIncarnation + 1
              else other.storageIncarnation := by
          simp only [marked, true_and]
        rw [same]
        exact finalizeSelfdestructed_confined _

/-! ## The list -/

/-- Slots stay, and rows stay in their places. -/
structure SameSlots (before after : WorldState) : Prop where
  storage : after.world.storage = before.world.storage
  key : ∀ id, after.world.accounts.key id = before.world.accounts.key id

theorem SameSlots.trans {last : WorldState} (first : SameSlots self after)
    (second : SameSlots after last) :
    SameSlots self last :=
  ⟨second.storage.trans first.storage, fun id => (second.key id).trans (first.key id)⟩

theorem SameSlots.storageAt_eq (same : SameSlots self after) (address : Address) (slot : U256) :
    after.storageAt env address slot = self.storageAt env address slot := by
  have find : after.world.accounts.find address = self.world.accounts.find address := by
    apply Option.ext
    intro id
    rw [Table.find_eq_some, Table.find_eq_some, same.key]
  rw [storageAt, storageAt, find, same.storage]

/-- One round settles the account behind the id, and leaves the others alone. -/
theorem finalizeAccount_settled (ran : finalizeAccount env rules id self = .ok () after)
    (address : Address) : SameSlots self after ∧
      (self.world.accounts.key id = some address →
        (self.accountAt env address).Settled rules (after.accountAt env address)) ∧
      (self.world.accounts.key id ≠ some address →
        after.accountAt env address = self.accountAt env address) := by
  cases held : self.world.accounts.row id with
  | none =>
      unfold finalizeAccount at ran
      rw [Action.bind_run, accountRow_run_none held] at ran
      cases ran
  | some row =>
      obtain ⟨place, key⟩ := Table.key_eq_some_of_row held
      have allowed := @finalizeAccount_confined env id rules row self trivial held
      rw [ran] at allowed
      obtain ⟨-, confined, row', held', incarnation⟩ := allowed
      have key' : after.world.accounts.key id = some place := (confined.key id).trans key
      refine ⟨⟨confined.storage, confined.key⟩, fun here => ?_, fun elsewhere => ?_⟩
      · cases key.symm.trans here
        have facts := (finalizeAccount_ran ran address).2
        rw [if_pos key] at facts
        rw [accountAt_of_row key held, accountAt_of_row key' held']
        refine ⟨?_, incarnation, fun unmarked => ?_⟩
        · rwa [factsAt, factsAt, accountAt_of_row key held, accountAt_of_row key' held'] at facts
        · -- an unmarked row is passed over
          have kept : row.flags.created = false ∧ row.flags.selfdestructed = false :=
            ⟨Bool.eq_false_of_not_eq_true fun marked => unmarked (.inl marked),
              Bool.eq_false_of_not_eq_true fun marked => unmarked (.inr marked)⟩
          unfold finalizeAccount at ran
          rw [Action.bind_run, accountRow_run held] at ran
          dsimp only at ran
          rw [if_pos kept] at ran
          cases ran
          cases held.symm.trans held'
          rfl
      · rw [accountAt, accountAt]
        congr 1
        cases found : self.world.accounts.find address with
        | none =>
            have missing : after.world.accounts.find address = none := by
              rw [Table.find_eq_none] at found ⊢
              intro other
              rw [confined.key]
              exact found other
            rw [Table.value_eq_none.mpr found, Table.value_eq_none.mpr missing]
        | some other =>
            have otherKey := Table.find_eq_some.mp found
            have differs : other ≠ id := by
              rintro rfl
              exact elsewhere otherKey
            rw [Table.value_eq_row otherKey, Table.value_eq_row ((confined.key other).trans otherKey),
              confined.row other differs]

/-- The loop settles the accounts behind the ids. -/
theorem finalizeAccounts_settled (ids : List AccountId) (address : Address) :
    ∀ {self after : WorldState}, Action.forEach (finalizeAccount env rules) ids self = .ok () after →
      SameSlots self after ∧
        (after.accountAt env address = self.accountAt env address ∨
          (self.accountAt env address).Settled rules (after.accountAt env address)) ∧
        ((∃ id ∈ ids, self.world.accounts.key id = some address) →
          (self.accountAt env address).Settled rules (after.accountAt env address)) := by
  induction ids with
  | nil =>
      intro self after ran
      cases ran
      refine ⟨⟨rfl, fun _ => rfl⟩, .inl rfl, ?_⟩
      rintro ⟨id, member, -⟩
      cases member
  | cons id ids ih =>
      intro self after ran
      obtain ⟨⟨⟩, middle, first, rest⟩ := Action.bind_eq_ok.mp ran
      obtain ⟨slots, here, elsewhere⟩ := finalizeAccount_settled first address
      obtain ⟨others, either, found⟩ := ih rest
      by_cases same : self.world.accounts.key id = some address
      · have done : (self.accountAt env address).Settled rules (after.accountAt env address) := by
          rcases either with stays | again
          · rw [stays]
            exact here same
          · exact (here same).again again
        exact ⟨slots.trans others, .inr done, fun _ => done⟩
      · rw [elsewhere same] at either found
        refine ⟨slots.trans others, either, ?_⟩
        rintro ⟨other, member, otherKey⟩
        rcases List.mem_cons.mp member with equal | later
        · exact absurd (equal ▸ otherKey) same
        · exact found ⟨other, later, (slots.key other).trans otherKey⟩

/-- Finalisation settles every account. -/
theorem finalizeLifecycle_settled (listed : Listed env self)
    (ran : finalizeLifecycle env rules self = .ok () after) : SameSlots self after ∧ ∀ address,
      (self.accountAt env address).Settled rules (after.accountAt env address) := by
  have unlisted : ∀ address, ¬self.OnList address →
      (self.accountAt env address).Settled rules (self.accountAt env address) :=
    fun address absent => .of_unmarked fun marked => absent (listed.marks address marked)
  obtain ⟨-, ⟨empty, rfl⟩ | ⟨inner, loop, rfl⟩⟩ := finalizeLifecycle_returned ran
  · refine ⟨⟨rfl, fun _ => rfl⟩, fun address => unlisted address ?_⟩
    rintro ⟨id, member, -⟩
    rw [empty] at member
    cases member
  · have slots := (finalizeAccounts_settled self.lifecycleAccounts (Config.addressOf 0) loop).1
    refine ⟨⟨slots.storage, slots.key⟩, fun address => ?_⟩
    obtain ⟨-, either, found⟩ := finalizeAccounts_settled self.lifecycleAccounts address loop
    by_cases onList : self.OnList address
    · exact found onList
    · rcases either with stays | settled
      · have same : (committed self.lifetime.scope inner).accountAt env address =
            self.accountAt env address := stays
        rw [same]
        exact unlisted address onList
      · exact settled

/-- What finalisation leaves of a state, by the rules. -/
structure SettledBy (env : Env) (rules : FinalizationRules) (before after : WorldState) : Prop where
  destroyed : ∀ address, (before.accountAt env address).flags.selfdestructed = true →
    after.accountValue env address =
      (rules.policyFor (before.accountAt env address).flags).leaves (before.accountValue env address)
  wiped : ∀ address slot, (before.accountAt env address).flags.selfdestructed = true →
    (rules.policyFor (before.accountAt env address).flags).clearStorage = true →
    after.storageValue env address slot = 0
  settled : ∀ address, ¬(after.accountAt env address).flags.marks.Any
  kept : ∀ address, (before.accountAt env address).flags.selfdestructed = false →
    after.accountValue env address = before.accountValue env address
  stored : ∀ address slot, ¬((before.accountAt env address).flags.selfdestructed = true ∧
      (rules.policyFor (before.accountAt env address).flags).clearStorage = true) →
    after.storageValue env address slot = before.storageValue env address slot
  unmarked : ∀ address, ¬(before.accountAt env address).flags.marks.Any →
    after.accountAt env address = before.accountAt env address

theorem SettledBy.of_rows (reached : Reached self) (slots : SameSlots self after)
    (rows : ∀ address, (self.accountAt env address).Settled rules (after.accountAt env address)) :
    SettledBy env rules self after where
  destroyed address marked := by
    have facts := (rows address).facts
    have destructed : ¬(self.accountAt env address).facts.marks.selfdestructed = false :=
      fun kept => absurd (kept.symm.trans marked) Bool.false_ne_true
    rw [AccountFacts.finalized_selfdestructed destructed] at facts
    exact congrArg AccountFacts.current facts
  wiped address slot marked clears := by
    have incarnation := (rows address).incarnation
    rw [AccountRow.settledIncarnation, if_pos ⟨marked, clears⟩] at incarnation
    have behind : (self.storageAt env address slot).storageIncarnation ≤
        (self.accountAt env address).storageIncarnation := reached.behind address slot
    rw [storageValue, effectiveValue, slots.storageAt_eq, incarnation, if_pos]
    exact Nat.ne_of_lt (Nat.lt_succ_of_le behind)
  settled address := (rows address).marks
  kept address unmarked := by
    have facts := (rows address).facts
    by_cases created : (self.accountAt env address).flags.created = false
    · rw [AccountFacts.finalized_unmarked ⟨created, unmarked⟩] at facts
      exact congrArg AccountFacts.current facts
    · rw [AccountFacts.finalized_created (fun both => created both.1) unmarked] at facts
      exact congrArg AccountFacts.current facts
  stored address slot spared := by
    have incarnation := (rows address).incarnation
    rw [AccountRow.settledIncarnation, if_neg spared] at incarnation
    rw [storageValue, storageValue, effectiveValue, effectiveValue, slots.storageAt_eq, incarnation]
  unmarked address clean := (rows address).unmarked clean

end WorldState

/-! ## Runs -/

namespace Config

open WorldState

variable {config : Config}

/-- A contract created by the attempt destroys itself, and holds eleven wei. -/
def destroyedRun : List Move :=
  [.beginAttempt false, .openSession, .call (.setBalance (addressOf 1) 11), .checkpoint,
    .call (.initializeContract (addressOf 1) 1),
    .call (.applySelfDestruct (addressOf 1) (addressOf 1) ⟨false, true⟩ false), .commitCheckpoint]

/-- Accounts created in the attempt lose their storage, nonce and code, but not their balance. -/
def resettingRules : FinalizationRules where
  createdAccount := { clearStorage := true, resetAccount := true }

/-- A slot of a wiped account comes, by a stale restore, to an account that was never wiped. -/
def misplacedWipe : List Move :=
  ([.branchSnapshot, .beginAttempt false, .openSession, .checkpoint,
    .call (.initializeContract (addressOf 1) 1), .commitCheckpoint, .call (.finalizeLifecycle {}),
    .call (.setStorage (addressOf 1) 5 7), .closeSession, .sealAttempt, .retainAttempt,
    .branchSnapshot, .restoreBranch 0] : List Move) ++
  attemptOf [.getBalance (addressOf 2), .getBalance (addressOf 3), .getStorage (addressOf 4) 5] ++
  ([.restoreBranch 1, .beginAttempt false, .openSession, .call (.getBalance (addressOf 8)),
    .call (.getStorage (addressOf 9) 5), .checkpoint,
    .call (.applySelfDestruct (addressOf 9) (addressOf 9) ⟨false, true⟩ false), .commitCheckpoint] :
      List Move)

def deletingRules : FinalizationRules where
  existingAccount := { deleteAccount := true, clearStorage := true }

/-- Finalisation settles every mark as the rules say, or changes nothing a caller can read. -/
theorem finalizeLifecycle_settles {genesis : Genesis} {moves : List Move}
    (faithful : (init genesis).Faithful genesis.env moves)
    (reached : (init genesis).exec genesis.env moves = some config) (rules : FinalizationRules) :
    (∀ error after, WorldState.finalizeLifecycle genesis.env rules config.state = .fail error after →
      SameReads genesis.env config.state after) ∧
    (∀ after, WorldState.finalizeLifecycle genesis.env rules config.state = .ok () after →
      SettledBy genesis.env rules config.state after) := by
  have orderly := exec_orderly faithful reached
  obtain ⟨base, scope, inv⟩ := orderly.layered.inv
  constructor
  · intro error after ran
    obtain ⟨running, inner, under, reverted⟩ := finalizeLifecycle_failed inv ran
    exact reverted.sameReads under inv running
  · intro after ran
    have running := (finalizeLifecycle_returned ran).1
    obtain ⟨slots, rows⟩ := finalizeLifecycle_settled (orderly.layered.listed running) ran
    exact .of_rows orderly.layered.reached slots rows

/-- A self-destructed account that holds a balance may stay, and after a stale restore a wipe shows
a slot. -/
theorem finalizeLifecycle_spares :
    (∃ (config : Config) (after : WorldState), (init bare).exec bare.env destroyedRun = some config ∧
      WorldState.finalizeLifecycle bare.env resettingRules config.state = .ok () after ∧
      (config.state.accountAt bare.env (addressOf 1)).flags.selfdestructed = true ∧
      after.accountValue bare.env (addressOf 1) ≠ none) ∧
    ∃ (config : Config) (after : WorldState), (init bare).exec bare.env misplacedWipe = some config ∧
      WorldState.finalizeLifecycle bare.env deletingRules config.state = .ok () after ∧
      (config.state.accountAt bare.env (addressOf 9)).flags.selfdestructed = true ∧
      config.state.storageValue bare.env (addressOf 9) 5 = 0 ∧
      after.storageValue bare.env (addressOf 9) 5 = 7 := by
  constructor
  · have values : (((init bare).exec bare.env destroyedRun).bind fun config =>
        (WorldState.finalizeLifecycle bare.env resettingRules config.state).toOption.map fun last =>
          ((config.state.accountAt bare.env (addressOf 1)).flags.selfdestructed,
            (last.2.accountValue bare.env (addressOf 1)).isSome)) = some (true, true) := by
      decide +kernel
    obtain ⟨config, reached, values⟩ := Option.bind_eq_some_iff.mp values
    obtain ⟨⟨_, after⟩, ran, values⟩ := Option.map_eq_some_iff.mp values
    obtain ⟨destructed, stays⟩ := Prod.mk.inj values
    refine ⟨config, after, reached, Outcome.toOption_eq_some.mp ran, destructed, fun gone => ?_⟩
    rw [gone] at stays
    cases stays
  · have values : (((init bare).exec bare.env misplacedWipe).bind fun config =>
        (WorldState.finalizeLifecycle bare.env deletingRules config.state).toOption.map fun last =>
          ((config.state.accountAt bare.env (addressOf 9)).flags.selfdestructed,
            config.state.storageValue bare.env (addressOf 9) 5,
            last.2.storageValue bare.env (addressOf 9) 5)) = some (true, 0, 7) := by
      decide +kernel
    obtain ⟨config, reached, values⟩ := Option.bind_eq_some_iff.mp values
    obtain ⟨⟨_, after⟩, ran, values⟩ := Option.map_eq_some_iff.mp values
    obtain ⟨destructed, values⟩ := Prod.mk.inj values
    obtain ⟨hidden, shown⟩ := Prod.mk.inj values
    exact ⟨config, after, reached, Outcome.toOption_eq_some.mp ran, destructed, hidden, shown⟩

/-- The contract that destroyed itself. -/
theorem finalizeLifecycle_settles_destroyed : ∃ (config : Config) (after : WorldState),
    (init bare).exec bare.env destroyedRun = some config ∧
      WorldState.finalizeLifecycle bare.env resettingRules config.state = .ok () after ∧
      SettledBy bare.env resettingRules config.state after := by
  have values : (((init bare).exec bare.env destroyedRun).bind fun config =>
      (WorldState.finalizeLifecycle bare.env resettingRules config.state).toOption.map fun _ => ()) =
        some () := by decide +kernel
  obtain ⟨config, reached, values⟩ := Option.bind_eq_some_iff.mp values
  obtain ⟨⟨_, after⟩, ran, -⟩ := Option.map_eq_some_iff.mp values
  have settles := finalizeLifecycle_settles (faithful_of_no_restore (by simp [destroyedRun])) reached
    resettingRules
  exact ⟨config, after, reached, Outcome.toOption_eq_some.mp ran,
    settles.2 after (Outcome.toOption_eq_some.mp ran)⟩

end Config

end EvmZig.State
