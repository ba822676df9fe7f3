import EvmZig.State.Lifecycle

/-!
# What finalisation leaves

Finalisation deals with every account on its list once, and leaves the others
as they are.
-/

set_option autoImplicit false

namespace EvmZig.State

open Lib Zig

variable {facts : AccountFacts} {rules : FinalizationRules}

/-- What finalisation leaves of a self-destructed account. -/
def SelfDestructFinalization.leaves (policy : SelfDestructFinalization) (current : Option Account) :
    Option Account :=
  if policy.resetAccount then
    let account : Account := { current.getD {} with nonce := 0, codeHash := keccak256Empty }
    if account.balance = 0 then none else some account
  else if policy.deleteAccount then none
  else current

/-- What finalisation leaves of an account. -/
def AccountFacts.finalized (facts : AccountFacts) (rules : FinalizationRules) : AccountFacts :=
  if facts.marks.created = false ∧ facts.marks.selfdestructed = false then facts
  else if facts.marks.selfdestructed = false then
    { facts with marks := { facts.marks with created := false } }
  else
    { facts with
      current := (if facts.marks.created then rules.createdAccount else rules.existingAccount).leaves
        facts.current
      marks := ⟨false, false⟩ }

theorem AccountFacts.finalized_unmarked
    (unmarked : facts.marks.created = false ∧ facts.marks.selfdestructed = false) :
    facts.finalized rules = facts :=
  if_pos unmarked

theorem AccountFacts.finalized_created
    (marked : ¬(facts.marks.created = false ∧ facts.marks.selfdestructed = false))
    (kept : facts.marks.selfdestructed = false) :
    facts.finalized rules = { facts with marks := { facts.marks with created := false } } :=
  (if_neg marked).trans (if_pos kept)

theorem AccountFacts.finalized_selfdestructed (destructed : ¬facts.marks.selfdestructed = false) :
    facts.finalized rules = { facts with
      current := (if facts.marks.created then rules.createdAccount else rules.existingAccount).leaves
        facts.current
      marks := ⟨false, false⟩ } :=
  (if_neg fun unmarked => destructed unmarked.2).trans (if_neg destructed)

/-- A second round changes nothing. -/
theorem AccountFacts.finalized_idem (facts : AccountFacts) (rules : FinalizationRules) :
    (facts.finalized rules).finalized rules = facts.finalized rules := by
  by_cases unmarked : facts.marks.created = false ∧ facts.marks.selfdestructed = false
  · rw [finalized_unmarked unmarked, finalized_unmarked unmarked]
  · by_cases kept : facts.marks.selfdestructed = false
    · rw [finalized_created unmarked kept]
      exact finalized_unmarked ⟨rfl, kept⟩
    · rw [finalized_selfdestructed kept]
      exact finalized_unmarked ⟨rfl, rfl⟩

namespace WorldState

variable {env : Env} {touched : Address → Prop} {self after : WorldState} {α : Type}

/-! ## Facts under finalisation -/

/-- Rows stay, and the accounts outside `touched` keep their facts. -/
structure Framed (env : Env) (touched : Address → Prop) (before after : WorldState) : Prop where
  key : ∀ id address, before.world.accounts.key id = some address →
    after.world.accounts.key id = some address
  facts : ∀ address, ¬touched address → after.factsAt env address = before.factsAt env address

def frame (env : Env) (touched : Address → Prop) : Discipline WorldState where
  inv _ := True
  rel := Framed env touched
  refl _ := ⟨fun _ _ found => found, fun _ _ => rfl⟩
  trans left right := ⟨fun id address found => right.key id address (left.key id address found),
    fun address outside => (right.facts address outside).trans (left.facts address outside)⟩

theorem frame_of_accounts {pre : WorldState → Prop} {post : α → WorldState → Prop} {body : Method α}
    (kept : Keeps (accounts env touched) pre body post) : Keeps (frame env touched) pre body post :=
  kept.relate (fun _ _ => trivial) fun _ _ _ _ rel => ⟨trivial, rel.key, rel.facts⟩

theorem frame_reading {id : AccountId} {address : Address} {held : AccountFacts} {body : Method α}
    (safe : Safe (reading env) body) :
    Keeps (frame env touched) (FactsOf env id address held) body
      fun _ => FactsOf env id address held :=
  frame_of_accounts (reading_facts safe)

theorem frame_assign {id : AccountId} {address : Address} {held : AccountFacts}
    {update : AccountRow → AccountRow} (assigned : AccountFacts)
    (facts : ∀ row, row.facts = held → (update row).facts = assigned) :
    Keeps (frame env (· = address)) (FactsOf env id address held)
      (Action.modify (updateAccount id update) : Method Unit)
      fun _ => FactsOf env id address assigned := by
  refine Keeps.modify fun self _ known => ⟨trivial, ⟨?_, ?_⟩, ?_, ?_⟩
  · exact (updateAccount_grows id update).key
  · intro other differs
    rw [factsAt, accountAt_updateAccount_other known.1 differs]
    rfl
  · rw [key_updateAccount, known.1]
  · rw [factsAt, accountAt_updateAccount known.1]
    exact facts _ known.2

theorem resetOrDelete_facts (id : AccountId) (address : Address) (policy : SelfDestructFinalization)
    (held : AccountFacts) :
    Keeps (frame env (· = address)) (FactsOf env id address held) (resetOrDelete env id policy)
      fun _ => FactsOf env id address { held with current := policy.leaves held.current } := by
  unfold resetOrDelete SelfDestructFinalization.leaves
  split
  · rename_i resets
    refine Keeps.bind (frame_of_accounts accountRow_facts) fun row => Keeps.assuming fun same => ?_
    subst same
    exact frame_of_accounts (writeAccount_facts id address _ row.facts)
  · by_cases deletes : policy.deleteAccount = true
    · rw [if_pos deletes]
      exact Keeps.when _ (fun _ => frame_of_accounts (writeAccount_facts id address none held))
        fun kept => absurd deletes kept
    · rw [if_neg deletes]
      exact Keeps.when _ (fun deleted => absurd deleted deletes) fun _ _ known => known

theorem finalizeSelfdestructed_facts (id : AccountId) (address : Address)
    (policy : SelfDestructFinalization) (held : AccountFacts) :
    Keeps (frame env (· = address)) (FactsOf env id address held)
      (finalizeSelfdestructed env id policy)
      fun _ => FactsOf env id address
        { held with current := policy.leaves held.current, marks := ⟨false, false⟩ } := by
  have wiped : Safe (reading env) (Action.when (policy.clearStorage = true) (do
      wipeStorage env id
      updateAccountEffect id fun effect => { effect with storageWiped := true })) :=
    Safe.when (Safe.bind (wipeStorage_accounts id) fun _ => updateAccountEffect_accounts id _)
  unfold finalizeSelfdestructed
  refine Keeps.bind (frame_reading wiped) fun _ =>
    Keeps.bind (resetOrDelete_facts id address policy held) fun _ =>
    Keeps.bind (frame_reading (prepareAccountMutation_accounts id)) fun _ =>
    frame_assign _ fun row same => ?_
  simp only [AccountRow.facts, AccountFacts.mk.injEq] at same ⊢
  exact ⟨same.1, same.2.1, rfl, same.2.2.2⟩

theorem finalizeAccount_facts (rules : FinalizationRules) (id : AccountId) (address : Address)
    (held : AccountFacts) :
    Keeps (frame env (· = address)) (FactsOf env id address held) (finalizeAccount env rules id)
      fun _ => FactsOf env id address (held.finalized rules) := by
  unfold finalizeAccount
  refine Keeps.bind (frame_of_accounts accountRow_facts) fun row => Keeps.assuming fun same => ?_
  subst same
  split
  · rename_i unmarked
    rw [AccountFacts.finalized_unmarked unmarked]
    exact (Keeps.pure ()).weaken fun _ _ holds => holds.2
  · rename_i marked
    split
    · rename_i kept
      rw [AccountFacts.finalized_created marked kept]
      refine Keeps.bind (frame_reading (prepareAccountMutation_accounts id)) fun _ =>
        frame_assign _ fun other same => ?_
      rw [← same]
      rfl
    · rename_i destructed
      rw [AccountFacts.finalized_selfdestructed destructed]
      exact finalizeSelfdestructed_facts id address _ row.facts

/-- One round: the account behind the id is finalised, the others are left alone. -/
theorem finalizeAccount_ran {id : AccountId}
    (ran : finalizeAccount env rules id self = .ok () after) (address : Address) :
    (∀ other place, self.world.accounts.key other = some place →
      after.world.accounts.key other = some place) ∧
    after.factsAt env address =
      if self.world.accounts.key id = some address then (self.factsAt env address).finalized rules
      else self.factsAt env address := by
  cases found : self.world.accounts.key id with
  | none =>
      have missing : self.world.accounts.row id = none := by
        cases held : self.world.accounts.row id with
        | none => rfl
        | some row =>
            obtain ⟨place, key⟩ := Table.key_eq_some_of_row held
            rw [found] at key
            cases key
      unfold finalizeAccount at ran
      rw [Action.bind_run, accountRow_run_none missing] at ran
      cases ran
  | some place =>
      have allowed := finalizeAccount_facts rules id place (self.factsAt env place) self trivial
          ⟨found, rfl⟩
      rw [ran] at allowed
      refine ⟨allowed.2.1.key, ?_⟩
      by_cases same : place = address
      · subst same
        rw [if_pos rfl]
        exact allowed.2.2.2
      · rw [if_neg fun equal => same (Option.some.inj equal)]
        exact allowed.2.1.facts address fun equal => same equal.symm

/-- The loop: accounts are finalised or left alone, and those behind an id are finalised. -/
theorem finalizeAccounts_ran (ids : List AccountId) (address : Address) :
    ∀ {self after : WorldState}, Action.forEach (finalizeAccount env rules) ids self = .ok () after →
      (after.factsAt env address = self.factsAt env address ∨
        after.factsAt env address = (self.factsAt env address).finalized rules) ∧
      ((∃ id ∈ ids, self.world.accounts.key id = some address) →
        after.factsAt env address = (self.factsAt env address).finalized rules) := by
  induction ids with
  | nil =>
      intro self after ran
      cases ran
      refine ⟨.inl rfl, ?_⟩
      rintro ⟨id, member, -⟩
      cases member
  | cons id ids ih =>
      intro self after ran
      obtain ⟨⟨⟩, middle, first, rest⟩ := Action.bind_eq_ok.mp ran
      obtain ⟨key, here⟩ := finalizeAccount_ran first address
      obtain ⟨either, found⟩ := ih rest
      by_cases same : self.world.accounts.key id = some address
      · rw [if_pos same] at here
        rw [here, AccountFacts.finalized_idem] at either
        have done : after.factsAt env address = (self.factsAt env address).finalized rules :=
          either.elim (fun same => same) fun same => same
        exact ⟨.inr done, fun _ => done⟩
      · rw [if_neg same] at here
        rw [here] at either found
        refine ⟨either, ?_⟩
        rintro ⟨other, member, otherKey⟩
        rcases List.mem_cons.mp member with equal | later
        · exact absurd (equal ▸ otherKey) same
        · exact found ⟨other, later, key other address otherKey⟩

/-- After finalisation every account is what the rules leave of it. -/
theorem finalizeLifecycle_ran (held : Listed env self)
    (ran : finalizeLifecycle env rules self = .ok () after) (address : Address) :
    after.factsAt env address = (self.factsAt env address).finalized rules := by
  have unlisted : ¬self.OnList address →
      (self.factsAt env address).finalized rules = self.factsAt env address := by
    intro absent
    refine AccountFacts.finalized_unmarked ⟨?_, ?_⟩
    · exact Bool.not_eq_true _ ▸ fun created => absent (held.marks address (.inl created))
    · exact Bool.not_eq_true _ ▸ fun destructed => absent (held.marks address (.inr destructed))
  unfold finalizeLifecycle at ran
  obtain ⟨⟨⟩, asserted, session, ran⟩ := Action.bind_eq_ok.mp ran
  have quiet : KeepsAccounts env (fun _ => False) self asserted :=
    reading_ok assertSession_looks.safe session
  obtain ⟨listed, _, read, ran⟩ := Action.bind_eq_ok.mp ran
  cases read
  dsimp only at ran
  split at ran
  · rename_i empty
    cases ran
    rw [quiet.facts address id, unlisted]
    rintro ⟨id, member, -⟩
    rw [← quiet.listed, empty] at member
    cases member
  · unfold underCheckpoint at ran
    obtain ⟨checkpointed, opened, opens, ran⟩ := Action.bind_eq_ok.mp ran
    have openQuiet : KeepsAccounts env (fun _ => False) asserted opened :=
      reading_ok checkpoint_accounts opens
    obtain ⟨⟨⟩, looped, loop, commits⟩ := closing_eq_ok.mp ran
    have commitQuiet : KeepsAccounts env (fun _ => False) looped after :=
      reading_ok (commitCheckpoint_accounts checkpointed) commits
    obtain ⟨either, found⟩ := finalizeAccounts_ran _ address loop
    rw [commitQuiet.facts address id]
    rw [openQuiet.facts address id, quiet.facts address id] at either found
    by_cases onList : self.OnList address
    · obtain ⟨id, member, key⟩ := onList
      exact found ⟨id, by rwa [quiet.listed], openQuiet.key _ _ (quiet.key _ _ key)⟩
    · rw [unlisted onList] at either ⊢
      exact either.elim (fun same => same) fun same => same

end WorldState

end EvmZig.State
