import EvmZig.State.Incarnations

/-!
# Marks and wipes along runs

Beside what every faithful run keeps, along the scopes that rollback can go back
to: slots stay behind their account's storage, marked accounts are listed while
an attempt runs, and none is marked once it is sealed or between attempts.
-/

set_option autoImplicit false

namespace EvmZig.State

open Lib Zig

namespace WorldState

variable {env : Env} {self after : WorldState}

/-! ## Outside sessions -/

/-- A session can be used. -/
def InSession (state : WorldState) : Prop := Running state ∧ state.SessionActive

theorem assertSession_outside (outside : ¬InSession self) : assertSession self = .illegal := by
  by_cases running : self.transactionActive = true
  · have closed : ¬self.SessionActive := fun session => outside ⟨running, session⟩
    simp only [assertSession, Action.bind_run, Action.assert, if_pos running, if_neg closed]
  · simp only [assertSession, Action.bind_run, Action.assert, if_neg running]

theorem bind_stuck {α β : Type} {next : β → Method α} {body : Method β}
    (first : body self = .illegal) (ends : Nested.EndsIn ((body >>= next) self) after) : False := by
  rw [Nested.EndsIn, Action.bind_run, first] at ends
  rcases ends with ⟨_, ran⟩ | ⟨_, ran⟩ <;> cases ran

/-- Outside a session no call marks an account. -/
theorem Op.run_outside {op : Op} (outside : ¬InSession self)
    (ends : Nested.EndsIn (op.run env self) after) :
    ∃ touched, KeepsAccounts env touched self after := by
  have stuck := assertSession_outside outside
  have kept : ∀ {touched : Address → Prop} {α : Type} {body : Method α},
      Safe (accounts env touched) body → Nested.EndsIn (body self) after →
        ∃ touched, KeepsAccounts env touched self after :=
    fun safe ends => ⟨_, ends_of_safe safe trivial ends⟩
  cases op with
  | setBalance address balance => exact kept (setBalance_accounts address balance) ends
  | addBalance address value => exact kept (addBalance_accounts address value) ends
  | subtractBalance address value => exact kept (subtractBalance_accounts address value).discard ends
  | setNonce address nonce => exact kept (setNonce_accounts address nonce) ends
  | setCode address bytes => exact kept (setCode_accounts address bytes) ends
  | clearCode address => exact kept (setCode_accounts address []) ends
  | touchAccount address => exact kept (touchAccount_accounts address) ends
  | initializeContract address nonce => exact (bind_stuck stuck ends).elim
  | applySelfDestruct source beneficiary policy touch =>
      have inner : Nested.EndsIn
          ((WorldState.applySelfDestruct env source beneficiary policy touch >>= fun _ =>
            pure ()) self) after := ends
      refine (bind_stuck ?_ inner).elim
      unfold WorldState.applySelfDestruct
      rw [Action.bind_run, stuck]
  | finalizeLifecycle rules => exact (bind_stuck stuck ends).elim
  | setTransientStorage => exact (bind_stuck stuck ends).elim
  | clearTransientStorage => exact (bind_stuck stuck ends).elim
  | clearLogs => exact @kept (fun _ => False) _ _ clearLogs_accounts ends
  | _ => exact @kept (fun _ => False) _ _ (accounts_of_changes (by exact id)
      (Op.run_changes _ (by trivial))) ends

/-! ## Scopes -/

/-- An accepted state or one under its open checkpoints, innermost first; what holds of it holds of
every state a rollback can go back to. -/
inductive Layered (env : Env) : WorldState → List Checkpoint → Prop
  | idle {state : WorldState} (rested : Rested env state) (reached : Reached state) :
      Layered env state []
  | attempt {start state : WorldState} (rested : Rested env start) (behind : Reached start)
      (since : Since env start state) (reached : Reached state) (listed : Listed env state)
      (settled : state.sealed = true →
        state.scopeDepth = 0 ∧ ∀ address, ¬(state.factsAt env address).marks.Any) :
      Layered env state []
  | scope {outer state : WorldState} {stack : List Checkpoint} (around : Layered env outer stack)
      (inside : InSession outer) (under : Under env False outer state) (reached : Reached state)
      (listed : Listed env state) : Layered env state (mark outer :: stack)

namespace Layered

variable {stack : List Checkpoint} {held : Checkpoint}

theorem nested (layered : Layered env self stack) : Nested env False (Outermost env) self stack := by
  induction layered with
  | idle rested reached => exact .root (.idle rested.inv rested.notActive)
  | attempt rested behind since reached listed settled =>
      exact .root (.attempt _ rested.inv rested.notActive since)
  | scope around inside under reached listed ih => exact .scope ih inside.1 inside.2 under

theorem inv (layered : Layered env self stack) : ∃ base scope, Inv env base scope self :=
  layered.nested.inv rooted_outermost

theorem reached (layered : Layered env self stack) : Reached self := by
  cases layered with
  | idle rested reached => exact reached
  | attempt rested behind since reached listed settled => exact reached
  | scope around inside under reached listed => exact reached

theorem listed (layered : Layered env self stack) (running : Running self) : Listed env self := by
  cases layered with
  | idle rested reached =>
      rw [Running, rested.notActive] at running
      cases running
  | attempt rested behind since reached listed settled => exact listed
  | scope around inside under reached listed => exact listed

theorem rested (layered : Layered env self stack) (idle : self.transactionActive = false) :
    stack = [] ∧ Rested env self := by
  have contradiction : Running self → False := fun running => by
    rw [Running, idle] at running
    cases running
  cases layered with
  | idle rested reached => exact ⟨rfl, rested⟩
  | attempt rested behind since reached listed settled => exact (contradiction since.running).elim
  | scope around inside under reached listed => exact (contradiction (under.running inside.1)).elim

/-- A step inside every scope around it. -/
theorem next (layered : Layered env self stack)
    (steps : ∀ base scope, Inv env base scope self →
      Inv env base scope after ∧ (calls env False base scope).rel self after)
    (reached : Reached after) (listed : Running self → Listed env after)
    (outside : ¬InSession self → ∃ touched, KeepsAccounts env touched self after) :
    Layered env after stack := by
  cases layered with
  | idle rested _ =>
      obtain ⟨later, rel⟩ := steps _ _ rested.inv
      have closed : ¬InSession self := by
        intro inside
        have running := inside.1
        rw [Running, rested.notActive] at running
        cases running
      obtain ⟨touched, kept⟩ := outside closed
      refine .idle ⟨?_, rel.1.transactionActive.trans rested.notActive, ?_, ?_⟩ reached
      · rw [later.scope]
        exact later
      · intro address
        rw [kept.marks]
        exact rested.unmarked.marks address
      · intro address
        rw [kept.stamp]
        exact (rested.unmarked.past address).trans rel.1.clock
  | attempt rested behind since _ _ settled =>
      obtain ⟨later, rel⟩ := steps _ _ since.inv
      refine .attempt rested behind (since.next later rel.1) reached (listed since.running) ?_
      intro isSealed
      obtain ⟨depth, unmarked⟩ := settled (rel.1.sealed.symm.trans isSealed)
      obtain ⟨touched, kept⟩ := outside fun inside => inside.2 depth
      refine ⟨rel.2.2.trans depth, fun address => ?_⟩
      rw [kept.marks]
      exact unmarked address
  | scope around inside under _ _ =>
      obtain ⟨later, rel⟩ := steps _ _ under.inv
      exact .scope around inside (under.next later rel) reached (listed (under.running inside.1))

theorem called {op : Op} (layered : Layered env self stack)
    (ends : Nested.EndsIn (op.run env self) after) : Layered env after stack := by
  obtain ⟨base, scope, inv⟩ := layered.inv
  refine layered.next (fun base scope inv => ?_) (layered.reached.called inv ends)
    (fun running => (listing_ends (Op.run_listing op) (layered.listed running) ends).1)
    fun outside => Op.run_outside outside ends
  have allowed := (op.run_safe False.elim : Safe (calls env False base scope) (op.run env)) self inv
      trivial
  rcases ends with ⟨value, outcome⟩ | ⟨error, outcome⟩
  · rw [outcome] at allowed
    exact ⟨allowed.1, allowed.2.1⟩
  · rw [outcome] at allowed
    exact allowed

theorem checkpoint (layered : Layered env self stack)
    (ran : WorldState.checkpoint self = .ok held after) : Layered env after (held :: stack) := by
  rcases checkpoint_run self with stuck | ⟨running, session, opens⟩
  · rw [stuck] at ran
    cases ran
  · rw [opens] at ran
    cases ran
    obtain ⟨base, scope, inv⟩ := layered.inv
    refine .scope layered ⟨running, session⟩ (Under.start inv running)
      (layered.reached.of_tables rfl rfl) ?_
    exact (listing_ends (listing_of_reading checkpoint_accounts) (layered.listed running)
      (.inl ⟨_, opens⟩)).1

/-- Closing a checkpoint, either way. -/
theorem closed (layered : Layered env self (held :: stack))
    (ran : WorldState.commitCheckpoint held self = .ok () after ∨
      WorldState.revertToCheckpoint held self = .ok () after) : Layered env after stack := by
  cases layered with
  | scope around inside under reached listed =>
      rename_i outer
      obtain ⟨running, session⟩ := inside
      obtain ⟨base, scope, inv⟩ := around.inv
      have open_ : ¬InSession outer → ∃ touched, KeepsAccounts env touched outer after :=
        fun outside => absurd ⟨running, session⟩ outside
      rcases ran with commits | reverts
      · have later := (listing_ends (listing_of_reading (commitCheckpoint_accounts (mark outer))) listed
          (.inl ⟨_, commits⟩)).1
        obtain ⟨-, rfl⟩ := commitCheckpoint_ran commits
        exact around.next (fun base scope inv =>
          ⟨committed_inv under inv running, committed_follows under inv running⟩)
          (reached.of_tables rfl rfl) (fun _ => later) open_
      · have later := (listing_ends (revertToCheckpoint_listing (mark outer)) listed
          (.inl ⟨_, reverts⟩)).1
        obtain ⟨last, reverted, exact_⟩ :=
          revertToCheckpoint_run under inv running (reverts_reaches reverts)
        rw [reverted] at reverts
        cases reverts
        have behind : Behind (after.view env) :=
          around.reached.behind.of_accepted fun cell accepted => exact_.view cell accepted.watched
        exact around.next (fun base scope inv =>
          ⟨exact_.inv under inv running, exact_.rel under inv running⟩) (behind.reached exact_.stamps)
          (fun _ => later) open_

theorem asked (layered : Layered env self stack) (requests : Nat) :
    Layered env (WorldState.asked requests self) stack := by
  refine layered.next (fun base scope inv => (quiet_requests self requests).step False inv)
    (layered.reached.of_tables rfl rfl) (fun running => (layered.listed running).same rfl rfl rfl rfl)
    fun _ => ⟨fun _ => False, .of_accounts rfl ⟨⟨rfl, rfl⟩, rfl⟩⟩

/-- Outside its checkpoints, an attempt. -/
theorem attempted (layered : Layered env self stack) (running : Running self)
    (shallow : self.scopeDepth ≤ 1) :
    stack = [] ∧ ∃ start, Rested env start ∧ Reached start ∧ Since env start self ∧
      (self.sealed = true →
        self.scopeDepth = 0 ∧ ∀ address, ¬(self.factsAt env address).marks.Any) := by
  cases layered with
  | idle rested reached =>
      rw [Running, rested.notActive] at running
      cases running
  | attempt rested behind since reached listed settled => exact ⟨rfl, _, rested, behind, since, settled⟩
  | scope around inside under reached listed =>
      have deep := (Layered.scope around inside under reached listed).nested.deep.2
      exact absurd (deep.trans shallow) (by decide)

theorem begin {observe : Bool} {attempt : Generation} (layered : Layered env self stack)
    (ran : beginAttemptMode observe self = .ok attempt after) : Layered env after stack := by
  have journal := beginAttemptMode_journal ran
  obtain ⟨notActive, -, rfl⟩ := beginAttemptMode_ran ran
  obtain ⟨rfl, rested⟩ := layered.rested notActive
  exact .attempt rested layered.reached (Since.begin rested.inv notActive)
    (layered.reached.of_tables rfl rfl) (begun_listed rested.unmarked journal) fun isSealed =>
    nomatch isSealed

/-- Opening a session, or closing it. -/
theorem rescope (layered : Layered env self stack) (running : Running self)
    (shallow : self.scopeDepth ≤ 1) (unsealed : self.sealed = false) (root : Generation) (depth : Nat)
    (since : ∀ start, Since env start self → Since env start (rescoped root depth self)) :
    Layered env (rescoped root depth self) stack := by
  obtain ⟨rfl, start, rested, behind, began, -⟩ := layered.attempted running shallow
  refine .attempt rested behind (since start began) (layered.reached.of_tables rfl rfl)
    ((layered.listed running).same rfl rfl rfl rfl) fun isSealed => ?_
  have sealed : self.sealed = true := isSealed
  rw [unsealed] at sealed
  cases sealed

theorem openSession_unsealed (ran : openSession self = .ok () after) : self.sealed = false := by
  unfold openSession assertMutable at ran
  obtain ⟨_, _, mutable, -⟩ := Action.bind_eq_ok.mp ran
  obtain ⟨_, _, active, mutable⟩ := Action.bind_eq_ok.mp mutable
  obtain ⟨-, rfl⟩ := Action.assert_eq_ok.mp active
  obtain ⟨_, _, unsealed, -⟩ := Action.bind_eq_ok.mp mutable
  exact (Action.assert_eq_ok.mp unsealed).1

theorem openSession (layered : Layered env self stack)
    (ran : WorldState.openSession self = .ok () after) :
    Layered env after stack := by
  have unsealed := openSession_unsealed ran
  obtain ⟨running, depth, rfl⟩ := openSession_ran ran
  have shallow : self.scopeDepth ≤ 1 := by
    rw [depth]
    exact Nat.zero_le _
  exact layered.rescope running shallow unsealed _ _ fun start since => since.rescope _ _

theorem closeSession (layered : Layered env self stack)
    (ran : WorldState.closeSession self = .ok () after) : Layered env after stack := by
  obtain ⟨running, depth, rfl⟩ := closeSession_ran ran
  obtain ⟨-, -, -, -, -, settled⟩ := layered.attempted running depth.le
  have unsealed : self.sealed = false := by
    cases isSealed : self.sealed with
    | false => rfl
    | true =>
        have closed := (settled isSealed).1
        rw [depth] at closed
        cases closed
  exact layered.rescope running depth.le unsealed _ _ fun start since => since.rescope _ _

theorem sealAttempt {attempt : Generation} (layered : Layered env self stack) (running : Running self)
    (ran : WorldState.sealAttempt attempt self = .ok () after) : Layered env after stack := by
  have listed := layered.listed running
  have unmarked := sealAttempt_unmarked listed ran
  obtain ⟨-, closed, rfl⟩ := sealAttempt_ran listed.begun ran
  obtain ⟨rfl, start, rested, behind, since, -⟩ :=
    layered.attempted running (Config.shallow_of_closed closed)
  refine .attempt rested behind since.seal (layered.reached.of_tables rfl rfl)
    (listed.same rfl rfl rfl rfl) fun _ => ⟨not_not.mp closed, unmarked⟩

theorem retain {attempt : Generation} (layered : Layered env self stack) (running : Running self)
    (ran : retainAttempt attempt self = .ok () after) : Layered env after stack := by
  obtain ⟨isSealed, closed, -⟩ := retainAttempt_parts ran
  obtain ⟨rfl, start, rested, behind, since, settled⟩ :=
    layered.attempted running (Config.shallow_of_closed closed)
  have retained := retainAttempt_ran since ran
  have active := since.inv.active since.running
  have unmarked : Unmarked env self := ⟨(settled isSealed).2, fun address =>
    ((layered.listed running).past address).trans active.transactionPast⟩
  have behind : Behind (after.view env) := by
    have before : Behind (self.view env) := layered.reached.behind
    intro address slot
    have account : (after.view env (.account address)).storageIncarnation =
        (self.view env (.account address)).storageIncarnation := by
      change (after.accountAt env address).storageIncarnation =
        (self.accountAt env address).storageIncarnation
      rw [accountAt, accountAt, retained.accounts]
    have same : (after.view env (.slot address slot)).storageIncarnation =
        (self.view env (.slot address slot)).storageIncarnation := by
      change (after.storageAt env address slot).storageIncarnation =
        (self.storageAt env address slot).storageIncarnation
      rcases retained.slot address slot with kept | cleared
      · rw [kept]
      · rw [cleared]
        rfl
    rw [account, same]
    exact before address slot
  refine .idle ⟨?_, retained.idle, unmarked.of_rows retained.accounts retained.clock.ge⟩
    (behind.reached retained.inv.stamps)
  rw [retained.inv.scope]
  exact retained.inv

/-- What a discarded attempt leaves behind. -/
theorem discard (layered : Layered env self stack)
    (ran : discardAttempt self.lifetime.transaction self = .ok () after) :
    stack = [] ∧ Rested env after ∧ Reached after := by
  obtain ⟨running, -, closed⟩ := Config.discards_closed ran
  obtain ⟨rfl, start, rested, behind, since, settled⟩ :=
    layered.attempted running (Config.shallow_of_closed closed)
  have nested : Nested env False (Since env start) self [] := .root since
  have left : Rested env after := @Rested.discard env start after ⟨self, [], []⟩ rested
    (layered.listed running) nested ran
  obtain ⟨found, discards, discarded⟩ := discardAttempt_run since rested.inv rested.notActive closed
  rw [ran] at discards
  cases discards
  have accepted : Behind (after.view env) := behind.behind.of_accepted discarded.cells
  exact ⟨rfl, left, accepted.reached left.inv.stamps⟩

theorem discardAccepted (layered : Layered env self stack) (owned : env.Owned)
    (ran : WorldState.discardAccepted env self = .ok () after) : Layered env after stack := by
  have reset := discardAccepted_reset ran
  obtain ⟨notActive, -⟩ := discardAccepted_startsOver ran
  obtain ⟨rfl, rested⟩ := layered.rested notActive
  obtain ⟨-, inv, idle, -⟩ := discardAccepted_ran rested.inv owned ran
  have behind : Behind (after.view env) := by
    intro address slot
    change (after.storageAt env address slot).storageIncarnation ≤ _
    rw [reset.storageAt]
    exact Nat.zero_le _
  refine .idle ⟨?_, idle, reset.unmarked⟩ (behind.reached inv.stamps)
  rw [inv.scope]
  exact inv

end Layered

end WorldState

/-! ## Runs -/

namespace Config

open WorldState

variable {env : Env} {config after : Config}

/-- What holds after every faithful run. -/
structure Orderly (env : Env) (config : Config) : Prop where
  sound : config.Sound env
  layered : Layered env config.state config.scopes
  taken : ∀ taken ∈ config.snapshots, Unmarked env taken.of ∧ Reached taken.of

theorem init_orderly (genesis : Genesis) : (init genesis).Orderly genesis.env := by
  have rested : Rested genesis.env (init genesis).state := (@Between.init genesis).rested
  have reset : Reset genesis.env (init genesis).state := ⟨rfl, rfl⟩
  have behind : Behind ((init genesis).state.view genesis.env) := by
    intro address slot
    change ((init genesis).state.storageAt genesis.env address slot).storageIncarnation ≤ _
    rw [reset.storageAt]
    exact Nat.zero_le _
  exact ⟨init_sound genesis, .idle rested (behind.reached rested.inv.stamps), fun _ member =>
    nomatch member⟩

theorem Orderly.captured (orderly : config.Orderly env)
    (stepped : Stepped env config .branchSnapshot after) :
    Layered env after.state after.scopes ∧
      ∀ taken ∈ after.snapshots, Unmarked env taken.of ∧ Reached taken.of := by
  cases stepped with
  | captured notActive requests =>
      have layered := orderly.layered.asked requests
      refine ⟨layered, fun taken member => ?_⟩
      rcases List.mem_append.mp member with old | new
      · exact orderly.taken taken old
      · cases List.mem_singleton.mp new
        exact ⟨(layered.rested notActive).2.unmarked, layered.reached⟩
  | refused requests => exact ⟨orderly.layered.asked requests, orderly.taken⟩

theorem Orderly.cloned {index : Nat} (orderly : config.Orderly env)
    (stepped : Stepped env config (.cloneSnapshot index) after) :
    Layered env after.state after.scopes ∧
      ∀ taken ∈ after.snapshots, Unmarked env taken.of ∧ Reached taken.of := by
  cases stepped with
  | cloned found unresolved requests =>
      refine ⟨orderly.layered.asked requests, fun taken member => ?_⟩
      rcases List.mem_append.mp member with old | new
      · exact orderly.taken taken old
      · cases List.mem_singleton.mp new
        exact orderly.taken _ (List.mem_of_getElem? found)
  | refused requests => exact ⟨orderly.layered.asked requests, orderly.taken⟩

theorem Orderly.restored {index : Nat} {taken : Taken} {left : BranchSnapshot} {state : WorldState}
    (orderly : config.Orderly env) (found : config.snapshots[index]? = some taken)
    (intact : Intact taken.of config.state)
    (ran : restoreBranch env taken.snapshot config.state = .ok left state)
    (nested : Nested env False (Outermost env) state config.scopes) :
    Layered env state config.scopes := by
  have member := List.mem_of_getElem? found
  obtain ⟨unmarked, reached⟩ := orderly.taken taken member
  obtain ⟨-, empty, mid, scope, inv, notActive, sameEpoch, later, rfl⟩ :=
    orderly.sound.restored found intact ran
  have recalls := (orderly.sound.recalls taken member).later later
  obtain ⟨-, inv⟩ := nested.accepted notActive
  rw [empty]
  exact .idle ⟨inv, notActive, unmarked.of_rows rfl (recalls.clock sameEpoch)⟩
    (reached.of_tables rfl rfl)

theorem Orderly.step {move : Move} (orderly : config.Orderly env) (owned : env.Owned)
    (inPlace : config.InPlace move) (ran : config.step env move = some after) : after.Orderly env := by
  have sound := orderly.sound.step owned inPlace ran
  have layered := orderly.layered
  suffices both : Layered env after.state after.scopes ∧
      ∀ taken ∈ after.snapshots, Unmarked env taken.of ∧ Reached taken.of from
    ⟨sound, both.1, both.2⟩
  have stepped := step_cases ran
  replace ran := step_moved ran
  cases ran with
  | call ends => exact ⟨layered.called ends, orderly.taken⟩
  | checkpoint ran => exact ⟨layered.checkpoint ran, orderly.taken⟩
  | committed stack ran =>
      rw [stack] at layered
      exact ⟨layered.closed (.inl ran), orderly.taken⟩
  | reverted stack ran =>
      rw [stack] at layered
      exact ⟨layered.closed (.inr ran), orderly.taken⟩
  | begun ran => exact ⟨layered.begin ran, orderly.taken⟩
  | openSession ran => exact ⟨layered.openSession ran, orderly.taken⟩
  | closeSession ran => exact ⟨layered.closeSession ran, orderly.taken⟩
  | sealed ran =>
      obtain ⟨_, _, current, -⟩ := Action.bind_eq_ok.mp ran
      obtain ⟨running, -, -⟩ := assertCurrent_ran current
      exact ⟨layered.sealAttempt running ran, orderly.taken⟩
  | retained ran =>
      obtain ⟨_, _, current, -⟩ := Action.bind_eq_ok.mp ran
      obtain ⟨running, -, -⟩ := assertCurrent_ran current
      exact ⟨layered.retain running ran, orderly.taken⟩
  | @discarded state ran =>
      obtain ⟨empty, rested, reached⟩ := layered.discard ran
      refine ⟨?_, orderly.taken⟩
      change Layered env state config.scopes
      rw [empty]
      exact .idle rested reached
  | startedOver ran => exact ⟨layered.discardAccepted owned ran, orderly.taken⟩
  | captured => exact orderly.captured stepped
  | cloned => exact orderly.cloned stepped
  | @restored index taken left state found ran =>
      refine ⟨orderly.restored found (inPlace taken found) ran sound.nested, fun other member => ?_⟩
      rcases List.mem_or_eq_of_mem_set member with kept | rfl
      · exact orderly.taken other kept
      · exact orderly.taken taken (List.mem_of_getElem? found)

/-- So does every faithful run. -/
theorem exec_orderly {genesis : Genesis} {moves : List Move}
    (faithful : (init genesis).Faithful genesis.env moves)
    (ran : (init genesis).exec genesis.env moves = some after) : after.Orderly genesis.env := by
  have all : ∀ {moves : List Move} {config : Config}, config.Orderly genesis.env →
      config.Faithful genesis.env moves → config.exec genesis.env moves = some after →
        after.Orderly genesis.env := by
    intro moves
    induction moves with
    | nil =>
        intro config orderly faithful ran
        obtain rfl := Option.some.inj ran
        exact orderly
    | cons move moves ih =>
        intro config orderly faithful ran
        obtain ⟨next, stepped, rest⟩ := Option.bind_eq_some_iff.mp ran
        exact ih (orderly.step genesis.owned faithful.1 stepped) (faithful.2 next stepped) rest
  exact all (init_orderly genesis) faithful ran

end Config

end EvmZig.State
