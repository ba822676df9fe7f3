import EvmZig.State.Exactness
import EvmZig.State.Finalization

/-!
# The states between attempts

No account is marked between attempts: sealing asserts that the listed accounts
are settled, and only listed accounts are ever marked.
-/

set_option autoImplicit false

namespace EvmZig.State

open Lib Zig

namespace WorldState

/-- No account is marked, and the next transaction is newer than every stamp. -/
structure Unmarked (env : Env) (state : WorldState) : Prop where
  marks : ∀ address, ¬(state.factsAt env address).marks.Any
  past : ∀ address, (state.factsAt env address).lifecycleTransaction ≤ state.clock

variable {env : Env} {self after start state : WorldState}

theorem Unmarked.of_rows (unmarked : Unmarked env self)
    (same : after.world.accounts = self.world.accounts) (later : self.clock ≤ after.clock) :
    Unmarked env after := by
  have facts : ∀ address, after.factsAt env address = self.factsAt env address :=
    fun address => by rw [factsAt, factsAt, accountAt, accountAt, same]
  refine ⟨fun address => ?_, fun address => ?_⟩
  · rw [facts]
    exact unmarked.marks address
  · rw [facts]
    exact (unmarked.past address).trans later

theorem Reset.unmarked (reset : Reset env self) : Unmarked env self := by
  have facts : ∀ address, self.factsAt env address =
      (AccountRow.admitted (env.parentAccount address)).facts :=
    fun address => congrArg AccountRow.facts (reset.accountAt address)
  refine ⟨fun address => ?_, fun address => ?_⟩
  · rw [facts]
    rintro (created | destructed)
    · cases created
    · cases destructed
  · rw [facts]
    exact Nat.zero_le _

/-! ## An attempt -/

theorem beginAttemptMode_journal {observe : Bool} {attempt : Generation}
    (ran : beginAttemptMode observe self = .ok attempt after) : self.journal = [] := by
  unfold beginAttemptMode at ran
  obtain ⟨_, _, idle, rest⟩ := Action.bind_eq_ok.mp ran
  obtain ⟨-, rfl⟩ := Action.assert_eq_ok.mp idle
  obtain ⟨_, _, empty, -⟩ := Action.bind_eq_ok.mp rest
  exact (Action.assert_eq_ok.mp empty).1

/-- An attempt begins with nothing to list. -/
theorem begun_listed {observe : Bool} (unmarked : Unmarked env start) (journal : start.journal = []) :
    Listed env (begun observe start) where
  begun := Nat.succ_ne_zero _
  marks address marked := absurd marked (unmarked.marks address)
  stamps address stamped := by
    have past : (start.factsAt env address).lifecycleTransaction ≤ start.clock := unmarked.past address
    have now : (start.factsAt env address).lifecycleTransaction = start.clock + 1 := stamped
    exact absurd (now.symm.trans_le past) (Nat.not_succ_le_self _)
  past address := (unmarked.past address).trans (Nat.le_succ _)
  undos undo member := by
    have empty : (begun observe start).journal = [] := journal
    rw [empty] at member
    cases member

/-- A step that assigns to no account row, lifecycle list or journal. -/
theorem Listed.same (held : Listed env self) (rows : after.world.accounts = self.world.accounts)
    (transaction : after.lifetime.transaction = self.lifetime.transaction)
    (listed : after.lifecycleAccounts = self.lifecycleAccounts)
    (journal : after.journal = self.journal) :
    Listed env after :=
  have kept : KeepsAccounts env (fun _ => False) self after :=
    .of_accounts rows ⟨⟨listed, transaction⟩, by rw [journal]⟩
  kept.listing held

theorem listing_ends {α : Type} {body : Method α} (safe : Safe (listing env) body)
    (held : Listed env self) (ends : Nested.EndsIn (body self) after) :
    Listed env after ∧ ListGrows self after := by
  have allowed := safe self held trivial
  rcases ends with ⟨value, outcome⟩ | ⟨error, outcome⟩
  · rw [outcome] at allowed
    exact ⟨allowed.1, allowed.2.1⟩
  · rw [outcome] at allowed
    exact allowed

theorem sealAttempt_settled {ids : List AccountId}
    (ran : Action.forEach (fun id => do
      let row ← accountRow id
      Action.assert fun _ => row.flags.created = false ∧ row.flags.selfdestructed = false) ids
        self = .ok () after) :
    ∀ id ∈ ids, ∀ row, self.world.accounts.row id = some row → ¬row.flags.marks.Any := by
  induction ids with
  | nil => exact fun id member => absurd member List.not_mem_nil
  | cons first ids ih =>
      unfold Action.forEach at ran
      obtain ⟨_, _, one, rest⟩ := Action.bind_eq_ok.mp ran
      obtain ⟨row, _, looked, asserted⟩ := Action.bind_eq_ok.mp one
      obtain ⟨found, rfl⟩ := accountRow_eq_ok.mp looked
      obtain ⟨settled, rfl⟩ := Action.assert_eq_ok.mp asserted
      intro id member other held
      rcases List.mem_cons.mp member with rfl | later
      · rw [found] at held
        cases held
        rintro (created | destructed)
        · rw [AccountFlags.marks, settled.1] at created
          cases created
        · rw [AccountFlags.marks, settled.2] at destructed
          cases destructed
      · exact ih rest id later other held

/-- What sealing asserts of the list holds of every account. -/
theorem sealAttempt_unmarked {attempt : Generation} (held : Listed env self)
    (ran : sealAttempt attempt self = .ok () after) (address : Address) :
    ¬(self.factsAt env address).marks.Any := by
  intro marked
  obtain ⟨id, member, key⟩ := held.marks address marked
  obtain ⟨row, found⟩ := Table.row_eq_some_of_key key
  unfold sealAttempt at ran
  obtain ⟨_, _, current, rest⟩ := Action.bind_eq_ok.mp ran
  obtain ⟨-, -, rfl⟩ := assertCurrent_ran current
  obtain ⟨_, _, unsealed, rest⟩ := Action.bind_eq_ok.mp rest
  obtain ⟨-, rfl⟩ := Action.assert_eq_ok.mp unsealed
  obtain ⟨_, _, noSession, rest⟩ := Action.bind_eq_ok.mp rest
  obtain ⟨-, rfl⟩ := Action.assert_eq_ok.mp noSession
  rw [Action.bind_run, Action.get_run] at rest
  dsimp only at rest
  obtain ⟨_, _, settled, -⟩ := Action.bind_eq_ok.mp rest
  refine sealAttempt_settled settled id member row found ?_
  rwa [factsAt, accountAt_of_row key found] at marked

theorem discardAttempt_parts {attempt : Generation} (ran : discardAttempt attempt self = .ok () after) :
    ¬self.SessionActive ∧ ∃ middle, revertJournalTo 0 self = .ok () middle ∧
      after.world = middle.world ∧ after.clock = middle.clock := by
  unfold discardAttempt at ran
  obtain ⟨_, _, current, rest⟩ := Action.bind_eq_ok.mp ran
  obtain ⟨-, -, rfl⟩ := assertCurrent_ran current
  obtain ⟨_, _, noSession, rest⟩ := Action.bind_eq_ok.mp rest
  obtain ⟨closed, rfl⟩ := Action.assert_eq_ok.mp noSession
  obtain ⟨_, middle, reverts, rest⟩ := Action.bind_eq_ok.mp rest
  cases rest
  exact ⟨closed, middle, reverts, rfl, rfl⟩

theorem revertJournalTo_listing (target : Nat) : Safe (listing env) (revertJournalTo target) :=
  Safe.bind Safe.get fun _ => popEntries_listing _

end WorldState

/-! ## Runs -/

namespace Config

open WorldState

variable {env : Env} {config after : Config} {start : WorldState}

theorem listed_step {move : Move} (held : Listed env config.state) (within : move.Within)
    (ran : config.step env move = some after) : Listed env after.state := by
  replace ran := step_moved ran
  cases ran with
  | @call op state ends => exact (listing_ends (Op.run_listing op) held ends).1
  | checkpoint ran =>
      exact (listing_ends (listing_of_reading checkpoint_accounts) held (.inl ⟨_, ran⟩)).1
  | @committed opened scopes state stack ran =>
      exact (listing_ends (listing_of_reading (commitCheckpoint_accounts opened)) held
        (.inl ⟨_, ran⟩)).1
  | @reverted opened scopes state stack ran =>
      exact (listing_ends (revertToCheckpoint_listing opened) held (.inl ⟨_, ran⟩)).1
  | openSession ran =>
      obtain ⟨-, -, rfl⟩ := openSession_ran ran
      exact held.same rfl rfl rfl rfl
  | closeSession ran =>
      obtain ⟨-, -, rfl⟩ := closeSession_ran ran
      exact held.same rfl rfl rfl rfl
  | sealed ran =>
      obtain ⟨-, -, rfl⟩ := sealAttempt_ran held.begun ran
      exact held.same rfl rfl rfl rfl
  | _ => exact within.elim

theorem listed_exec {moves : List Move} (held : Listed env config.state)
    (within : ∀ move ∈ moves, move.Within) (ran : config.exec env moves = some after) :
    Listed env after.state := by
  induction moves generalizing config with
  | nil =>
      obtain rfl := Option.some.inj ran
      exact held
  | cons move moves ih =>
      obtain ⟨next, stepped, rest⟩ := Option.bind_eq_some_iff.mp ran
      have here := listed_step held (within move List.mem_cons_self) stepped
      exact ih here (fun other member => within other (List.mem_cons_of_mem _ member)) rest

/-- An attempt begun on an unmarked state lists what it marks. -/
theorem attempt_listed {observe : Bool} {inner : List Move} (unmarked : Unmarked env start)
    (within : ∀ move ∈ inner, move.Within)
    (ran : ({ state := start } : Config).exec env (.beginAttempt observe :: inner) = some after) :
    Listed env after.state := by
  obtain ⟨next, begins, rest⟩ := Option.bind_eq_some_iff.mp ran
  obtain ⟨attempt, state, outcome, rfl⟩ := returned_eq_some begins
  have journal := beginAttemptMode_journal outcome
  obtain ⟨-, -, rfl⟩ := beginAttemptMode_ran outcome
  exact listed_exec (begun_listed unmarked journal) within rest

/-- The same, with what the attempt owes to the state it was begun on. -/
theorem attempt_since {observe : Bool} {inner : List Move}
    (inv : Inv env 0 start.lifetime.scope start) (notActive : start.transactionActive = false)
    (within : ∀ move ∈ inner, move.Within)
    (ran : ({ state := start } : Config).exec env (.beginAttempt observe :: inner) = some after) :
    Nested env False (Since env start) after.state after.scopes := by
  obtain ⟨next, begins, rest⟩ := Option.bind_eq_some_iff.mp ran
  obtain ⟨attempt, state, outcome, rfl⟩ := returned_eq_some begins
  obtain ⟨-, -, rfl⟩ := beginAttemptMode_ran outcome
  exact since_exec (.root (Since.begin inv notActive)) within rest

end Config

/-- The states between attempts, each attempt retained or discarded. -/
inductive Between (genesis : Genesis) : WorldState → Prop
  | init : Between genesis (WorldState.init genesis.env genesis.parentCode)
  | retained {start : WorldState} {observe : Bool} {inner : List Move} {after : Config}
      (before : Between genesis start) (within : ∀ move ∈ inner, move.Within)
      (ran : ({ state := start } : Config).exec genesis.env
        (.beginAttempt observe :: inner ++ [.sealAttempt, .retainAttempt]) = some after) :
      Between genesis after.state
  | discarded {start : WorldState} {observe : Bool} {inner : List Move} {after : Config}
      (before : Between genesis start) (within : ∀ move ∈ inner, move.Within)
      (ran : ({ state := start } : Config).exec genesis.env
        (.beginAttempt observe :: inner ++ [.discardAttempt]) = some after) :
      Between genesis after.state
  | reset {start after : WorldState} (before : Between genesis start)
      (ran : WorldState.discardAccepted genesis.env start = .ok () after) : Between genesis after

/-- An accepted state with no account marked. -/
structure Rested (env : Env) (state : WorldState) : Prop where
  inv : WorldState.Inv env 0 state.lifetime.scope state
  notActive : state.transactionActive = false
  unmarked : WorldState.Unmarked env state

namespace Rested

open WorldState Config

variable {env : Env} {start last : WorldState} {closing : Config}

/-- Retaining keeps the rows sealing found settled. -/
theorem retain {attempt : Generation} (listed : Listed env closing.state)
    (nested : Nested env False (Since env start) closing.state closing.scopes)
    (seals : WorldState.sealAttempt attempt closing.state = .ok () closing.state.afterSeal)
    (retains : WorldState.retainAttempt attempt closing.state.afterSeal = .ok () last) :
    Rested env last := by
  obtain ⟨-, closed, -⟩ := sealAttempt_ran listed.begun seals
  obtain ⟨-, since⟩ := nested.flat (shallow_of_closed closed)
  have retained := retainAttempt_ran since.seal retains
  have active := since.inv.active since.running
  have unmarked : Unmarked env closing.state :=
    ⟨sealAttempt_unmarked listed seals,
      fun address => (listed.past address).trans active.transactionPast⟩
  refine ⟨?_, retained.idle, unmarked.of_rows retained.accounts retained.clock.ge⟩
  rw [retained.inv.scope]
  exact retained.inv

/-- Discarding gives back the marks the attempt was begun with. -/
theorem discard (rested : Rested env start) (listed : Listed env closing.state)
    (nested : Nested env False (Since env start) closing.state closing.scopes)
    (discards : WorldState.discardAttempt closing.state.lifetime.transaction closing.state =
      .ok () last) : Rested env last := by
  obtain ⟨closed, middle, reverts, world, clock⟩ := discardAttempt_parts discards
  obtain ⟨-, since⟩ := nested.flat (shallow_of_closed closed)
  obtain ⟨other, same, discarded⟩ := discardAttempt_run since rested.inv rested.notActive closed
  rw [discards] at same
  cases same
  have active := since.inv.active since.running
  obtain ⟨reverted, grows⟩ := listing_ends (revertJournalTo_listing 0) listed (.inl ⟨_, reverts⟩)
  have facts : ∀ address, last.factsAt env address = middle.factsAt env address :=
    fun address => by rw [factsAt, factsAt, accountAt, accountAt, world]
  refine ⟨?_, discarded.idle, ⟨fun address => ?_, fun address => ?_⟩⟩
  · rw [discarded.inv.scope]
    exact discarded.inv
  · have cells : (last.accountAt env address).cell.flags = (start.accountAt env address).cell.flags :=
      congrArg AccountCell.flags (discarded.cells (.account address) trivial)
    have same := congrArg AccountFlags.marks cells
    have marks : (last.factsAt env address).marks = (start.factsAt env address).marks := same
    rw [marks]
    exact rested.unmarked.marks address
  · have past := reverted.past address
    rw [grows.transaction] at past
    rw [facts, discarded.clock]
    exact past.trans active.transactionPast

end Rested

namespace Between

open WorldState Config

/-- No account is marked between attempts. -/
theorem rested {genesis : Genesis} {start : WorldState} (between : Between genesis start) :
    Rested genesis.env start := by
  induction between with
  | init =>
      have reset : Reset genesis.env (WorldState.init genesis.env genesis.parentCode) := ⟨rfl, rfl⟩
      exact ⟨init_inv genesis, rfl, reset.unmarked⟩
  | retained before within ran rested =>
      rw [exec_append] at ran
      obtain ⟨closing, inside, ending⟩ := Option.bind_eq_some_iff.mp ran
      have listed := attempt_listed rested.unmarked within inside
      have nested := attempt_since rested.inv rested.notActive within inside
      obtain ⟨closed, seals, ending⟩ := Option.bind_eq_some_iff.mp ending
      obtain ⟨⟨⟩, state, sealing, rfl⟩ := returned_eq_some seals
      obtain ⟨-, -, rfl⟩ := sealAttempt_ran listed.begun sealing
      obtain ⟨last, retains, ending⟩ := Option.bind_eq_some_iff.mp ending
      obtain ⟨⟨⟩, state, retaining, rfl⟩ := returned_eq_some retains
      obtain rfl := Option.some.inj ending
      exact Rested.retain listed nested sealing retaining
  | discarded before within ran rested =>
      rw [exec_append] at ran
      obtain ⟨closing, inside, ending⟩ := Option.bind_eq_some_iff.mp ran
      have listed := attempt_listed rested.unmarked within inside
      have nested := attempt_since rested.inv rested.notActive within inside
      obtain ⟨last, discards, ending⟩ := Option.bind_eq_some_iff.mp ending
      obtain ⟨⟨⟩, state, discarding, rfl⟩ := returned_eq_some discards
      obtain rfl := Option.some.inj ending
      exact rested.discard listed nested discarding
  | reset before ran rested =>
      obtain ⟨-, inv, notActive, -⟩ := discardAccepted_ran rested.inv genesis.owned ran
      refine ⟨?_, notActive, (discardAccepted_reset ran).unmarked⟩
      rw [inv.scope]
      exact inv

end Between

end EvmZig.State
