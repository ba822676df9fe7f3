import EvmZig.State.EffectRuns
import EvmZig.State.ChangedAccounts

/-!
# Touched accounts exist

A touch makes an absent account exist, unless the row says that it was touched
before.  That flag outlives a deletion by finalisation, so a touch after it
changes nothing.
-/

set_option autoImplicit false

namespace EvmZig.State

open Lib Zig

namespace WorldState

variable {env : Env} {self after : WorldState} {start : Address → Option Account} {address : Address}

/-- An account is only touched during an attempt. -/
theorem touchAccount_running (ran : touchAccount env address self = .ok () after) : Running self := by
  obtain ⟨id, resolved, requires, rest⟩ := Action.bind_eq_ok.mp ran
  obtain ⟨_, observed, observes, -⟩ := Action.bind_eq_ok.mp rest
  obtain ⟨_, _, mutable, -⟩ := Action.bind_eq_ok.mp observes
  obtain ⟨_, _, active, -⟩ := Action.bind_eq_ok.mp mutable
  have running : Running resolved := (Action.assert_eq_ok.mp active).1
  have safe : Safe (assignments env .call) (requireAccount env address) :=
    (requireAccount_assigned address).safe
  have kept := ends_of_safe safe trivial (.inl ⟨id, requires⟩)
  exact (Assigned.control kept).transactionActive.symm.trans running

/-- What a touch promises. -/
structure Exists (env : Env) (start : Address → Option Account) (address : Address) (state :
    WorldState) :
    Prop where
  current : (state.accountAt env address).current ≠ none
  listed : start address = none →
    ∃ id ∈ state.changedAccounts, state.world.accounts.key id = some address

/-- The row says it was touched, and holds no account. -/
def Lapsed (env : Env) (address : Address) (self : WorldState) : Prop :=
  (self.accountAt env address).flags.touched = true ∧ (self.accountAt env address).current = none

theorem touchAccount_current (ran : touchAccount env address self = .ok () after) :
    (after.accountAt env address).current = none ↔ Lapsed env address self := by
  have facts := touchAccount_ran ran address
  rw [if_pos rfl] at facts
  have current : (after.accountAt env address).current = (self.factsAt env address).touch.current :=
    congrArg AccountFacts.current facts
  rw [current, AccountFacts.touch]
  split
  · rename_i touched
    exact ⟨fun absent => ⟨touched, absent⟩, fun lapsed => lapsed.2⟩
  · rename_i untouched
    exact ⟨fun absent => absurd absent (Option.some_ne_none _), fun lapsed => absurd lapsed.1 untouched⟩

/-- An account that differs from what the attempt found is on the list. -/
theorem listed_of_differs {scopes : List Checkpoint} (books : Books env start self)
    (enlisted : Enlisted self scopes) (differs : (self.accountAt env address).current ≠ start address) :
    ∃ id ∈ self.changedAccounts, self.world.accounts.key id = some address := by
  cases found : self.world.accounts.find address with
  | none =>
      rw [accountAt_of_missing found, books.missing address found] at differs
      exact absurd rfl differs
  | some id =>
      have key := Table.find_eq_some.mp found
      obtain ⟨row, held⟩ := Table.row_eq_some_of_key key
      rw [accountAt_of_row key held] at differs
      have fits := books.row id row address held key
      have dirty : row.dirtyTransaction = self.lifetime.transaction :=
        Decidable.byContradiction fun clean => differs (fits.clean clean)
      exact ⟨id, enlisted.listed held dirty, key⟩

end WorldState

namespace Config

open WorldState

variable {env : Env} {config after : Config} {move : Move} {start : Address → Option Account}

/-- The accounts as the running attempt found them. -/
def nextStart (env : Env) (config : Config) (start : Address → Option Account) :
    Move → Address → Option Account
  | .beginAttempt _ => fun address => (config.state.accountAt env address).current
  | _ => start

/-- What every run keeps of its accounts. -/
structure BooksKept (env : Env) (config : Config) (start : Address → Option Account) : Prop where
  stacked : Stacked config.state config.scopes
  bygone : Bygone config
  running : Running config.state →
    Books env start config.state ∧ Enlisted config.state config.scopes

namespace BooksKept

theorem init (genesis : Genesis) (start : Address → Option Account) :
    BooksKept genesis.env (Config.init genesis) start where
  stacked := .init genesis
  bygone := .init genesis
  running running := nomatch running

theorem called {licence : Licence} {scopes : List Checkpoint} {state later : WorldState}
    (aged : Aged state) (called : Called env licence state later)
    (kept : Books env start state ∧ Enlisted state scopes) :
    Books env start later ∧ Enlisted later scopes := by
  refine ⟨?_, kept.2.called aged called⟩
  have opened : Books env start (opened state) := kept.1.same rfl rfl (fun _ member => member) rfl
  cases called with
  | changed steps => exact kept.1.changed steps
  | settled final running steps closes =>
      obtain ⟨-, rfl⟩ := commitCheckpoint_ran closes
      exact (opened.changed steps.changed).same rfl rfl (fun _ member => member) rfl
  | abandoned final running steps closes =>
      obtain ⟨-, mid, unwound, rfl⟩ := revertToCheckpoint_ran closes
      exact ((opened.changed steps.changed).reverted unwound)

/-- Every move keeps them. -/
theorem step (kept : BooksKept env config start) (stepped : Stepped env config move after) :
    BooksKept env after (config.nextStart env start move) := by
  refine ⟨kept.stacked.step stepped, kept.bygone.step kept.stacked stepped, ?_⟩
  have still := kept.running
  have aged := kept.bygone.state
  -- steps that leave accounts, records, list and journal as they are
  have aside : ∀ {state : WorldState} {scopes : List Checkpoint}, Running config.state →
      state.world.accounts = config.state.world.accounts → state.records = config.state.records →
      state.changedAccounts = config.state.changedAccounts → state.journal = config.state.journal →
      state.lifetime.transaction = config.state.lifetime.transaction →
      (Enlisted config.state config.scopes → Enlisted state scopes) →
      Books env start state ∧ Enlisted state scopes := by
    intro state scopes running accounts records changed journal transaction enlists
    obtain ⟨books, enlisted⟩ := still running
    exact ⟨books.same accounts records (fun _ member => journal ▸ member) transaction, enlists enlisted⟩
  cases stepped with
  | called aside ends steps =>
      rename_i op state
      have start : config.nextStart env start (.call op) = start := rfl
      rw [start]
      exact fun now => called aged steps (still (steps.pushes.active.symm.trans now))
  | transient ran write =>
      cases write with
      | same running =>
          exact fun _ => still running
      | refused running =>
          exact fun _ => aside running rfl rfl rfl rfl rfl fun enlisted =>
            enlisted.same rfl rfl rfl rfl rfl
      | wrote running =>
          obtain ⟨books, enlisted⟩ := still running
          refine fun _ => ⟨books.same rfl rfl (fun undo member => ?_) rfl,
            enlisted.quiet rfl rfl ⟨[_], rfl, fun undo member => ?_⟩ rfl rfl⟩
          · exact (List.mem_cons.mp member).resolve_left fun same => nomatch same
          · exact nomatch List.mem_singleton.mp member
  | cleared running =>
      exact fun _ => aside running rfl rfl rfl rfl rfl fun enlisted => enlisted.same rfl rfl rfl rfl rfl
  | checkpoint running session =>
      exact fun _ => aside running rfl rfl rfl rfl rfl fun enlisted => enlisted.opened aged
  | committed stack closes =>
      refine fun _ => aside closes.running rfl rfl rfl rfl rfl fun enlisted => ?_
      rw [stack] at enlisted
      exact enlisted.committed
  | reverted stack closes unwound =>
      obtain ⟨books, enlisted⟩ := still closes.running
      rw [stack] at enlisted
      exact fun _ => ⟨books.reverted unwound, enlisted.reverted env unwound⟩
  | begun notActive =>
      intro _
      have flat := kept.stacked.closed (kept.stacked.flat notActive)
      dsimp only
      rw [flat]
      exact ⟨(audited_begun aged (kept.stacked.journal notActive)).books, .begun aged _⟩
  | openSession running flat =>
      have scopes := kept.stacked.closed flat
      refine fun _ => aside running rfl rfl rfl rfl rfl fun enlisted => ?_
      rw [scopes] at enlisted
      exact scopes ▸ enlisted.rescoped
  | closeSession running flat =>
      have scopes := kept.stacked.shallow flat.le
      refine fun _ => aside running rfl rfl rfl rfl rfl fun enlisted => ?_
      rw [scopes] at enlisted
      exact scopes ▸ enlisted.rescoped
  | sealed running ran =>
      obtain ⟨-, -, rfl⟩ := sealAttempt_ran (kept.stacked.begun running) ran
      exact fun _ => aside running rfl rfl rfl rfl rfl fun enlisted => enlisted.same rfl rfl rfl rfl rfl
  | retained running closed ran => exact fun now => nomatch now
  | discarded running closed unwound => exact fun now => nomatch now
  | startedOver notActive => exact fun now => nomatch notActive.symm.trans now
  | captured notActive requests => exact fun now => nomatch notActive.symm.trans now
  | cloned found unresolved requests =>
      exact fun now => aside now rfl rfl rfl rfl rfl fun enlisted => enlisted.same rfl rfl rfl rfl rfl
  | refused requests snapshot =>
      rcases snapshot with rfl | ⟨index, rfl⟩
      · exact fun now => aside now rfl rfl rfl rfl rfl fun enlisted => enlisted.same rfl rfl rfl rfl rfl
      · exact fun now => aside now rfl rfl rfl rfl rfl fun enlisted => enlisted.same rfl rfl rfl rfl rfl
  | restored found epoch unresolved vacated =>
      cases vacated with
      | idle notActive => exact fun now => nomatch notActive.symm.trans now
      | discarded running closed unwound => exact fun now => nomatch now

end BooksKept

/-- In every run a touch makes the account exist and lists it, unless the account was touched before
and has been deleted since. -/
theorem touchAccount_exists (genesis : Genesis) (moves : List Move) (start : Address → Option Account) :
    (init genesis).Alongside genesis.env (nextStart genesis.env)
      (fun config start => ∀ address after,
        touchAccount genesis.env address config.state = .ok () after →
          (Exists genesis.env start address after ↔ ¬Lapsed genesis.env address config.state))
      start moves := by
  have shows : ∀ config start, BooksKept genesis.env config start → ∀ address after,
      touchAccount genesis.env address config.state = .ok () after →
        (Exists genesis.env start address after ↔ ¬Lapsed genesis.env address config.state) := by
    intro config start kept address after ran
    have current := touchAccount_current ran
    refine ⟨fun present lapsed => present.current (current.mpr lapsed), fun held => ?_⟩
    have present : (after.accountAt genesis.env address).current ≠ none := fun absent =>
      held (current.mp absent)
    refine ⟨present, fun absent => ?_⟩
    have ends : Nested.EndsIn ((Op.touchAccount address).run genesis.env config.state) after :=
      .inl ⟨(), ran⟩
    obtain ⟨books, enlisted⟩ := BooksKept.called kept.bygone.state (Op.run_called rfl ends)
      (kept.running (touchAccount_running ran))
    exact listed_of_differs books enlisted fun same => present (same.trans absent)
  exact alongside_of_kept shows (fun _ _ _ _ kept stepped => kept.step stepped)
    (.init genesis start)

/-- An account is touched and then deleted by finalisation. -/
def touchedThenDeleted : List Move :=
  [.beginAttempt false, .openSession, .call (.touchAccount (addressOf 1)), .checkpoint,
    .call (.applySelfDestruct (addressOf 1) (addressOf 1) ⟨false, true⟩ false), .commitCheckpoint,
    .call (.finalizeLifecycle { existingAccount := { deleteAccount := true } })]

/-- The next touch returns and leaves the account absent. -/
theorem touchAccount_lapses : ∃ config after,
    (init bare).exec bare.env touchedThenDeleted = some config ∧
      touchAccount bare.env (addressOf 1) config.state = .ok () after ∧
      (after.accountAt bare.env (addressOf 1)).current = none := by
  have values : (((init bare).exec bare.env touchedThenDeleted).bind fun config =>
      (touchAccount bare.env (addressOf 1) config.state).toOption.map fun last =>
        (last.2.accountAt bare.env (addressOf 1)).current) = some none := by decide +kernel
  obtain ⟨config, reached, values⟩ := Option.bind_eq_some_iff.mp values
  obtain ⟨⟨_, after⟩, ran, absent⟩ := Option.map_eq_some_iff.mp values
  exact ⟨config, after, reached, Outcome.toOption_eq_some.mp ran, absent⟩

end Config

end EvmZig.State
