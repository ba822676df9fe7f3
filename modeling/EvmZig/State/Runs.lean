import EvmZig.State.Snapshot

/-!
# Runs of a world state

A run is a list of moves: calls inside an attempt, checkpoints closed in the
order opposite to their opening, the boundaries of attempts and sessions, and
branch snapshots.  `Sound` is what holds after every run.
-/

set_option autoImplicit false

namespace EvmZig.State

open Lib Zig

/-- Every declared slot belongs to a declared account. -/
def Env.Owned (env : Env) : Prop :=
  match env.parent with
  | .openWorld _ _ => True
  | .closedWorld accounts storage =>
      ∀ id key, storage.key id = some key → (accounts.key key.account).isSome

/-- What a state is made from. -/
structure Genesis where
  env : Env
  parentCode : List ParentCode
  owned : env.Owned

namespace WorldState

/-! ## Freshly admitted rows -/

section Reset

variable {env : Env} {self : WorldState}

/-- The rows are those of `resetRows`. -/
structure Reset (env : Env) (state : WorldState) : Prop where
  accounts : state.world.accounts = (World.resetRows ⟨Table.empty, Table.empty, []⟩ env).accounts
  storage : state.world.storage = (World.resetRows ⟨Table.empty, Table.empty, []⟩ env).storage

theorem Reset.accountRow (reset : Reset env self) {id : AccountId} {row : AccountRow}
    (held : self.world.accounts.row id = some row) : ∃ current, row = .admitted current := by
  rw [reset.accounts, World.resetRows] at held
  cases parent : env.parent with
  | openWorld reader retains =>
      rw [parent] at held
      cases held
  | closedWorld accounts storage =>
      rw [parent] at held
      obtain ⟨address, key⟩ := Table.key_eq_some_of_row held
      rw [Table.key_mapRows] at key
      rw [Table.row_mapRows _ key] at held
      obtain ⟨record, -, rfl⟩ := Option.map_eq_some_iff.mp held
      exact ⟨_, rfl⟩

theorem Reset.storageRow (reset : Reset env self) {id : StorageId} {row : StorageRow}
    (held : self.world.storage.row id = some row) : ∃ current, row = { current } := by
  rw [reset.storage, World.resetRows] at held
  cases parent : env.parent with
  | openWorld reader retains =>
      rw [parent] at held
      cases held
  | closedWorld accounts storage =>
      rw [parent] at held
      obtain ⟨place, key⟩ := Table.key_eq_some_of_row held
      rw [Table.key_mapRows] at key
      rw [Table.row_mapRows _ key] at held
      obtain ⟨value, -, rfl⟩ := Option.map_eq_some_iff.mp held
      exact ⟨_, rfl⟩

theorem Reset.accountAt (reset : Reset env self) (address : Address) :
    self.accountAt env address = .admitted (env.parentAccount address) := by
  rw [WorldState.accountAt, reset.accounts, World.resetRows, Env.parentAccount]
  cases env.parent with
  | openWorld reader retains => rfl
  | closedWorld accounts storage =>
      dsimp only
      rw [Table.value_mapRows]
      cases accounts.value address <;> rfl

theorem Reset.storageAt (reset : Reset env self) (address : Address) (slot : U256) :
    self.storageAt env address slot = { current := env.parentStorage address slot } := by
  rw [WorldState.storageAt, reset.accounts, reset.storage, World.resetRows, Env.parentStorage]
  cases env.parent with
  | openWorld reader retains => rfl
  | closedWorld accounts storage =>
      dsimp only
      rw [Table.find_mapRows]
      cases accounts.find address with
      | none => rfl
      | some account =>
          rw [Option.bind_some, Table.value_mapRows]
          dsimp only
          cases storage.value { account, slot } <;> rfl

theorem Reset.owner (reset : Reset env self) (owned : env.Owned) (id : StorageId)
    (key : StorageKey) (found : self.world.storage.key id = some key) :
    (self.world.accounts.key key.account).isSome := by
  rw [reset.storage, World.resetRows] at found
  rw [reset.accounts, World.resetRows]
  rw [Env.Owned] at owned
  cases parent : env.parent with
  | openWorld reader retains =>
      rw [parent] at found
      cases found
  | closedWorld accounts storage =>
      rw [parent] at found owned
      dsimp only at found ⊢
      rw [Table.key_mapRows] at found ⊢
      exact owned id key found

theorem Reset.accountCell (reset : Reset env self) (address : Address) :
    self.view env (.account address) = (AccountRow.admitted (env.parentAccount address)).cell := by
  simp only [view, reset.accountAt]

theorem Reset.slotCell (reset : Reset env self) (address : Address) (slot : U256) :
    self.view env (.slot address slot) =
      StorageRow.cell { current := env.parentStorage address slot } := by
  simp only [view, reset.storageAt]

theorem Reset.accountMark (reset : Reset env self) {marked : AccountCell → Bool}
    (fresh : ∀ current, marked (AccountRow.admitted current).cell = false) (id : AccountId) :
    ¬self.accountMark env marked id = true := by
  rw [WorldState.accountMark]
  cases self.world.accounts.key id with
  | none => exact Bool.false_ne_true
  | some address =>
      rw [Option.map_some, Option.getD_some, reset.accountCell, fresh]
      exact Bool.false_ne_true

theorem Reset.slotMark (reset : Reset env self) (id : StorageId) :
    ¬self.slotMark env blockDirtyMark id = true := by
  rw [WorldState.slotMark]
  cases self.slotOf id with
  | none => exact Bool.false_ne_true
  | some place =>
      rw [Option.map_some, Option.getD_some, reset.slotCell]
      exact Bool.false_ne_true

theorem Reset.inv {scope : Generation} (reset : Reset env self) (owned : env.Owned)
    (lifetime : self.lifetime.scope = scope) (notActive : self.transactionActive = false)
    (journal : self.journal = []) (lifecycle : self.lifecycleAccounts = [])
    (transient : self.transientStorage = Table.empty)
    (deferred : self.deferredWarmth = ⟨Table.empty, Table.empty⟩)
    (scopeDepth : self.scopeDepth = 0) (notReverted : self.transactionScopeReverted = false)
    (closed : self.attemptOpen = false) (notSealed : self.sealed = false)
    (changes : self.blockChangedAccounts = []) (wipes : self.blockStorageWipes = [])
    (dirty : self.dirtyStorage = [])
    (introduced : self.blockIntroducedCodes = List.range self.code.introduced.count) :
    Inv env 0 scope self := by
  refine ⟨Nat.zero_le _, lifetime, ⟨fun address => ?_, fun address slot => ?_⟩,
    ⟨fun id row held => ?_, fun id row held => ?_, reset.owner owned⟩,
    fun running => absurd running (by rw [notActive]; exact Bool.false_ne_true), fun _ => ?_⟩
  · rw [reset.accountCell]
    exact ⟨fun _ => rfl, fun _ => rfl, Nat.zero_le _, Nat.zero_le _, Nat.zero_le _⟩
  · rw [reset.accountCell, reset.slotCell]
    exact ⟨fun _ _ => ⟨rfl, rfl⟩, Nat.zero_le _, Nat.zero_le _⟩
  · obtain ⟨current, rfl⟩ := reset.accountRow held
    exact ⟨Nat.zero_le _, Nat.zero_le _⟩
  · obtain ⟨current, rfl⟩ := reset.storageRow held
    exact ⟨Nat.zero_le _, Nat.zero_le _⟩
  · refine ⟨journal, lifecycle, transient, deferred, scopeDepth, notReverted, closed, notSealed,
      fun address slot isDirty => ?_, introduced, ?_, ?_, ?_⟩
    · rw [reset.slotCell] at isDirty
      cases isDirty
    · rw [changes]
      exact Exact.empty (reset.accountMark fun _ => rfl)
    · rw [wipes]
      exact Exact.empty (reset.accountMark fun _ => rfl)
    · rw [dirty]
      exact Exact.empty reset.slotMark

theorem init_inv (genesis : Genesis) :
    Inv genesis.env 0 0 (init genesis.env genesis.parentCode) := by
  have reset : Reset genesis.env (init genesis.env genesis.parentCode) := ⟨rfl, rfl⟩
  exact reset.inv genesis.owned rfl rfl rfl rfl rfl rfl rfl rfl rfl rfl rfl rfl rfl rfl

theorem discardAccepted_reset {after : WorldState} (ran : discardAccepted env self = .ok () after) :
    Reset env after := by
  unfold discardAccepted at ran
  obtain ⟨_, _, quiet, rest⟩ := Action.bind_eq_ok.mp ran
  obtain ⟨-, rfl⟩ := Action.assert_eq_ok.mp quiet
  cases rest
  refine ⟨?_, ?_⟩
  · dsimp only [World.resetRows]
    cases env.parent <;> rfl
  · dsimp only [World.resetRows]
    cases env.parent <;> rfl

theorem discardAccepted_ran {scope : Generation} {after : WorldState} (inv : Inv env 0 scope self)
    (owned : env.Owned) (ran : discardAccepted env self = .ok () after) :
    self.transactionActive = false ∧ Inv env 0 scope after ∧ after.transactionActive = false ∧
      after.clock = 0 ∧ after.worldEpoch = self.worldEpoch + 1 ∧
      after.code.parent = self.code.parent := by
  have reset := discardAccepted_reset ran
  unfold discardAccepted at ran
  obtain ⟨_, _, quiet, rest⟩ := Action.bind_eq_ok.mp ran
  obtain ⟨notActive, rfl⟩ := Action.assert_eq_ok.mp quiet
  have idle := inv.idle notActive
  cases rest
  refine ⟨notActive, ?_, notActive, rfl, rfl, rfl⟩
  exact reset.inv owned inv.scope notActive idle.journal idle.lifecycle idle.transient idle.deferred
    idle.scopeDepth idle.notReverted idle.closed idle.notSealed rfl rfl rfl rfl

end Reset

end WorldState

/-! ## Moves -/

/-- A snapshot beside the state it was taken of; no move reads the latter. -/
structure Taken where
  snapshot : BranchSnapshot
  of : WorldState

/-- A state with its open checkpoints, innermost first, and the snapshots made so far. -/
structure Config where
  state : WorldState
  scopes : List Checkpoint := []
  snapshots : List Taken := []

inductive Move where
  | call (op : WorldState.Op)
  | checkpoint
  | commitCheckpoint
  | revertToCheckpoint
  | beginAttempt (observe : Bool)
  | openSession
  | closeSession
  | sealAttempt
  | retainAttempt
  | discardAttempt
  | discardAccepted
  | branchSnapshot
  | cloneSnapshot (index : Nat)
  | restoreBranch (index : Nat)

namespace Config

/-- The configuration after a call that returned; illegal calls have none. -/
def returned {α : Type} (config : Config) : Outcome WorldState StateError α → Option Config
  | .ok _ state => some { config with state }
  | .fail _ _ => none
  | .illegal => none

/-- The configuration after a call that may have failed. -/
def settled {α : Type} (config : Config) : Outcome WorldState StateError α → Option Config
  | .ok _ state => some { config with state }
  | .fail _ state => some { config with state }
  | .illegal => none

/-- Record a snapshot where making it succeeded. -/
def recorded (config : Config) (of : WorldState → WorldState) :
    Outcome WorldState StateError BranchSnapshot → Option Config
  | .ok snapshot state =>
      some { config with state, snapshots := config.snapshots ++ [{ snapshot, of := of state }] }
  | .fail _ state => some { config with state }
  | .illegal => none

def step (env : Env) (config : Config) (move : Move) : Option Config :=
  let self := config.state
  match move with
  | .call op => config.settled (op.run env self)
  | .checkpoint =>
      match WorldState.checkpoint self with
      | .ok held state => some { config with state, scopes := held :: config.scopes }
      | _ => none
  | .commitCheckpoint =>
      match config.scopes with
      | [] => none
      | held :: scopes => { config with scopes }.returned (WorldState.commitCheckpoint held self)
  | .revertToCheckpoint =>
      match config.scopes with
      | [] => none
      | held :: scopes => { config with scopes }.returned (WorldState.revertToCheckpoint held self)
  | .beginAttempt observe => config.returned (WorldState.beginAttemptMode observe self)
  | .openSession => config.returned (WorldState.openSession self)
  | .closeSession => config.returned (WorldState.closeSession self)
  | .sealAttempt => config.returned (WorldState.sealAttempt self.lifetime.transaction self)
  | .retainAttempt => config.returned (WorldState.retainAttempt self.lifetime.transaction self)
  | .discardAttempt => config.returned (WorldState.discardAttempt self.lifetime.transaction self)
  | .discardAccepted => config.returned (WorldState.discardAccepted env self)
  | .branchSnapshot => config.recorded id (WorldState.branchSnapshot env self)
  | .cloneSnapshot index =>
      match config.snapshots[index]? with
      | none => none
      | some taken =>
          config.recorded (fun _ => taken.of) (WorldState.cloneSnapshot env taken.snapshot self)
  | .restoreBranch index =>
      match config.snapshots[index]? with
      | none => none
      | some taken =>
          match WorldState.restoreBranch env taken.snapshot self with
          | .ok snapshot state =>
              some { config with state, snapshots := config.snapshots.set index { taken with snapshot } }
          | _ => none

def exec (env : Env) (config : Config) : List Move → Option Config
  | [] => some config
  | move :: moves => (config.step env move).bind fun next => next.exec env moves

/-- A restored snapshot finds the rows and the code it was taken of. -/
def InPlace (config : Config) : Move → Prop
  | .restoreBranch index => ∀ taken, config.snapshots[index]? = some taken →
      WorldState.Intact taken.of config.state
  | _ => True

/-- Every snapshot the run restores is in place. -/
def Faithful (env : Env) (config : Config) : List Move → Prop
  | [] => True
  | move :: moves => config.InPlace move ∧
      ∀ next, config.step env move = some next → next.Faithful env moves

/-- A state just made. -/
def init (genesis : Genesis) : Config where
  state := WorldState.init genesis.env genesis.parentCode

theorem faithful_of_no_restore {env : Env} {moves : List Move} {config : Config}
    (none : ∀ index, Move.restoreBranch index ∉ moves) : config.Faithful env moves := by
  induction moves generalizing config with
  | nil => trivial
  | cons move moves ih =>
      refine ⟨?_, fun next _ => ih fun index member => none index (List.mem_cons_of_mem _ member)⟩
      cases move with
      | restoreBranch index => exact absurd List.mem_cons_self (none index)
      | _ => trivial

theorem exec_append {env : Env} {first second : List Move} {config : Config} :
    config.exec env (first ++ second) =
      (config.exec env first).bind fun next => next.exec env second := by
  induction first generalizing config with
  | nil => rfl
  | cons move moves ih =>
      simp only [List.cons_append, exec, Option.bind_assoc]
      congr 1
      funext next
      exact ih

end Config

end EvmZig.State
