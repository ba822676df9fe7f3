import EvmZig.State.Reachable

/-!
# Exactness over whole runs

From any faithful run: reverting a checkpoint gives back every value a caller
can read, discarding an attempt gives back the accepted branch, the accepted
change lists name exactly the marked rows and lose nothing, and restoring a
snapshot gives back the branch it captured.  A run that restores a snapshot
whose rows were dropped in the meantime loses all but the third.
-/

set_option autoImplicit false

namespace EvmZig.State

open Lib Zig

/-- Moves that open, use or close checkpoints; with `strict`, none that clears. -/
def Move.InScope (strict : Prop) : Move → Prop
  | .call op => strict → op.clears = false
  | .checkpoint => True
  | .commitCheckpoint => True
  | .revertToCheckpoint => True
  | _ => False

/-- Moves an attempt makes between its beginning and its end. -/
def Move.Within : Move → Prop
  | .openSession => True
  | .closeSession => True
  | .sealAttempt => True
  | move => move.InScope False

namespace Config

open WorldState

variable {env : Env} {config after : Config} {strict : Prop} {root : WorldState → Prop}

theorem nested_step {move : Move}
    (nested : Nested env strict root config.state config.scopes) (rooted : Rooted env strict root)
    (inScope : move.InScope strict) (ran : config.step env move = some after) :
    Nested env strict root after.state after.scopes := by
  replace ran := step_moved ran
  cases ran with
  | call ends => exact (nested.called rooted (fun base scope => Op.run_safe _ inScope) ends).1
  | checkpoint ran => exact (nested.checkpoint rooted ran).1
  | committed stack ran =>
      rw [stack] at nested
      exact (nested.closed rooted (.inl ran)).1
  | reverted stack ran =>
      rw [stack] at nested
      exact (nested.closed rooted (.inr ran)).1
  | _ => exact inScope.elim

/-- An open world above nothing, with an allocator that never refuses. -/
def bare : Genesis where
  env := {
    keccak256 := fun _ => keccak256Empty
    parent := .openWorld none false
    grants := fun _ => true }
  parentCode := []
  owned := trivial

def addressOf (last : UInt8) : Address := ⟨List.replicate 19 0 ++ [last], rfl⟩

/-- An attempt of one session, retained. -/
def attemptOf (ops : List Op) : List Move :=
  [.beginAttempt false, .openSession] ++ ops.map .call ++
    [.closeSession, .sealAttempt, .retainAttempt]

/-- The second snapshot holds a row that the first drops; another account takes its place. -/
def staleRun : List Move :=
  [.branchSnapshot] ++ attemptOf [.setBalance (addressOf 1) 11] ++
    [.branchSnapshot, .restoreBranch 0] ++ attemptOf [.setBalance (addressOf 2) 22]

/-- The same with slots: the slot a stale restore leaves has no account yet. -/
def misplacedRun : List Move :=
  [.branchSnapshot] ++ attemptOf [.setStorage (addressOf 1) 5 7] ++
    [.branchSnapshot, .restoreBranch 0] ++
    attemptOf [.getBalance (addressOf 2), .getBalance (addressOf 3), .getStorage (addressOf 4) 5] ++
    [.restoreBranch 1]

/-- Reads that admit two more accounts, the second in the place of the missing owner. -/
def admittingReads : List Move :=
  [.call (.getBalance (addressOf 8)), .call (.getStorage (addressOf 9) 5)]

/-! ## Reverting -/

theorem rooted_since (start : WorldState) : Rooted env False (Since env start) where
  keeps _ since := ⟨_, _, since.inv, fun _ later rel => since.next later rel.1⟩

theorem since_step {move : Move} {start : WorldState}
    (nested : Nested env False (Since env start) config.state config.scopes)
    (within : move.Within) (ran : config.step env move = some after) :
    Nested env False (Since env start) after.state after.scopes := by
  have flat : config.state.scopeDepth ≤ 1 → ∀ state, (Since env start config.state →
      Since env start state) → Nested env False (Since env start) state config.scopes := by
    intro shallow state steps
    obtain ⟨empty, since⟩ := nested.flat shallow
    rw [empty]
    exact .root (steps since)
  cases move with
  | openSession =>
      obtain ⟨_, state, outcome, rfl⟩ := returned_eq_some ran
      obtain ⟨-, depth, rfl⟩ := openSession_ran outcome
      exact flat (by rw [depth]; exact Nat.zero_le _) _ fun since => since.rescope _ _
  | closeSession =>
      obtain ⟨_, state, outcome, rfl⟩ := returned_eq_some ran
      obtain ⟨-, depth, rfl⟩ := closeSession_ran outcome
      exact flat depth.le _ fun since => since.rescope _ _
  | sealAttempt =>
      obtain ⟨_, state, outcome, rfl⟩ := returned_eq_some ran
      obtain ⟨_, _, current, -⟩ := Action.bind_eq_ok.mp outcome
      obtain ⟨running, -, -⟩ := assertCurrent_ran current
      obtain ⟨base, scope, inv⟩ := nested.inv (rooted_since start)
      obtain ⟨-, closed, rfl⟩ := sealAttempt_ran (inv.active running).transaction outcome
      exact flat (shallow_of_closed closed) _ fun since => since.seal
  | _ => exact nested_step nested (rooted_since start) (by exact within) ran

theorem since_exec {moves : List Move} {start : WorldState}
    (nested : Nested env False (Since env start) config.state config.scopes)
    (within : ∀ move ∈ moves, move.Within) (ran : config.exec env moves = some after) :
    Nested env False (Since env start) after.state after.scopes := by
  induction moves generalizing config with
  | nil =>
      obtain rfl := Option.some.inj ran
      exact nested
  | cons move moves ih =>
      obtain ⟨next, stepped, rest⟩ := Option.bind_eq_some_iff.mp ran
      have here := since_step nested (within move List.mem_cons_self) stepped
      exact ih here (fun other member => within other (List.mem_cons_of_mem _ member)) rest

/-- Discarding an attempt, sealed or not, gives back the branch it was begun on. -/
theorem discards_sameBranch {genesis : Genesis} {moves : List Move}
    (faithful : (init genesis).Faithful genesis.env moves)
    (reached : (init genesis).exec genesis.env moves = some config)
    {observe : Bool} {inner : List Move} (within : ∀ move ∈ inner, move.Within) {closing : Config}
    (ran : config.exec genesis.env (.beginAttempt observe :: inner) = some closing)
    (closed : ¬closing.state.SessionActive) :
    ∃ last, WorldState.discardAttempt closing.state.lifetime.transaction closing.state =
      .ok () last ∧ SameBranch genesis.env config.state last := by
  have sound := exec_sound faithful reached
  obtain ⟨next, begins, rest⟩ := Option.bind_eq_some_iff.mp ran
  obtain ⟨attempt, state, outcome, rfl⟩ := returned_eq_some begins
  obtain ⟨notActive, -, rfl⟩ := beginAttemptMode_ran outcome
  obtain ⟨empty, inv⟩ := sound.nested.accepted notActive
  have nested : Nested genesis.env False (Since genesis.env config.state)
      (begun observe config.state) config.scopes := by
    rw [empty]
    exact .root (Since.begin inv notActive)
  obtain ⟨-, since⟩ := (since_exec nested within rest).flat (shallow_of_closed closed)
  obtain ⟨last, discards, discarded⟩ := discardAttempt_run since inv notActive closed
  exact ⟨last, discards, discarded.sameBranch (inv.idle notActive)⟩

/-- Nor does discarding the attempt that made the reads. -/
theorem discardAttempt_misplaced : ∃ (config closing : Config) (last : WorldState),
    (init bare).exec bare.env misplacedRun = some config ∧
      config.exec bare.env ([.beginAttempt false, .openSession] ++ admittingReads ++
        [.closeSession]) = some closing ∧
      WorldState.discardAttempt closing.state.lifetime.transaction closing.state = .ok () last ∧
      ¬SameBranch bare.env config.state last := by
  have values : (((init bare).exec bare.env misplacedRun).bind fun config =>
      (config.exec bare.env ([.beginAttempt false, .openSession] ++ admittingReads ++
        [.closeSession])).bind fun closing =>
        (WorldState.discardAttempt closing.state.lifetime.transaction
          closing.state).toOption.map fun last =>
          (config.state.storageValue bare.env (addressOf 9) 5,
            last.2.storageValue bare.env (addressOf 9) 5)) = some (0, 7) := by decide +kernel
  obtain ⟨config, reached, values⟩ := Option.bind_eq_some_iff.mp values
  obtain ⟨closing, ran, values⟩ := Option.bind_eq_some_iff.mp values
  obtain ⟨⟨_, last⟩, discards, values⟩ := Option.map_eq_some_iff.mp values
  obtain ⟨zero, seven⟩ := Prod.mk.inj values
  refine ⟨config, closing, last, reached, ran, Outcome.toOption_eq_some.mp discards,
    fun same => ?_⟩
  have value := same.storage (addressOf 9) 5
  rw [zero, seven] at value
  exact absurd value (by decide)

/-! ## Change lists -/

/-- The accepted lists name the marked rows, each once, and no difference from the parent is
missing from them. -/
structure ListsExact (env : Env) (state : WorldState) : Prop where
  changes : Exact (fun id => state.rowMark (·.flags.blockChanged) id = true)
    state.blockChangedAccounts
  wipes : Exact (fun id => state.rowMark (·.flags.storageWiped) id = true) state.blockStorageWipes
  dirty : Exact (fun id => state.slotDirty id = true ∧ state.slotLive id = true) state.dirtyStorage
  changedAccount : ∀ address, state.accountValue env address ≠ env.parentAccount address →
    ∃ id ∈ state.blockChangedAccounts, state.world.accounts.key id = some address
  hiddenStorage : ∀ address, (state.accountAt env address).storageIncarnation ≠ 0 →
    ∃ id ∈ state.blockStorageWipes, state.world.accounts.key id = some address
  changedSlot : ∀ address slot,
    (∀ id ∈ state.blockStorageWipes, state.world.accounts.key id ≠ some address) →
    state.storageValue env address slot ≠ env.parentStorage address slot →
    ∃ id ∈ state.dirtyStorage, state.slotOf id = some (address, slot)

section Lists

variable {self : WorldState}

/-- A marked account cell belongs to a row, since cells without one are fresh. -/
theorem exists_accountMark {marked : AccountCell → Bool}
    (fresh : ∀ current, marked (AccountRow.admitted current).cell = false) {address : Address}
    (isMarked : marked (self.view env (.account address)) = true) :
    ∃ id, self.world.accounts.key id = some address ∧ self.accountMark env marked id = true := by
  cases found : self.world.accounts.find address with
  | none =>
      simp only [view] at isMarked
      rw [accountAt_of_missing found, fresh] at isMarked
      cases isMarked
  | some id =>
      have key := Table.find_eq_some.mp found
      refine ⟨id, key, ?_⟩
      rw [accountMark, key]
      exact isMarked

theorem exists_slotMark {address : Address} {slot : U256}
    (isDirty : (self.view env (.slot address slot)).flags.blockDirty = true) :
    ∃ id, self.slotOf id = some (address, slot) ∧ self.slotMark env blockDirtyMark id = true := by
  cases found : self.slotIdAt address slot with
  | none =>
      simp only [view] at isDirty
      rw [storageAt_eq_row, found] at isDirty
      cases isDirty
  | some id =>
      have place := slotOf_slotIdAt found
      refine ⟨id, place, ?_⟩
      rw [slotMark, place]
      exact isDirty

theorem listsExact_of_idle (inv : Inv env 0 self.lifetime.scope self)
    (notActive : self.transactionActive = false) : ListsExact env self := by
  have idle := inv.idle notActive
  have changedMark : self.accountMark env blockChangedMark = self.rowMark (·.flags.blockChanged) :=
    funext fun id => accountMark_eq_rowMark (fun _ => rfl) id
  have wipedMark : self.accountMark env storageWipedMark = self.rowMark (·.flags.storageWiped) :=
    funext fun id => accountMark_eq_rowMark (fun _ => rfl) id
  -- an accepted dirty slot is one of the current incarnation
  have dirtyLive : ∀ id, self.slotMark env blockDirtyMark id = true ↔
      self.slotDirty id = true ∧ self.slotLive id = true := by
    intro id
    have same : self.slotMark env blockDirtyMark id = self.slotDirty id :=
      slotMark_eq_slotDirty inv.stamps id
    rw [← same]
    refine ⟨fun dirty => ⟨dirty, ?_⟩, fun both => both.1⟩
    rw [slotMark] at dirty
    cases place : self.slotOf id with
    | none =>
        rw [place] at dirty
        cases dirty
    | some found =>
        rw [place] at dirty
        have live : self.slotLive id = decide
            ((self.view env (.slot found.1 found.2)).storageIncarnation =
            (self.view env (.account found.1)).storageIncarnation) := slotLive_eq place
        rw [live]
        exact decide_eq_true (idle.current _ _ dirty)
  have listedWipe : ∀ address, (self.view env (.account address)).flags.storageWiped = true →
      ∃ id ∈ self.blockStorageWipes, self.world.accounts.key id = some address := by
    intro address wiped
    have isWiped : storageWipedMark (self.view env (.account address)) = true := wiped
    obtain ⟨id, key, isMarked⟩ := exists_accountMark (fun _ => rfl) isWiped
    exact ⟨id, (idle.wipes.mem id).mpr isMarked, key⟩
  refine ⟨?_, ?_, idle.dirty.congr fun id => (dirtyLive id).symm, ?_, ?_, ?_⟩
  · rw [← changedMark]
    exact idle.changes
  · rw [← wipedMark]
    exact idle.wipes
  · intro address differs
    have changed : blockChangedMark (self.view env (.account address)) = true := by
      by_contra unchanged
      exact differs ((inv.consistent.account address).unchanged (Bool.eq_false_of_not_eq_true unchanged))
    obtain ⟨id, key, isMarked⟩ := exists_accountMark (fun _ => rfl) changed
    exact ⟨id, (idle.changes.mem id).mpr isMarked, key⟩
  · intro address hidden
    apply listedWipe
    by_contra unwiped
    exact hidden ((inv.consistent.account address).unwiped (Bool.eq_false_of_not_eq_true unwiped))
  · intro address slot visible differs
    have notWiped : (self.view env (.account address)).flags.storageWiped = false := by
      by_contra wiped
      obtain ⟨id, member, key⟩ := listedWipe address (Bool.eq_true_of_not_eq_false wiped)
      exact visible id member key
    have changed : (self.view env (.slot address slot)).flags.blockDirty = true := by
      by_contra clean
      obtain ⟨value, incarnation⟩ := (inv.consistent.slot address slot).unchanged
        (Bool.eq_false_of_not_eq_true clean) notWiped
      apply differs
      rw [storageValue_eq, incarnation, (inv.consistent.account address).unwiped notWiped, value]
      exact if_neg (not_not_intro rfl)
    obtain ⟨id, place, isMarked⟩ := exists_slotMark changed
    exact ⟨id, (idle.dirty.mem id).mpr isMarked, place⟩

end Lists

theorem faithful_listsExact {genesis : Genesis} {moves : List Move}
    (faithful : (init genesis).Faithful genesis.env moves)
    (reached : (init genesis).exec genesis.env moves = some config)
    (accepted : config.state.transactionActive = false) : ListsExact genesis.env config.state :=
  listsExact_of_idle ((exec_sound faithful reached).nested.accepted accepted).2 accepted

/-- The accepted change lists are exact after every sequence of attempts. -/
theorem acceptedLists_exact {genesis : Genesis} {moves : List Move}
    (attempts : ∀ index, Move.restoreBranch index ∉ moves)
    (reached : (init genesis).exec genesis.env moves = some config)
    (accepted : config.state.transactionActive = false) : ListsExact genesis.env config.state :=
  faithful_listsExact (faithful_of_no_restore attempts) reached accepted

theorem acceptedLists_exact_bare : ∃ config : Config,
    (init bare).exec bare.env (attemptOf [.setBalance (addressOf 1) 11]) = some config ∧
      ListsExact bare.env config.state := by
  have values : ((init bare).exec bare.env (attemptOf [.setBalance (addressOf 1) 11])).map
      (fun config => config.state.transactionActive) = some false := by decide +kernel
  obtain ⟨config, reached, accepted⟩ := Option.map_eq_some_iff.mp values
  exact ⟨config, reached, acceptedLists_exact (by simp [attemptOf]) reached accepted⟩

/-! ## Restoring -/

theorem restores_of_step {index : Nat} (ran : config.step env (.restoreBranch index) = some after) :
    ∃ taken left state, config.snapshots[index]? = some taken ∧
      WorldState.restoreBranch env taken.snapshot config.state = .ok left state ∧
      after.state = state := by
  replace ran := step_moved ran
  cases ran with
  | restored found ran => exact ⟨_, _, _, found, ran, rfl⟩

/-- Restoring a snapshot that is in place gives back the branch it captured. -/
theorem restoreBranch_exact {genesis : Genesis} {moves : List Move}
    (faithful : (init genesis).Faithful genesis.env moves)
    (reached : (init genesis).exec genesis.env moves = some config)
    {index : Nat} {taken : Taken} (found : config.snapshots[index]? = some taken)
    (inPlace : Intact taken.of config.state)
    (ran : config.step genesis.env (.restoreBranch index) = some after) :
    SameBranch genesis.env taken.of after.state := by
  have sound := exec_sound faithful reached
  obtain ⟨other, left, state, foundOther, restores, rfl⟩ := restores_of_step ran
  obtain rfl := Option.some.inj (found.symm.trans foundOther)
  obtain ⟨-, -, mid, -, -, -, -, later, same⟩ := sound.restored found inPlace restores
  rw [same]
  exact restored_sameBranch ((sound.recalls taken (List.mem_of_getElem? found)).later later) mid

/-- Restoring the second snapshot gives the balance it captured to the wrong account. -/
theorem restoreBranch_stale : ∃ (config : Config) (taken : Taken) (next : Config),
    (init bare).exec bare.env staleRun = some config ∧ config.snapshots[1]? = some taken ∧
      config.step bare.env (.restoreBranch 1) = some next ∧
      ¬SameBranch bare.env taken.of next.state := by
  have values : (((init bare).exec bare.env staleRun).bind fun config =>
      config.snapshots[1]?.bind fun taken =>
        (config.step bare.env (.restoreBranch 1)).map fun next =>
          (taken.of.accountValue bare.env (addressOf 2),
            next.state.accountValue bare.env (addressOf 2))) =
      some (none, some { balance := 11 }) := by decide +kernel
  obtain ⟨config, reached, values⟩ := Option.bind_eq_some_iff.mp values
  obtain ⟨taken, found, values⟩ := Option.bind_eq_some_iff.mp values
  obtain ⟨next, restores, values⟩ := Option.map_eq_some_iff.mp values
  obtain ⟨captured, now⟩ := Prod.mk.inj values
  refine ⟨config, taken, next, reached, found, restores, fun same => ?_⟩
  have value := same.account (addressOf 2)
  rw [captured, now] at value
  cases value

/-- Two snapshots; the second has a row, which the run changes before it adds another. -/
def amendedRun : List Move :=
  [.branchSnapshot] ++ attemptOf [.setBalance (addressOf 1) 11] ++ [.branchSnapshot] ++
    attemptOf [.setBalance (addressOf 1) 12, .setBalance (addressOf 2) 22]

theorem restoreBranch_exact_bare : ∃ (config : Config) (taken : Taken) (next : Config),
    (init bare).exec bare.env amendedRun = some config ∧ config.snapshots[1]? = some taken ∧
      config.step bare.env (.restoreBranch 1) = some next ∧
      SameBranch bare.env taken.of next.state ∧
      next.state.accountValue bare.env (addressOf 1) = some { balance := 11 } := by
  have values : (((init bare).exec bare.env amendedRun).bind fun config =>
      config.snapshots[1]?.bind fun taken =>
        (config.step bare.env (.restoreBranch 1)).map fun _ =>
          (decide (taken.of.world.accounts.rows.map Prod.fst <+:
              config.state.world.accounts.rows.map Prod.fst),
            taken.of.world.storage.rows.isEmpty, taken.of.code.introduced.rows.isEmpty,
            taken.of.accountValue bare.env (addressOf 1))) =
      some (true, true, true, some { balance := 11 }) := by decide +kernel
  obtain ⟨config, reached, values⟩ := Option.bind_eq_some_iff.mp values
  obtain ⟨taken, found, values⟩ := Option.bind_eq_some_iff.mp values
  obtain ⟨next, restores, values⟩ := Option.map_eq_some_iff.mp values
  obtain ⟨accounts, rest⟩ := Prod.mk.inj values
  obtain ⟨storage, rest⟩ := Prod.mk.inj rest
  obtain ⟨code, balance⟩ := Prod.mk.inj rest
  have inPlace : Intact taken.of config.state := by
    refine ⟨of_decide_eq_true accounts, ?_, ?_⟩
    · rw [List.isEmpty_iff.mp storage]
      exact List.nil_prefix
    · rw [List.isEmpty_iff.mp code]
      exact List.nil_prefix
  have same := restoreBranch_exact (faithful_of_no_restore (by simp [amendedRun, attemptOf]))
    reached found inPlace restores
  exact ⟨config, taken, next, reached, found, restores, same,
    (same.account (addressOf 1)).trans balance⟩

end Config

end EvmZig.State
