import EvmZig.State.Runs

/-!
# The invariant of runs

`Nested` follows the open checkpoints down to the accepted state the attempt
was begun on; `Sound` adds that every snapshot can still be told apart by its
epoch and its clock.  Each move keeps both, given that a restored snapshot is
in place.
-/

set_option autoImplicit false

namespace EvmZig.State

open Lib Zig

variable {held : Checkpoint} {strict : Prop} {base : Nat} {state : WorldState} {taken : Taken}

namespace WorldState

variable {env : Env} {self after : WorldState}

/-! ## Open checkpoints -/

/-- `state` lies under the open checkpoints of the list, innermost first, the outermost of them
opened in a state of `root`. -/
inductive Nested (env : Env) (strict : Prop) (root : WorldState → Prop) :
    WorldState → List Checkpoint → Prop
  | root {state : WorldState} (holds : root state) : Nested env strict root state []
  | scope {outer state : WorldState} {stack : List Checkpoint}
      (around : Nested env strict root outer stack) (running : Running outer)
      (session : outer.SessionActive) (under : Under env strict outer state) :
      Nested env strict root state (mark outer :: stack)

/-- The root keeps some scope's discipline. -/
structure Rooted (env : Env) (strict : Prop) (root : WorldState → Prop) : Prop where
  keeps : ∀ state, root state → ∃ base scope, Inv env base scope state ∧ ∀ next,
    Inv env base scope next → (calls env strict base scope).rel state next → root next

theorem reverts_reaches (ran : revertToCheckpoint held self = .ok () after) :
    self.logs.Reaches held.logs := by
  obtain ⟨_, middle, asserted, _⟩ := Action.bind_eq_ok.mp ran
  unfold assertCheckpoint at asserted
  obtain ⟨_, _, session, asserted⟩ := Action.bind_eq_ok.mp asserted
  have looks : Looks assertSession := (Looks.assert _).bind fun _ => Looks.assert _
  have same := looks.eq_of_ok session
  subst same
  obtain ⟨_, _, first, asserted⟩ := Action.bind_eq_ok.mp asserted
  obtain ⟨-, rfl⟩ := Action.assert_eq_ok.mp first
  obtain ⟨_, _, second, asserted⟩ := Action.bind_eq_ok.mp asserted
  obtain ⟨-, rfl⟩ := Action.assert_eq_ok.mp second
  obtain ⟨_, _, third, asserted⟩ := Action.bind_eq_ok.mp asserted
  obtain ⟨-, rfl⟩ := Action.assert_eq_ok.mp third
  obtain ⟨_, _, fourth, asserted⟩ := Action.bind_eq_ok.mp asserted
  obtain ⟨-, rfl⟩ := Action.assert_eq_ok.mp fourth
  exact (Action.assert_eq_ok.mp asserted).1

namespace Nested

variable {strict : Prop} {root : WorldState → Prop} {stack : List Checkpoint} {held : Checkpoint}

theorem inv (nested : Nested env strict root self stack) (rooted : Rooted env strict root) :
    ∃ base scope, Inv env base scope self := by
  cases nested with
  | root holds =>
      obtain ⟨base, scope, inv, -⟩ := rooted.keeps self holds
      exact ⟨base, scope, inv⟩
  | scope around running session under => exact ⟨_, _, under.inv⟩

/-- A step that keeps the discipline of every scope keeps the nesting. -/
theorem next (nested : Nested env strict root self stack) (rooted : Rooted env strict root)
    (steps : ∀ base scope, Inv env base scope self →
      Inv env base scope after ∧ (calls env strict base scope).rel self after) :
    Nested env strict root after stack := by
  cases nested with
  | root holds =>
      obtain ⟨base, scope, inv, stays⟩ := rooted.keeps self holds
      obtain ⟨later, rel⟩ := steps base scope inv
      exact .root (stays after later rel)
  | scope around running session under =>
      obtain ⟨later, rel⟩ := steps _ _ under.inv
      exact .scope around running session (under.next later rel)

/-- Where a checkpoint is open, the session is at least two scopes deep. -/
theorem deep (nested : Nested env strict root self (held :: stack)) :
    Running self ∧ 2 ≤ self.scopeDepth := by
  cases nested with
  | scope around running session under =>
      refine ⟨under.running running, ?_⟩
      have depth : self.scopeDepth = _ + 1 := under.scopeDepth
      rw [depth]
      exact Nat.succ_le_succ (Nat.one_le_iff_ne_zero.mpr session)

theorem flat (nested : Nested env strict root self stack) (shallow : self.scopeDepth ≤ 1) :
    stack = [] ∧ root self := by
  cases stack with
  | nil =>
      cases nested with
      | root holds => exact ⟨rfl, holds⟩
  | cons held stack => exact absurd nested.deep.2 (Nat.not_le_of_lt (Nat.lt_succ_of_le shallow))

/-- Opening a checkpoint. -/
theorem checkpoint (nested : Nested env strict root self stack) (rooted : Rooted env strict root)
    (ran : WorldState.checkpoint self = .ok held after) :
    Nested env strict root after (held :: stack) ∧ after = opened self := by
  rcases checkpoint_run self with stuck | ⟨running, session, opens⟩
  · rw [stuck] at ran
    cases ran
  · rw [opens] at ran
    cases ran
    obtain ⟨base, scope, inv⟩ := nested.inv rooted
    exact ⟨.scope nested running session (Under.start inv running), rfl⟩

/-- Closing one, either way, leaves a state the scope around it could have reached by itself. -/
theorem closed (nested : Nested env strict root self (held :: stack))
    (rooted : Rooted env strict root)
    (ran : WorldState.commitCheckpoint held self = .ok () after ∨
      WorldState.revertToCheckpoint held self = .ok () after) :
    Nested env strict root after stack ∧ after.clock = self.clock ∧
      after.worldEpoch = self.worldEpoch ∧ after.code.parent = self.code.parent := by
  cases nested with
  | scope around running session under =>
      rename_i outer
      obtain ⟨base, scope, inv⟩ := around.inv rooted
      rcases ran with commits | reverts
      · rcases commitCheckpoint_run (mark outer) self with stuck | commit
        · rw [stuck] at commits
          cases commits
        · rw [commit] at commits
          cases commits
          refine ⟨around.next rooted fun base scope inv => ?_, rfl, rfl, rfl⟩
          exact ⟨committed_inv under inv running, committed_follows under inv running⟩
      · obtain ⟨last, reverted, exact_⟩ :=
          revertToCheckpoint_run under inv running (reverts_reaches reverts)
        rw [reverted] at reverts
        cases reverts
        refine ⟨around.next rooted fun base scope inv => ?_, exact_.clock, exact_.worldEpoch, ?_⟩
        · exact ⟨exact_.inv under inv running, exact_.rel under inv running⟩
        · rw [exact_.code]
          exact under.follows.lists.parentCode.symm

/-- The state a run ends in, whether it returns or fails. -/
def EndsIn {α : Type} (outcome : Outcome WorldState StateError α) (state : WorldState) : Prop :=
  (∃ value, outcome = .ok value state) ∨ ∃ error, outcome = .fail error state

/-- A call kept by every discipline. -/
theorem called {α : Type} {body : Method α} (nested : Nested env strict root self stack)
    (rooted : Rooted env strict root)
    (safe : ∀ base scope, Safe (calls env strict base scope) body)
    (ends : EndsIn (body self) after) :
    Nested env strict root after stack ∧
      ∃ base scope, Follows env strict base scope self after := by
  have steps : ∀ base scope, Inv env base scope self →
      Inv env base scope after ∧ (calls env strict base scope).rel self after := by
    intro base scope inv
    have allowed := safe base scope self inv trivial
    rcases ends with ⟨value, outcome⟩ | ⟨error, outcome⟩
    · rw [outcome] at allowed
      exact ⟨allowed.1, allowed.2.1⟩
    · rw [outcome] at allowed
      exact allowed
  obtain ⟨base, scope, inv⟩ := nested.inv rooted
  exact ⟨nested.next rooted steps, base, scope, (steps base scope inv).2.1⟩

end Nested

/-- An accepted state, or one of an attempt begun on an accepted state. -/
inductive Outermost (env : Env) (state : WorldState) : Prop
  | idle (inv : Inv env 0 state.lifetime.scope state) (notActive : state.transactionActive = false)
  | attempt (start : WorldState) (inv : Inv env 0 start.lifetime.scope start)
      (notActive : start.transactionActive = false) (since : Since env start state)

theorem rooted_outermost : Rooted env False (Outermost env) where
  keeps state holds := by
    cases holds with
    | idle inv notActive =>
        refine ⟨_, _, inv, fun next later rel => ?_⟩
        refine .idle ?_ (rel.1.transactionActive.trans notActive)
        rw [later.scope]
        exact later
    | attempt start inv notActive since =>
        exact ⟨_, _, since.inv, fun next later rel =>
          .attempt start inv notActive (since.next later rel.1)⟩

namespace Nested

variable {stack : List Checkpoint}

theorem begun_on (nested : Nested env False (Outermost env) self stack) (running : Running self)
    (shallow : self.scopeDepth ≤ 1) :
    stack = [] ∧ ∃ start, Inv env 0 start.lifetime.scope start ∧
      start.transactionActive = false ∧ Since env start self := by
  obtain ⟨empty, outermost⟩ := nested.flat shallow
  cases outermost with
  | idle inv notActive =>
      rw [Running, notActive] at running
      cases running
  | attempt start inv notActive since => exact ⟨empty, start, inv, notActive, since⟩

theorem accepted (nested : Nested env False (Outermost env) self stack)
    (notActive : self.transactionActive = false) :
    stack = [] ∧ Inv env 0 self.lifetime.scope self := by
  have contradiction : Running self → False := by
    intro running
    rw [Running, notActive] at running
    cases running
  cases stack with
  | cons held stack => exact (contradiction nested.deep.1).elim
  | nil =>
      cases nested with
      | root holds =>
          cases holds with
          | idle inv idle => exact ⟨rfl, inv⟩
          | attempt start inv idle since => exact (contradiction since.running).elim

end Nested

/-! ## What later states keep for the snapshots -/

/-- The epoch and the clock only move forward, and the parent's code stays. -/
structure Later (before after : WorldState) : Prop where
  epoch : before.worldEpoch ≤ after.worldEpoch
  clock : before.worldEpoch = after.worldEpoch → before.clock ≤ after.clock
  parentCode : after.code.parent = before.code.parent

theorem Later.refl (self : WorldState) : Later self self :=
  ⟨Nat.le_refl _, fun _ => Nat.le_refl _, rfl⟩

theorem Later.of_same (epoch : after.worldEpoch = self.worldEpoch) (clock : self.clock ≤ after.clock)
    (parentCode : after.code.parent = self.code.parent) : Later self after :=
  ⟨epoch.symm.le, fun _ => clock, parentCode⟩

theorem Follows.later {scope : Generation} (follows : Follows env strict base scope self after) :
    Later self after :=
  Later.of_same follows.worldEpoch follows.clock follows.lists.parentCode

theorem Recalls.later {of : WorldState} (recalls : Recalls env of self) (later : Later self after) :
    Recalls env of after where
  inv := recalls.inv
  idle := recalls.idle
  epoch := recalls.epoch.trans later.epoch
  clock same := by
    have unchanged : of.worldEpoch = self.worldEpoch :=
      Nat.le_antisymm recalls.epoch (later.epoch.trans same.symm.le)
    exact (recalls.clock unchanged).trans (later.clock (unchanged.symm.trans same))
  parentCode := later.parentCode.trans recalls.parentCode

theorem Recalls.now (inv : Inv env 0 self.lifetime.scope self)
    (notActive : self.transactionActive = false) : Recalls env self self :=
  ⟨inv, notActive, Nat.le_refl _, fun _ => Nat.le_refl _, rfl⟩

end WorldState

namespace Config

open WorldState

variable {env : Env} {config after : Config}

/-- What holds after every faithful run. -/
structure Sound (env : Env) (config : Config) : Prop where
  nested : Nested env False (Outermost env) config.state config.scopes
  recalls : ∀ taken ∈ config.snapshots, Recalls env taken.of config.state
  captures : ∀ taken ∈ config.snapshots,
    taken.snapshot.resolved = false → taken.snapshot = taken.of.captured

theorem init_sound (genesis : Genesis) : (init genesis).Sound genesis.env where
  nested := .root (.idle (WorldState.init_inv genesis) rfl)
  recalls _ member := nomatch member
  captures _ member := nomatch member

/-- A move that leaves the snapshots alone. -/
theorem Sound.next {state : WorldState} {scopes : List Checkpoint} (sound : config.Sound env)
    (nested : Nested env False (Outermost env) state scopes) (later : Later config.state state) :
    ({ config with state, scopes } : Config).Sound env where
  nested := nested
  recalls taken member := (sound.recalls taken member).later later
  captures := sound.captures

theorem returned_eq_some {α : Type} {outcome : Outcome WorldState StateError α}
    (ran : config.returned outcome = some after) :
    ∃ value state, outcome = .ok value state ∧ after = { config with state } := by
  cases outcome with
  | ok value state => exact ⟨value, state, rfl, (Option.some.inj ran).symm⟩
  | fail error state => cases ran
  | illegal => cases ran

theorem settled_eq_some {α : Type} {outcome : Outcome WorldState StateError α}
    (ran : config.settled outcome = some after) :
    ∃ state, Nested.EndsIn outcome state ∧ after = { config with state } := by
  cases outcome with
  | ok value state => exact ⟨state, .inl ⟨value, rfl⟩, (Option.some.inj ran).symm⟩
  | fail error state => exact ⟨state, .inr ⟨error, rfl⟩, (Option.some.inj ran).symm⟩
  | illegal => cases ran

/-- The call behind a move, and what the move makes of it. -/
inductive Moved (env : Env) (config : Config) : Move → Config → Prop
  | call {op : Op} {state : WorldState} (ends : Nested.EndsIn (op.run env config.state) state) :
      Moved env config (.call op) { config with state }
  | checkpoint {held : Checkpoint} {state : WorldState}
      (ran : WorldState.checkpoint config.state = .ok held state) :
      Moved env config .checkpoint { config with state, scopes := held :: config.scopes }
  | committed {held : Checkpoint} {scopes : List Checkpoint} {state : WorldState}
      (stack : config.scopes = held :: scopes)
      (ran : WorldState.commitCheckpoint held config.state = .ok () state) :
      Moved env config .commitCheckpoint { config with state, scopes }
  | reverted {held : Checkpoint} {scopes : List Checkpoint} {state : WorldState}
      (stack : config.scopes = held :: scopes)
      (ran : WorldState.revertToCheckpoint held config.state = .ok () state) :
      Moved env config .revertToCheckpoint { config with state, scopes }
  | begun {observe : Bool} {attempt : Generation} {state : WorldState}
      (ran : WorldState.beginAttemptMode observe config.state = .ok attempt state) :
      Moved env config (.beginAttempt observe) { config with state }
  | openSession {state : WorldState} (ran : WorldState.openSession config.state = .ok () state) :
      Moved env config .openSession { config with state }
  | closeSession {state : WorldState} (ran : WorldState.closeSession config.state = .ok () state) :
      Moved env config .closeSession { config with state }
  | sealed {state : WorldState} (ran : WorldState.sealAttempt config.state.lifetime.transaction
      config.state = .ok () state) : Moved env config .sealAttempt { config with state }
  | retained {state : WorldState} (ran : WorldState.retainAttempt config.state.lifetime.transaction
      config.state = .ok () state) : Moved env config .retainAttempt { config with state }
  | discarded {state : WorldState} (ran : WorldState.discardAttempt
      config.state.lifetime.transaction config.state = .ok () state) :
      Moved env config .discardAttempt { config with state }
  | startedOver {state : WorldState}
      (ran : WorldState.discardAccepted env config.state = .ok () state) :
      Moved env config .discardAccepted { config with state }
  | captured {after : Config}
      (ran : config.recorded id (WorldState.branchSnapshot env config.state) = some after) :
      Moved env config .branchSnapshot after
  | cloned {index : Nat} {taken : Taken} {after : Config} (found : config.snapshots[index]? = some taken)
      (ran : config.recorded (fun _ => taken.of)
        (WorldState.cloneSnapshot env taken.snapshot config.state) = some after) :
      Moved env config (.cloneSnapshot index) after
  | restored {index : Nat} {taken : Taken} {left : BranchSnapshot} {state : WorldState}
      (found : config.snapshots[index]? = some taken)
      (ran : WorldState.restoreBranch env taken.snapshot config.state = .ok left state) :
      Moved env config (.restoreBranch index)
        { config with state, snapshots := config.snapshots.set index { taken with snapshot := left } }

theorem step_moved {move : Move} (ran : config.step env move = some after) :
    Moved env config move after := by
  cases move with
  | call op =>
      obtain ⟨state, ends, rfl⟩ := settled_eq_some ran
      exact .call ends
  | checkpoint =>
      unfold Config.step at ran
      dsimp only at ran
      split at ran
      · rename_i held state outcome
        obtain rfl := Option.some.inj ran
        exact .checkpoint outcome
      · cases ran
  | commitCheckpoint =>
      unfold Config.step at ran
      dsimp only at ran
      split at ran
      · cases ran
      · rename_i held scopes stack
        obtain ⟨_, state, outcome, rfl⟩ := returned_eq_some ran
        exact .committed stack outcome
  | revertToCheckpoint =>
      unfold Config.step at ran
      dsimp only at ran
      split at ran
      · cases ran
      · rename_i held scopes stack
        obtain ⟨_, state, outcome, rfl⟩ := returned_eq_some ran
        exact .reverted stack outcome
  | beginAttempt observe =>
      obtain ⟨attempt, state, outcome, rfl⟩ := returned_eq_some ran
      exact .begun outcome
  | openSession =>
      obtain ⟨_, state, outcome, rfl⟩ := returned_eq_some ran
      exact .openSession outcome
  | closeSession =>
      obtain ⟨_, state, outcome, rfl⟩ := returned_eq_some ran
      exact .closeSession outcome
  | sealAttempt =>
      obtain ⟨_, state, outcome, rfl⟩ := returned_eq_some ran
      exact .sealed outcome
  | retainAttempt =>
      obtain ⟨_, state, outcome, rfl⟩ := returned_eq_some ran
      exact .retained outcome
  | discardAttempt =>
      obtain ⟨_, state, outcome, rfl⟩ := returned_eq_some ran
      exact .discarded outcome
  | discardAccepted =>
      obtain ⟨_, state, outcome, rfl⟩ := returned_eq_some ran
      exact .startedOver outcome
  | branchSnapshot => exact .captured ran
  | cloneSnapshot index =>
      unfold Config.step at ran
      dsimp only at ran
      split at ran
      · cases ran
      · rename_i taken found
        exact .cloned found ran
  | restoreBranch index =>
      unfold Config.step at ran
      dsimp only at ran
      split at ran
      · cases ran
      · rename_i taken found
        split at ran
        · rename_i left state outcome
          obtain rfl := Option.some.inj ran
          exact .restored found outcome
        · cases ran

/-! ## Each move -/

theorem Sound.called {α : Type} {body : Method α} (sound : config.Sound env)
    (safe : ∀ base scope, Safe (calls env False base scope) body)
    (ends : Nested.EndsIn (body config.state) state) :
    ({ config with state } : Config).Sound env := by
  obtain ⟨nested, base, scope, follows⟩ := sound.nested.called rooted_outermost safe ends
  exact sound.next nested follows.later

theorem Sound.checkpoint (sound : config.Sound env)
    (ran : WorldState.checkpoint config.state = .ok held state) :
    ({ config with state, scopes := held :: config.scopes } : Config).Sound env := by
  obtain ⟨nested, rfl⟩ := sound.nested.checkpoint rooted_outermost ran
  exact sound.next nested (Later.of_same rfl (Nat.le_succ _) rfl)

theorem Sound.closed {scopes : List Checkpoint} (sound : config.Sound env)
    (stack : config.scopes = held :: scopes)
    (ran : WorldState.commitCheckpoint held config.state = .ok () state ∨
      WorldState.revertToCheckpoint held config.state = .ok () state) :
    ({ config with state, scopes } : Config).Sound env := by
  have nested := sound.nested
  rw [stack] at nested
  obtain ⟨around, clock, epoch, parentCode⟩ := nested.closed rooted_outermost ran
  exact sound.next around (Later.of_same epoch clock.symm.le parentCode)

theorem Sound.begin {observe : Bool} {attempt : Generation} (sound : config.Sound env)
    (ran : beginAttemptMode observe config.state = .ok attempt state) :
    ({ config with state } : Config).Sound env := by
  obtain ⟨notActive, -, rfl⟩ := beginAttemptMode_ran ran
  obtain ⟨empty, inv⟩ := sound.nested.accepted notActive
  have nested : Nested env False (Outermost env) (begun observe config.state) config.scopes := by
    rw [empty]
    exact .root (.attempt _ inv notActive (Since.begin inv notActive))
  exact sound.next nested (Later.of_same rfl (Nat.le_add_right _ _) rfl)

/-- A step of the attempt outside its checkpoints. -/
theorem Sound.attempt (sound : config.Sound env) (running : Running config.state)
    (shallow : config.state.scopeDepth ≤ 1)
    (steps : ∀ start, Since env start config.state → Since env start state)
    (later : Later config.state state) : ({ config with state } : Config).Sound env := by
  obtain ⟨empty, start, inv, notActive, since⟩ := sound.nested.begun_on running shallow
  have nested : Nested env False (Outermost env) state config.scopes := by
    rw [empty]
    exact .root (.attempt start inv notActive (steps start since))
  exact sound.next nested later

/-- A step that ends in an accepted state. -/
theorem Sound.accepted {scope : Generation} (sound : config.Sound env) (empty : config.scopes = [])
    (inv : Inv env 0 scope state) (notActive : state.transactionActive = false)
    (later : Later config.state state) : ({ config with state } : Config).Sound env := by
  have nested : Nested env False (Outermost env) state config.scopes := by
    rw [empty]
    refine .root (.idle ?_ notActive)
    rw [inv.scope]
    exact inv
  exact sound.next nested later

theorem shallow_of_closed (closed : ¬state.SessionActive) : state.scopeDepth ≤ 1 := by
  rw [SessionActive, not_not] at closed
  rw [closed]
  exact Nat.zero_le _

theorem Sound.openSession (sound : config.Sound env)
    (ran : WorldState.openSession config.state = .ok () state) :
    ({ config with state } : Config).Sound env := by
  obtain ⟨running, depth, rfl⟩ := openSession_ran ran
  exact sound.attempt running (by rw [depth]; exact Nat.zero_le _) (fun start since => since.rescope _ _)
    (Later.of_same rfl (Nat.le_succ _) rfl)

theorem Sound.closeSession (sound : config.Sound env)
    (ran : WorldState.closeSession config.state = .ok () state) :
    ({ config with state } : Config).Sound env := by
  obtain ⟨running, depth, rfl⟩ := closeSession_ran ran
  exact sound.attempt running depth.le (fun start since => since.rescope _ _)
    (Later.of_same rfl (Nat.le_succ _) rfl)

theorem Sound.seal {attempt : Generation} (sound : config.Sound env)
    (ran : sealAttempt attempt config.state = .ok () state) :
    ({ config with state } : Config).Sound env := by
  obtain ⟨_, _, current, -⟩ := Action.bind_eq_ok.mp ran
  obtain ⟨running, -, -⟩ := assertCurrent_ran current
  obtain ⟨base, scope, inv⟩ := sound.nested.inv rooted_outermost
  obtain ⟨-, closed, rfl⟩ := sealAttempt_ran (inv.active running).transaction ran
  exact sound.attempt running (shallow_of_closed closed) (fun start since => since.seal)
    (Later.of_same rfl (Nat.le_refl _) rfl)

theorem Sound.retain {attempt : Generation} (sound : config.Sound env)
    (ran : retainAttempt attempt config.state = .ok () state) :
    ({ config with state } : Config).Sound env := by
  obtain ⟨_, _, current, -⟩ := Action.bind_eq_ok.mp ran
  obtain ⟨running, -, -⟩ := assertCurrent_ran current
  obtain ⟨-, closed, -⟩ := retainAttempt_parts ran
  obtain ⟨empty, start, inv, notActive, since⟩ :=
    sound.nested.begun_on running (shallow_of_closed closed)
  have retained := retainAttempt_ran since ran
  refine sound.accepted empty retained.inv retained.idle ?_
  exact Later.of_same retained.worldEpoch retained.clock.symm.le (by rw [retained.code])

theorem discards_closed {attempt : Generation} {after : WorldState}
    (ran : discardAttempt attempt state = .ok () after) :
    Running state ∧ state.lifetime.transaction = attempt ∧ ¬state.SessionActive := by
  obtain ⟨_, _, current, rest⟩ := Action.bind_eq_ok.mp ran
  obtain ⟨running, same, rfl⟩ := assertCurrent_ran current
  obtain ⟨_, _, noSession, -⟩ := Action.bind_eq_ok.mp rest
  exact ⟨running, same, (Action.assert_eq_ok.mp noSession).1⟩

theorem Since.later_discarded {start after : WorldState} (since : Since env start state)
    (discarded : Discarded env start state after) : Later state after := by
  refine Later.of_same (discarded.worldEpoch.trans since.worldEpoch.symm) discarded.clock.symm.le ?_
  rw [discarded.code]
  exact since.parentCode.symm

theorem Sound.discard {state : WorldState} (sound : config.Sound env)
    (ran : discardAttempt config.state.lifetime.transaction config.state = .ok () state) :
    ({ config with state } : Config).Sound env := by
  obtain ⟨running, -, closed⟩ := discards_closed ran
  obtain ⟨empty, start, inv, notActive, since⟩ :=
    sound.nested.begun_on running (shallow_of_closed closed)
  obtain ⟨found, discards, discarded⟩ := discardAttempt_run since inv notActive closed
  obtain rfl : found = state := by
    rw [discards] at ran
    cases ran
    rfl
  exact sound.accepted empty discarded.inv discarded.idle (Since.later_discarded since discarded)

theorem Sound.discardAccepted (sound : config.Sound env) (owned : env.Owned)
    (ran : WorldState.discardAccepted env config.state = .ok () state) :
    ({ config with state } : Config).Sound env := by
  obtain ⟨_, _, quiet, -⟩ := Action.bind_eq_ok.mp ran
  obtain ⟨notActive, -⟩ := Action.assert_eq_ok.mp quiet
  obtain ⟨empty, inv⟩ := sound.nested.accepted notActive
  obtain ⟨-, later, idle, clock, epoch, parentCode⟩ := discardAccepted_ran inv owned ran
  refine sound.accepted empty later idle ⟨?_, fun same => ?_, parentCode⟩
  · rw [epoch]
    exact Nat.le_succ _
  · rw [epoch] at same
    exact absurd same (Nat.ne_of_lt (Nat.lt_succ_self _))

/-! ### Snapshots -/

theorem Sound.record (sound : config.Sound env) (recalls : Recalls env taken.of config.state)
    (captures : taken.snapshot.resolved = false → taken.snapshot = taken.of.captured) :
    ({ config with snapshots := config.snapshots ++ [taken] } : Config).Sound env where
  nested := sound.nested
  recalls other member := by
    rcases List.mem_append.mp member with old | new
    · exact sound.recalls other old
    · obtain rfl := List.mem_singleton.mp new
      exact recalls
  captures other member := by
    rcases List.mem_append.mp member with old | new
    · exact sound.captures other old
    · obtain rfl := List.mem_singleton.mp new
      exact captures

theorem reserveEach_safe {scope : Generation} (count : Nat) :
    Safe (calls env strict base scope) (reserveEach env count) :=
  Safe.forEach (fun _ => reserve_safe) _

theorem branchSnapshot_keeps {scope : Generation} :
    Keeps (calls env strict base scope) (fun _ => True) (branchSnapshot env)
      fun snapshot after => snapshot = after.captured ∧ after.transactionActive = false := by
  unfold branchSnapshot
  have reserved : Keeps (calls env strict base scope)
      (fun self => self.transactionActive = false ∧ True) (reserveEach env 8)
      fun _ after => after.transactionActive = false ∧ True :=
    Keeps.carry (fun _ _ rel idle => rel.1.transactionActive.trans idle) (reserveEach_safe 8)
  refine Keeps.bind (Keeps.assert _) fun _ => Keeps.bind reserved fun _ => ?_
  exact (Keeps.read captured).weaken fun _ _ holds => ⟨holds.1, holds.2.1⟩

theorem cloneSnapshot_keeps {scope : Generation} (snapshot : BranchSnapshot) :
    Keeps (calls env strict base scope) (fun _ => True) (cloneSnapshot env snapshot)
      fun copy _ => copy = snapshot ∧ snapshot.resolved = false := by
  unfold cloneSnapshot
  have reserved : Keeps (calls env strict base scope)
      (fun _ => snapshot.resolved = false ∧ True) (reserveEach env 8)
      fun _ _ => snapshot.resolved = false ∧ True :=
    Keeps.carry (fun _ _ _ unresolved => unresolved) (reserveEach_safe 8)
  refine Keeps.bind (Keeps.assert _) fun _ => Keeps.bind reserved fun _ => ?_
  exact Keeps.returns fun _ _ holds => ⟨holds.1, holds.2.1⟩

theorem recorded_eq_some {of : WorldState → WorldState}
    {outcome : Outcome WorldState StateError BranchSnapshot}
    (ran : config.recorded of outcome = some after) :
    (∃ snapshot state, outcome = .ok snapshot state ∧ after = { config with
        state, snapshots := config.snapshots ++ [{ snapshot, of := of state }] }) ∨
      ∃ error state, outcome = .fail error state ∧ after = { config with state } := by
  cases outcome with
  | ok snapshot state => exact .inl ⟨snapshot, state, rfl, (Option.some.inj ran).symm⟩
  | fail error state => exact .inr ⟨error, state, rfl, (Option.some.inj ran).symm⟩
  | illegal => cases ran

theorem Sound.snapshot (sound : config.Sound env)
    (ran : config.recorded id (branchSnapshot env config.state) = some after) :
    after.Sound env := by
  have safe : ∀ base scope, Safe (calls env False base scope) (branchSnapshot env) :=
    fun base scope => branchSnapshot_keeps.safe
  rcases recorded_eq_some ran with ⟨snapshot, state, outcome, rfl⟩ | ⟨error, state, outcome, rfl⟩
  · have later := sound.called safe (.inl ⟨snapshot, outcome⟩)
    obtain ⟨base, scope, inv⟩ := sound.nested.inv rooted_outermost
    have allowed := (branchSnapshot_keeps : Keeps (calls env False base scope) _ _ _)
      config.state inv trivial
    rw [outcome] at allowed
    obtain ⟨-, -, captures, notActive⟩ := allowed
    obtain ⟨-, accepted⟩ := later.nested.accepted notActive
    exact later.record (Recalls.now accepted notActive) fun _ => captures
  · exact sound.called safe (.inr ⟨error, outcome⟩)

theorem Sound.cloneSnapshot {index : Nat} (sound : config.Sound env)
    (found : config.snapshots[index]? = some taken)
    (ran : config.recorded (fun _ => taken.of) (WorldState.cloneSnapshot env taken.snapshot
      config.state) = some after) :
    after.Sound env := by
  have safe : ∀ base scope,
      Safe (calls env False base scope) (WorldState.cloneSnapshot env taken.snapshot) :=
    fun base scope => (cloneSnapshot_keeps _).safe
  have member := List.mem_of_getElem? found
  rcases recorded_eq_some ran with ⟨snapshot, state, outcome, rfl⟩ | ⟨error, state, outcome, rfl⟩
  · have later := sound.called safe (.inl ⟨snapshot, outcome⟩)
    obtain ⟨base, scope, inv⟩ := sound.nested.inv rooted_outermost
    have allowed := (cloneSnapshot_keeps taken.snapshot : Keeps (calls env False base scope) _ _ _)
      config.state inv trivial
    rw [outcome] at allowed
    obtain ⟨-, -, rfl, unresolved⟩ := allowed
    exact later.record (later.recalls taken member) (later.captures taken member)
  · exact sound.called safe (.inr ⟨error, outcome⟩)

/-- What restoring a snapshot in place amounts to. -/
theorem Sound.restored {index : Nat} {taken : Taken} {left : BranchSnapshot} {state : WorldState}
    (sound : config.Sound env) (found : config.snapshots[index]? = some taken)
    (intact : Intact taken.of config.state)
    (ran : restoreBranch env taken.snapshot config.state = .ok left state) :
    left.resolved = true ∧ config.scopes = [] ∧ ∃ mid scope, Inv env 0 scope mid ∧
      mid.transactionActive = false ∧ taken.of.worldEpoch = mid.worldEpoch ∧
      Later config.state mid ∧ state = WorldState.restored taken.of mid := by
  have member := List.mem_of_getElem? found
  have recalls := sound.recalls taken member
  obtain ⟨_, _, epoch, rest⟩ := Action.bind_eq_ok.mp ran
  obtain ⟨sameEpoch, rfl⟩ := Action.assert_eq_ok.mp epoch
  obtain ⟨_, _, unresolved, rest⟩ := Action.bind_eq_ok.mp rest
  obtain ⟨isUnresolved, rfl⟩ := Action.assert_eq_ok.mp unresolved
  have captures := sound.captures taken member isUnresolved
  rw [captures] at ran sameEpoch
  cases active : config.state.transactionActive with
  | false =>
      obtain ⟨empty, inv⟩ := sound.nested.accepted active
      obtain ⟨resolved, rfl⟩ := restoreBranch_idle recalls inv active intact ran
      exact ⟨resolved, empty, config.state, _, inv, active, sameEpoch, Later.refl _, rfl⟩
  | true =>
      rw [Action.bind_run, Action.get_run] at rest
      dsimp only at rest
      obtain ⟨_, mid, discards, -⟩ := Action.bind_eq_ok.mp rest
      rw [Action.when, if_pos active] at discards
      obtain ⟨running, -, closed⟩ := discards_closed discards
      obtain ⟨empty, start, inv, notActive, since⟩ :=
        sound.nested.begun_on running (shallow_of_closed closed)
      obtain ⟨resolved, last, discarded, rfl⟩ :=
        restoreBranch_active recalls since inv notActive intact ran
      have later := Since.later_discarded since discarded
      refine ⟨resolved, empty, last, _, discarded.inv, discarded.idle, ?_, later, rfl⟩
      rw [discarded.worldEpoch, ← since.worldEpoch]
      exact sameEpoch

theorem Sound.restore {index : Nat} {left : BranchSnapshot} (sound : config.Sound env)
    (found : config.snapshots[index]? = some taken) (intact : Intact taken.of config.state)
    (ran : restoreBranch env taken.snapshot config.state = .ok left state) : ({ config with
      state, snapshots := config.snapshots.set index { taken with snapshot := left } } :
        Config).Sound env := by
  have member := List.mem_of_getElem? found
  have recalls := sound.recalls taken member
  obtain ⟨resolved, empty, mid, scope, inv, notActive, sameEpoch, later, rfl⟩ :=
    sound.restored found intact ran
  have midRecalls := recalls.later later
  have after : ({ config with state := WorldState.restored taken.of mid } : Config).Sound env := by
    refine sound.accepted empty (restored_inv midRecalls sameEpoch inv notActive) notActive ?_
    exact ⟨later.epoch, later.clock, recalls.parentCode.symm⟩
  have old : ∀ other ∈ config.snapshots.set index { taken with snapshot := left },
      other ∈ config.snapshots ∨ other = { taken with snapshot := left } :=
    fun other listed => List.mem_or_eq_of_mem_set listed
  refine ⟨after.nested, fun other listed => ?_, fun other listed => ?_⟩
  · rcases old other listed with kept | rfl
    · exact after.recalls other kept
    · exact after.recalls taken member
  · rcases old other listed with kept | rfl
    · exact after.captures other kept
    · intro unresolved
      rw [resolved] at unresolved
      cases unresolved

/-! ## Runs -/

/-- Every move keeps a sound configuration sound. -/
theorem Sound.step {move : Move} (sound : config.Sound env) (owned : env.Owned)
    (inPlace : config.InPlace move) (ran : config.step env move = some after) :
    after.Sound env := by
  replace ran := step_moved ran
  cases ran with
  | call ends => exact sound.called (fun base scope => Op.run_safe _ False.elim) ends
  | checkpoint ran => exact sound.checkpoint ran
  | committed stack ran => exact sound.closed stack (.inl ran)
  | reverted stack ran => exact sound.closed stack (.inr ran)
  | begun ran => exact sound.begin ran
  | openSession ran => exact sound.openSession ran
  | closeSession ran => exact sound.closeSession ran
  | sealed ran => exact sound.seal ran
  | retained ran => exact sound.retain ran
  | discarded ran => exact sound.discard ran
  | startedOver ran => exact sound.discardAccepted owned ran
  | captured ran => exact sound.snapshot ran
  | cloned found ran => exact sound.cloneSnapshot found ran
  | restored found ran => exact sound.restore found (inPlace _ found) ran

/-- So does every faithful run. -/
theorem Sound.exec {moves : List Move} (sound : config.Sound env) (owned : env.Owned)
    (faithful : config.Faithful env moves) (ran : config.exec env moves = some after) :
    after.Sound env := by
  induction moves generalizing config with
  | nil =>
      obtain rfl := Option.some.inj ran
      exact sound
  | cons move moves ih =>
      obtain ⟨next, stepped, rest⟩ := Option.bind_eq_some_iff.mp ran
      exact ih (sound.step owned faithful.1 stepped) (faithful.2 next stepped) rest

theorem exec_sound {genesis : Genesis} {moves : List Move}
    (faithful : (init genesis).Faithful genesis.env moves)
    (ran : (init genesis).exec genesis.env moves = some after) : after.Sound genesis.env :=
  (init_sound genesis).exec genesis.owned faithful ran

end Config

end EvmZig.State
