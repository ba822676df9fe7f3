import EvmZig.State.Scripts
import EvmZig.State.Exactness

/-!
# What a call leaves behind

Whether it returns or fails, a call leaves a sequence of changes; lifecycle
finalisation leaves those made under its checkpoint, committed or reverted.
-/

set_option autoImplicit false

namespace EvmZig.State

open Lib Zig

namespace WorldState

variable {env : Env} {licence : Licence} {self after : WorldState} {α : Type}

/-- What a call on anything but transient storage leaves behind. -/
inductive Called (env : Env) (licence : Licence) (self : WorldState) : WorldState → Prop
  | changed {after : WorldState} (steps : Changed env licence self after) : Called env licence self after
  | settled {inner after : WorldState} (final : licence = .finalization) (running : Running self)
      (steps : Assigned env .finalization (opened self) inner)
      (closes : commitCheckpoint (mark self) inner = .ok () after) : Called env licence self after
  | abandoned {inner after : WorldState} (final : licence = .finalization) (running : Running self)
      (steps : Assigned env .finalization (opened self) inner)
      (closes : revertToCheckpoint (mark self) inner = .ok () after) : Called env licence self after

/-- What lifecycle finalisation leaves behind. -/
inductive Finalized (env : Env) (self : WorldState) : WorldState → Prop
  | nothing : Finalized env self self
  | settled {inner after : WorldState} (running : Running self)
      (steps : Assigned env .finalization (opened self) inner)
      (closes : commitCheckpoint (mark self) inner = .ok () after) : Finalized env self after
  | abandoned {inner after : WorldState} (running : Running self)
      (steps : Assigned env .finalization (opened self) inner)
      (closes : revertToCheckpoint (mark self) inner = .ok () after) : Finalized env self after

theorem Finalized.called (finalized : Finalized env self after) :
    Called env .finalization self after := by
  cases finalized with
  | nothing => exact .changed .refl
  | settled running steps closes => exact .settled rfl running steps closes
  | abandoned running steps closes => exact .abandoned rfl running steps closes

theorem ends_of_safe {discipline : Discipline WorldState} {body : Method α}
    (safe : Safe discipline body) (invariant : discipline.inv self)
    (ends : Nested.EndsIn (body self) after) : discipline.rel self after := by
  have ran := safe self invariant trivial
  rcases ends with ⟨value, outcome⟩ | ⟨error, outcome⟩
  · rw [outcome] at ran
    exact ran.2.1
  · rw [outcome] at ran
    exact ran.2

/-- What finalisation went through, where it returned. -/
theorem finalizeLifecycle_ok {rules : FinalizationRules}
    (ran : finalizeLifecycle env rules self = .ok () after) :
    Running self ∧ ((self.lifecycleAccounts = [] ∧ after = self) ∨ ∃ inner,
      Action.forEach (finalizeAccount env rules) self.lifecycleAccounts (opened self) = .ok () inner ∧
        commitCheckpoint (mark self) inner = .ok () after) := by
  unfold finalizeLifecycle at ran
  rw [Action.bind_run] at ran
  rcases assertSession_run self with stuck | ⟨running, passes⟩
  · rw [stuck] at ran
    cases ran
  · rw [passes] at ran
    dsimp only at ran
    rw [Action.bind_run, Action.read_run] at ran
    dsimp only at ran
    split at ran
    · rename_i empty
      cases ran
      exact ⟨running, .inl ⟨empty, rfl⟩⟩
    · unfold underCheckpoint at ran
      rw [Action.bind_run] at ran
      rcases checkpoint_run self with stuck | ⟨-, session, opens⟩
      · rw [stuck] at ran
        cases ran
      · rw [opens] at ran
        dsimp only at ran
        obtain ⟨⟨⟩, inner, loop, commits⟩ := closing_eq_ok.mp ran
        exact ⟨running, .inr ⟨inner, loop, commits⟩⟩

/-- Where it failed, it has taken back what it did. -/
theorem finalizeLifecycle_error {rules : FinalizationRules} {error : StateError}
    (ran : finalizeLifecycle env rules self = .fail error after) :
    Running self ∧ ∃ inner,
      Action.forEach (finalizeAccount env rules) self.lifecycleAccounts (opened self) =
        .fail error inner ∧ revertToCheckpoint (mark self) inner = .ok () after := by
  unfold finalizeLifecycle at ran
  rw [Action.bind_run] at ran
  rcases assertSession_run self with stuck | ⟨running, passes⟩
  · rw [stuck] at ran
    cases ran
  · rw [passes] at ran
    dsimp only at ran
    rw [Action.bind_run, Action.read_run] at ran
    dsimp only at ran
    split at ran
    · cases ran
    · unfold underCheckpoint at ran
      rw [Action.bind_run] at ran
      rcases checkpoint_run self with stuck | ⟨-, session, opens⟩
      · rw [stuck] at ran
        cases ran
      · rw [opens] at ran
        rcases closing_eq_fail ran with ⟨inner, loop, reverts⟩ | ⟨inner, -, commits⟩
        · exact ⟨running, inner, loop, reverts⟩
        · rcases commitCheckpoint_run (mark self) inner with stuck | done
          · rw [stuck] at commits
            cases commits
          · rw [done] at commits
            cases commits

theorem finalizeLifecycle_finalized {rules : FinalizationRules}
    (ends : Nested.EndsIn (finalizeLifecycle env rules self) after) : Finalized env self after := by
  rcases ends with ⟨_, ran⟩ | ⟨_, ran⟩
  · obtain ⟨running, ⟨-, rfl⟩ | ⟨inner, loop, commits⟩⟩ := finalizeLifecycle_ok ran
    · exact .nothing
    · have steps := @finalizeAccounts_assigned env rules self.lifecycleAccounts (opened self) trivial
        running
      rw [loop] at steps
      exact .settled running steps.2.1 commits
  · obtain ⟨running, inner, loop, reverts⟩ := finalizeLifecycle_error ran
    have steps := @finalizeAccounts_assigned env rules self.lifecycleAccounts (opened self) trivial
      running
    rw [loop] at steps
    exact .abandoned running steps.2 reverts

/-- The calls that write transient storage. -/
def Op.writesTransient : Op → Bool
  | .setTransientStorage _ _ _ => true
  | .clearTransientStorage => true
  | _ => false

theorem Op.run_called {op : Op} (aside : op.writesTransient = false)
    (ends : Nested.EndsIn (op.run env self) after) : Called env op.licence self after := by
  cases op with
  | setTransientStorage address slot value => cases aside
  | clearTransientStorage => cases aside
  | finalizeLifecycle rules => exact (finalizeLifecycle_finalized ends).called
  | _ =>
      refine .changed (ends_of_safe (Op.run_changes _ ?_) trivial ends)
      trivial

end WorldState

end EvmZig.State
