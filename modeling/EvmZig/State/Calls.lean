import EvmZig.State.Scripts

/-!
# The calls keep the discipline

Each change of a call keeps the discipline, except for those that put code ahead
of the journal or clear the logs.  So do the calls made of such changes.
-/

set_option autoImplicit false

namespace EvmZig.State

open Lib Zig

namespace WorldState

variable {env : Env} {strict : Prop} {base : Nat} {scope : Generation} {licence : Licence}
  {self after : WorldState} {α : Type} {pre : WorldState → Prop} {post : α → WorldState → Prop}
  {body : Method α}

/-! ## One change -/

/-- The state is still as the discipline has it, and follows the one before. -/
def Kept (env : Env) (strict : Prop) (base : Nat) (scope : Generation) (before after : WorldState) :
    Prop :=
  Inv env base scope after ∧ (calls env strict base scope).rel before after

theorem Kept.of_run {value : α} (kept : Keeps (calls env strict base scope) pre body post)
    (inv : Inv env base scope self) (holds : pre self) (ran : body self = .ok value after) :
    Kept env strict base scope self after := by
  have allowed := kept self inv holds
  rw [ran] at allowed
  exact ⟨allowed.1, allowed.2.1⟩

theorem Light.kept {entries : List Entry} (light : Light env strict self after entries)
    (inv : Inv env base scope self) (running : Running self) :
    Kept env strict base scope self after :=
  (light.mutation inv running).step inv running

theorem appendAccountUndo_run {id : AccountId} {row : AccountRow} {observed : AccountObservationRow}
    (held : self.world.accounts.row id = some row)
    (found : self.observedAccounts[row.observation.index]? = some observed) :
    appendAccountUndo id self = .ok () ((self.push (.account (accountUndo id row
      observed.effect))).updateAccount id fun row =>
        { row with journaledScope := self.lifetime.scope }) := by
  rw [appendAccountUndo, Action.bind_run, accountRow_run held]
  dsimp only
  rw [Action.bind_run, accountObservation_run held found]
  rfl

/-- Values are assigned to a prepared row, and to the effect of its record. -/
theorem Assignable.kept {id : AccountId} {row : AccountRow} {observed : AccountObservationRow}
    {update : AccountRow → AccountRow} (assignable : Assignable self id row)
    (assigns : AssignsValues update) (effect : AccountEffect → AccountEffect)
    (inv : Inv env base scope self)
    (found : self.observedAccounts[row.observation.index]? = some observed) :
    Kept env strict base scope self
      (setAccountEffect row.observation.index effect (self.updateAccount id update)) := by
  have both := Keeps.bind (@assignAccount_keeps env strict base scope id update assigns)
    fun _ => updateAccountEffect_keeps id effect
  rw [← assigns.observation row] at found ⊢
  exact .of_run both inv assignable.prepared
    (updateAccountEffect_run (assignable.assigned assigns).held found effect)

theorem commitWrite_keeps (resolved : ResolvedStorage) (account : AccountRow) (row : StorageRow)
    (lifetime : Lifetimes) (current : row.observation.transaction = lifetime.transaction)
    (value : U256) :
    Keeps (calls env strict base scope) (HoldsSlot resolved account row lifetime)
      (commitWrite resolved account row lifetime value) fun _ _ => True := by
  refine Keeps.bind (journalSlot_keeps resolved account row lifetime current) fun _ => ?_
  rintro self inv ⟨row', holds, journaled, flags, observation⟩
  have first : decide (row.flags.blockDirty = false) = true ↔ row'.flags.blockDirty = false := by
    rw [flags]
    exact decide_eq_true_iff
  exact writeJournaled_keeps resolved account row' lifetime ((congrArg _ observation).trans current)
    journaled decide_eq_true_iff first _ value self inv holds

theorem Assignment.kept (step : Assignment env licence self after) (ordinary : ¬licence.Introduces)
    (inv : Inv env base scope self) : Kept env strict base scope self after := by
  have assigned : ∀ {id : AccountId} {row : AccountRow} {update : AccountRow → AccountRow},
      Assignable self id row → AssignsValues update →
      Kept env strict base scope self (self.updateAccount id update) :=
    fun assignable assigns => .of_run (assignAccount_keeps _ assigns) inv assignable.prepared rfl
  cases step with
  | asked requests => exact (quiet_requests self requests).step strict inv
  | cachedCode codeHash bytes => exact (quiet_cacheCode self codeHash bytes).step strict inv
  | stored code introduces => exact absurd introduces ordinary
  | introduced running introduced introduces => exact absurd introduces ordinary
  | cleared logs retainedLogs introduces => exact absurd introduces ordinary
  | admittedAccount address fresh =>
      exact (quiet_admitAccount self address fresh inv.stamps).step strict inv
  | admittedSlot owner fresh => exact (quiet_admitStorage self _ owner fresh).step strict inv
  | boundCode id ref =>
      exact (quiet_updateAccount self id (fun row => { row with codeRef := ref })
        (fun _ => ⟨rfl, rfl, rfl, rfl⟩) inv.stamps).step strict inv
  | mergedAccount index observation =>
      exact (quiet_mergeAccountObservation self index observation).step strict inv
  | mergedSlot index observation =>
      exact (quiet_mergeStorageObservation self index observation).step strict inv
  | observedAccount held running first observation =>
      have active := inv.active running
      exact (quiet_recordAccountObservation self _ _ observation held first active.transaction
        active.transactionPast active.handles inv.stamps).step strict inv
  | observedSlot held running first accepted observation =>
      have active := inv.active running
      exact (quiet_recordStorageObservation self _ _ _ observation held first active.transaction
        active.transactionPast active.handles inv.stamps).step strict inv
  | journaled held running current found =>
      exact .of_run (appendAccountUndo_keeps _ _ self.lifetime current) inv ⟨held, running, rfl⟩
        (appendAccountUndo_run held found)
  | blockChanged held running journaled first =>
      exact .of_run (markBlockChanged_keeps _ _ self.lifetime journaled first) inv
        ⟨held, running, rfl⟩ rfl
  | transactionDirty held running current journaled changed =>
      exact .of_run (markTransactionDirty_keeps _ _ self.lifetime journaled changed) inv
        ⟨held, running, rfl⟩ rfl
  | wrote assignable found => exact assignable.kept (fun _ => by rfl) _ inv found
  | created assignable found => exact assignable.kept (fun _ => by rfl) _ inv found
  | selfdestructed assignable found => exact assignable.kept (fun _ => by rfl) _ inv found
  | touched assignable => exact assigned assignable fun _ => by rfl
  | settledCreation final assignable => exact assigned assignable fun _ => by rfl
  | settledDestruction final assignable => exact assigned assignable fun _ => by rfl
  | wipeRecorded final assignable found =>
      exact .of_run (updateAccountEffect_keeps _ _) inv assignable.prepared
        (updateAccountEffect_run assignable.held found _)
  | wiped assignable =>
      exact .of_run (markStorageWiped_keeps _ _ self.lifetime assignable.ready _ decide_eq_true_iff
        decide_eq_true_iff) inv ⟨assignable.held, assignable.running, rfl⟩ rfl
  | enlisted assignable =>
      have listed : ∀ transaction id, Keeps (calls env strict base scope) (Prepared id) (do
          Action.modify (updateAccount id fun row => { row with lifecycleTransaction := transaction })
          Action.modify fun self => { self with
            lifecycleAccounts := self.lifecycleAccounts ++ [id] } : Method Unit) fun _ _ => True :=
        fun transaction id => Keeps.bind (assignAccount_keeps id fun _ => by rfl) fun _ =>
          Quiet.keeps (fun self _ prepared => quiet_lifecycleAccounts self prepared.running _)
            fun _ _ => trivial
      exact .of_run (listed _ _) inv assignable.prepared rfl
  | @cachedOriginal resolved account row =>
      exact (quiet_updateStorage self resolved.storage (fun slot => { slot with
        executionOriginal := effectiveValue account row
        executionOriginalRoot := self.lifetime.root }) (fun _ => ⟨rfl, rfl, rfl⟩) inv.stamps).step
        strict inv
  | wroteSlot storable found value =>
      exact .of_run (commitWrite_keeps _ _ _ self.lifetime storable.observed value) inv
        ⟨storable.accountHeld, storable.owned, storable.slotHeld, storable.running, rfl⟩
        (commitWrite_run storable.slotHeld found value)
  | logged running log =>
      exact (light_unjournaled self.transientStorage _ (fun _ => rfl)
        fun _ => LogBuffer.extends_append self.logs log).kept inv running

theorem Change.kept (step : Change env licence self after) (ordinary : ¬licence.Introduces)
    (inv : Inv env base scope self) : Kept env strict base scope self after := by
  cases step with
  | assigned step => exact step.kept ordinary inv
  | warmedAccount held running cold => exact (light_warmAccount running inv held cold).kept inv running
  | warmedSlot held running cold => exact (light_warmStorage running inv held cold).kept inv running
  | deferredAccount grows running cold found =>
      exact (deferAccount_step cold found).light.kept inv running
  | deferredSlot grows running cold found => exact (deferStorage_step cold found).light.kept inv running

theorem Changed.kept (steps : Changed env licence self after) (ordinary : ¬licence.Introduces)
    (inv : Inv env base scope self) : Kept env strict base scope self after := by
  induction steps with
  | refl => exact ⟨inv, (calls env strict base scope).refl inv⟩
  | tail _ step ih =>
      have stepped := @Change.kept env strict base scope licence _ _ step ordinary ih.1
      exact ⟨stepped.1, (calls env strict base scope).trans ih.2 stepped.2⟩

/-! ## The calls -/

theorem calls_of_changes (ordinary : ¬licence.Introduces)
    (kept : Keeps (changes env licence) pre body post) :
    Keeps (calls env strict base scope) pre body post :=
  kept.relate (fun _ _ => trivial) fun _ _ inv _ steps => Changed.kept steps ordinary inv

theorem calls_of_assignments (ordinary : ¬licence.Introduces)
    (kept : Keeps (assignments env licence) pre body post) :
    Keeps (calls env strict base scope) pre body post :=
  calls_of_changes ordinary (changes_of_assignments kept)

theorem calls_of_call (kept : Keeps (assignments env .call) pre body post) :
    Keeps (calls env strict base scope) pre body post :=
  @calls_of_assignments env strict base scope .call _ _ _ _ (fun introduces => introduces) kept

theorem reserve_keeps (ignores : IgnoresRequests pre) :
    Keeps (calls env strict base scope) pre (reserve env) fun _ => pre :=
  calls_of_call (reserve_assigned ignores)

theorem reserve_safe : Safe (calls env strict base scope) (reserve env) :=
  reserve_keeps fun _ _ holds => holds

theorem finalizeAccount_keeps (rules : FinalizationRules) (id : AccountId) :
    Keeps (calls env strict base scope) Running (finalizeAccount env rules id) fun _ => Running :=
  (@calls_of_assignments env strict base scope .finalization _ _ _ _
    (fun introduces => introduces)
    (keeps_run (finalizeAccount_assigned rules id))).imp (fun _ running => ⟨running, running⟩)
    fun _ _ holds => holds.1

/-! ## Transient storage and logs -/

theorem setTransientStorage_safe (address : Address) (slot value : U256) :
    Safe (calls env strict base scope) (setTransientStorage env address slot value) := by
  intro self inv _
  have ran := @setTransientStorage_run env address slot value self
  generalize setTransientStorage env address slot value self = outcome at ran
  have askedKept : ∀ requests, Kept env strict base scope self (asked requests self) :=
    fun requests => (quiet_requests self requests).step strict inv
  cases ran with
  | illegal => trivial
  | same => exact ⟨inv, (calls env strict base scope).refl inv, trivial⟩
  | refused running error requests => exact askedKept requests
  | wrote running changes requests =>
      have put : Kept env strict base scope (asked requests self) _ :=
        (setTransient_step ⟨address, slot⟩ value).light.kept (askedKept requests).1 running
      exact ⟨put.1, (calls env strict base scope).trans (askedKept requests).2 put.2, trivial⟩

theorem clearTransientStorage_safe (loose : ¬strict) :
    Safe (calls env strict base scope) clearTransientStorage := by
  intro self inv _
  rcases clearTransientStorage_run self with stuck | ⟨running, ran⟩
  · rw [stuck]
    trivial
  · rw [ran]
    have kept := (light_unjournaled Table.empty self.logs (fun strictly => absurd strictly loose)
      fun strictly => absurd strictly loose).kept inv running
    exact ⟨kept.1, kept.2, trivial⟩

theorem quiet_retainedLogs (self : WorldState) (retainedLogs : LogBuffer) :
    Quiet env self { self with retainedLogs } where
  grows := Grows.of_world rfl rfl rfl
  view := view_congr rfl rfl rfl rfl (fun _ => rfl) fun _ _ => rfl
  handles _ held := ⟨held.account, held.storage⟩
  stamps := RowStamps.of_world rfl (Nat.le_refl _)
  codeCache := List.prefix_refl _
  lifecycle _ := rfl
  rest := rfl

theorem clearLogs_safe (loose : ¬strict) : Safe (calls env strict base scope) clearLogs := by
  apply Keeps.modify
  intro self inv _
  split
  · rename_i running
    have kept := (light_unjournaled self.transientStorage {} (fun _ => rfl)
      fun strictly => absurd strictly loose).kept inv running
    exact ⟨kept.1, kept.2, trivial⟩
  · have stepped := (@quiet_retainedLogs env self {}).step strict inv
    exact ⟨stepped.1, stepped.2, trivial⟩

end WorldState

end EvmZig.State
