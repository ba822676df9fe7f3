import EvmZig.State.Called

/-!
# What each move does

One case for each way a move can succeed, with what its assertions establish.
None of it supposes that restored snapshots are in place.
-/

set_option autoImplicit false

namespace EvmZig.State

open Lib Zig

/-- Entries that restore rows, their flags and the code they were given. -/
def Entry.OfRow : Entry → Prop
  | .account _ => True
  | .storage _ => True
  | .accountStorageDirty _ => True
  | .introducedCode => True
  | _ => False

def Entry.OfTransient : Entry → Prop
  | .transientStorage _ _ => True
  | _ => False

namespace WorldState

variable {env : Env} {licence : Licence} {self after : WorldState} {entry : Entry}
  {count length : Nat} {kind : Entry → Prop} {held : Checkpoint}

/-! ## Unwinding -/

/-- What undoing an entry assigns. -/
inductive Undone (self : WorldState) : Entry → WorldState → Prop
  | account {undo : AccountUndo} {row : AccountRow}
      (held : self.world.accounts.row undo.account = some row) :
      Undone self (.account undo) (setAccountEffect row.observation.index (fun _ => undo.effect)
        (self.updateAccount undo.account fun row =>
          { row with
            current := undo.current
            codeRef := undo.codeRef
            flags := undo.flags
            journaledScope := undo.journaledScope
            storageIncarnation := undo.storageIncarnation
            wipedTransaction := undo.wipedTransaction
            dirtyTransaction := undo.dirtyTransaction }))
  | storage (undo : StorageUndo) (index : Nat) :
      Undone self (.storage undo) (setStorageEffect index (fun _ => undo.effect)
        (self.updateStorage undo.storage fun row =>
          { row with
            current := undo.current
            flags := undo.flags
            journaledScope := undo.journaledScope
            storageIncarnation := undo.storageIncarnation
            transactionUndo := undo.transactionUndo }))
  | accountStorageDirty (id : AccountId) :
      Undone self (.accountStorageDirty id) (self.updateAccount id fun row =>
        { row with flags := { row.flags with storageDirty := false } })
  | warmAccount (id : AccountId) :
      Undone self (.warmAccount id) (self.updateAccount id fun row => { row with warmTransaction := 0 })
  | warmStorage (id : StorageId) :
      Undone self (.warmStorage id) (self.updateStorage id fun row => { row with warmTransaction := 0 })
  | deferredWarmAccount (entry : Nat) :
      Undone self (.deferredWarmAccount entry)
        { self with deferredWarmth := { self.deferredWarmth with
            accounts := self.deferredWarmth.accounts.set entry false } }
  | deferredWarmStorage (entry : Nat) :
      Undone self (.deferredWarmStorage entry)
        { self with deferredWarmth := { self.deferredWarmth with
            storage := self.deferredWarmth.storage.set entry false } }
  | transientStorage (key : TransientKey) (previous : U256) :
      Undone self (.transientStorage key previous)
        { self with transientStorage := self.transientStorage.put key previous }
  | introducedCode (blockId : Nat) :
      Undone self .introducedCode
        { self with
          blockIntroducedCodes := self.blockIntroducedCodes.dropLast
          code := self.code.truncateIntroduced blockId }

theorem undoEntry_ran (ran : undoEntry entry self = .ok () after) : Undone self entry after := by
  cases entry with
  | account undo =>
      obtain ⟨_, _, wrote, rest⟩ := Action.bind_eq_ok.mp ran
      cases wrote
      obtain ⟨assigned, _, looked, rest⟩ := Action.bind_eq_ok.mp rest
      obtain ⟨found, rfl⟩ := accountRow_eq_ok.mp looked
      obtain ⟨_, _, record, rest⟩ := Action.bind_eq_ok.mp rest
      obtain rfl := (accountObservation_looks _).eq_of_ok record
      cases rest
      obtain ⟨row, held, same⟩ := row_of_updateAccount found
      have observation : assigned.observation = row.observation := by
        rcases same with rfl | rfl <;> rfl
      rw [observation]
      exact .account held
  | storage undo =>
      obtain ⟨_, _, wrote, rest⟩ := Action.bind_eq_ok.mp ran
      cases wrote
      obtain ⟨row, _, looked, rest⟩ := Action.bind_eq_ok.mp rest
      obtain rfl := (storageRow_looks _).eq_of_ok looked
      obtain ⟨_, _, record, rest⟩ := Action.bind_eq_ok.mp rest
      obtain rfl := (storageObservation_looks _).eq_of_ok record
      cases rest
      exact .storage undo row.observation.index
  | accountStorageDirty id =>
      obtain ⟨_, _, looked, rest⟩ := Action.bind_eq_ok.mp ran
      obtain ⟨-, rfl⟩ := accountRow_eq_ok.mp looked
      cases rest
      exact .accountStorageDirty id
  | warmAccount id =>
      obtain ⟨_, _, looked, rest⟩ := Action.bind_eq_ok.mp ran
      obtain ⟨-, rfl⟩ := accountRow_eq_ok.mp looked
      cases rest
      exact .warmAccount id
  | warmStorage id =>
      obtain ⟨_, _, looked, rest⟩ := Action.bind_eq_ok.mp ran
      obtain rfl := (storageRow_looks _).eq_of_ok looked
      cases rest
      exact .warmStorage id
  | deferredWarmAccount place =>
      obtain ⟨_, _, asserted, rest⟩ := Action.bind_eq_ok.mp ran
      obtain ⟨-, rfl⟩ := Action.assert_eq_ok.mp asserted
      cases rest
      exact .deferredWarmAccount place
  | deferredWarmStorage place =>
      obtain ⟨_, _, asserted, rest⟩ := Action.bind_eq_ok.mp ran
      obtain ⟨-, rfl⟩ := Action.assert_eq_ok.mp asserted
      cases rest
      exact .deferredWarmStorage place
  | transientStorage key previous =>
      cases ran
      exact .transientStorage key previous
  | introducedCode =>
      unfold undoEntry at ran
      dsimp only at ran
      rw [Action.bind_run, Action.get_run] at ran
      dsimp only at ran
      cases last : self.blockIntroducedCodes.getLast? with
      | none =>
          rw [last] at ran
          cases ran
      | some blockId =>
          rw [last] at ran
          obtain ⟨_, _, asserted, rest⟩ := Action.bind_eq_ok.mp ran
          obtain ⟨-, rfl⟩ := Action.assert_eq_ok.mp asserted
          cases rest
          exact .introducedCode blockId

theorem Undone.journal (undone : Undone self entry after) : after.journal = self.journal := by
  cases undone <;> rfl

theorem Undone.control (undone : Undone self entry after) : SameControl self after := by
  cases undone <;> exact rfl

theorem popEntries_succ (ran : popEntries (count + 1) self = .ok () after) :
    ∃ entry older middle, self.journal = entry :: older ∧
      undoEntry entry { self with journal := older } = .ok () middle ∧
      popEntries count middle = .ok () after := by
  unfold popEntries at ran
  rw [Action.bind_run, Action.get_run] at ran
  dsimp only at ran
  cases journal : self.journal with
  | nil =>
      rw [journal] at ran
      cases ran
  | cons entry older =>
      rw [journal] at ran
      dsimp only at ran
      rw [Action.bind_run, Action.modify_run] at ran
      dsimp only at ran
      obtain ⟨_, middle, undone, rest⟩ := Action.bind_eq_ok.mp ran
      exact ⟨entry, older, middle, rfl, undone, rest⟩

/-- What undoing each entry keeps, popping any number of them keeps. -/
theorem popEntries_induct {motive : WorldState → Prop}
    (step : ∀ state entry older after, state.journal = entry :: older → motive state →
      undoEntry entry { state with journal := older } = .ok () after → motive after)
    (ran : popEntries count self = .ok () after) (start : motive self) : motive after := by
  induction count generalizing self with
  | zero =>
      cases ran
      exact start
  | succ count ih =>
      obtain ⟨entry, older, middle, journal, undone, rest⟩ := popEntries_succ ran
      exact ih rest (step self entry older middle journal start undone)

theorem popEntries_control (ran : popEntries count self = .ok () after) :
    SameControl self after := by
  refine popEntries_induct (motive := fun state => SameControl self state) ?_ ran rfl
  intro state entry older later _ same undone
  exact same.trans (undoEntry_ran undone).control

theorem popEntries_journal (ran : popEntries count self = .ok () after) :
    after.journal = self.journal.drop count := by
  induction count generalizing self with
  | zero =>
      cases ran
      rfl
  | succ count ih =>
      obtain ⟨entry, older, middle, journal, undone, rest⟩ := popEntries_succ ran
      rw [ih rest, (undoEntry_ran undone).journal, journal]
      rfl

/-- The entries above `length`, newest first. -/
def above (journal : Journal) (length : Nat) : Journal := journal.take (journal.length - length)

def below (journal : Journal) (length : Nat) : Journal := journal.drop (journal.length - length)

theorem above_append_below (journal : Journal) (length : Nat) :
    above journal length ++ below journal length = journal :=
  List.take_append_drop _ _

theorem revertJournalTo_control (ran : revertJournalTo length self = .ok () after) :
    SameControl self after := popEntries_control ran

theorem revertJournalTo_journal (ran : revertJournalTo length self = .ok () after) :
    after.journal = below self.journal length := popEntries_journal ran

theorem above_push {newer journal : Journal} (inside : length ≤ journal.length) :
    above (newer ++ journal) length = newer ++ above journal length := by
  rw [above, above, List.length_append, Nat.add_sub_assoc inside, List.take_length_add_append]

theorem below_push {newer journal : Journal} (inside : length ≤ journal.length) :
    below (newer ++ journal) length = below journal length := by
  rw [below, below, List.length_append, Nat.add_sub_assoc inside, List.drop_length_add_append]

theorem below_self (journal : Journal) : below journal journal.length = journal := by
  rw [below, Nat.sub_self, List.drop_zero]

theorem above_self (journal : Journal) : above journal journal.length = [] := by
  rw [above, Nat.sub_self, List.take_zero]

/-! ## The journal of a call -/

/-- A step that only adds entries of some kind, and none between attempts. -/
structure Pushes (kind : Entry → Prop) (before after : WorldState) : Prop where
  journal : ∃ newer, after.journal = newer ++ before.journal ∧ (∀ entry ∈ newer, kind entry) ∧
    (before.transactionActive = false → newer = [])
  transient : after.transientStorage = before.transientStorage
  active : after.transactionActive = before.transactionActive
  scopeDepth : after.scopeDepth = before.scopeDepth
  transaction : after.lifetime.transaction = before.lifetime.transaction

namespace Pushes

variable {kind : Entry → Prop} {last : WorldState}

theorem refl (self : WorldState) : Pushes kind self self :=
  ⟨⟨[], rfl, fun _ member => (nomatch member), fun _ => rfl⟩, rfl, rfl, rfl, rfl⟩

theorem trans (first : Pushes kind self after) (second : Pushes kind after last) :
    Pushes kind self last := by
  obtain ⟨newer, journal, kinds, idle⟩ := first.journal
  obtain ⟨newest, journal', kinds', idle'⟩ := second.journal
  refine ⟨⟨newest ++ newer, ?_, ?_, ?_⟩, second.transient.trans first.transient,
    second.active.trans first.active, second.scopeDepth.trans first.scopeDepth,
    second.transaction.trans first.transaction⟩
  · rw [journal', journal, List.append_assoc]
  · intro entry member
    rcases List.mem_append.mp member with late | early
    · exact kinds' entry late
    · exact kinds entry early
  · intro notActive
    rw [idle notActive, idle' (first.active.trans notActive)]
    rfl

theorem weaken {wider : Entry → Prop} (pushes : Pushes kind self after)
    (within : ∀ entry, kind entry → wider entry) : Pushes wider self after := by
  obtain ⟨newer, journal, kinds, idle⟩ := pushes.journal
  exact ⟨⟨newer, journal, fun entry member => within entry (kinds entry member), idle⟩,
    pushes.transient, pushes.active, pushes.scopeDepth, pushes.transaction⟩

end Pushes

theorem SameControl.pushes (same : SameControl self after) (newer : Journal)
    (journal : after.journal = newer ++ self.journal) (kinds : ∀ entry ∈ newer, kind entry)
    (idle : self.transactionActive = false → newer = [])
    (transient : after.transientStorage = self.transientStorage) : Pushes kind self after :=
  ⟨⟨newer, journal, kinds, idle⟩, transient, same.transactionActive, same.scopeDepth,
    congrArg Lifetimes.transaction same.lifetime⟩

/-- A step that leaves the journal alone. -/
theorem SameControl.pushesNothing (same : SameControl self after)
    (journal : after.journal = self.journal)
    (transient : after.transientStorage = self.transientStorage) : Pushes kind self after :=
  same.pushes [] journal (fun _ member => nomatch member) (fun _ => rfl) transient

theorem SameControl.pushesOne (same : SameControl self after) (running : Running self)
    (journal : after.journal = entry :: self.journal) (allowed : kind entry)
    (transient : after.transientStorage = self.transientStorage) : Pushes kind self after := by
  refine same.pushes [entry] journal ?_ ?_ transient
  · intro other member
    obtain rfl := List.mem_singleton.mp member
    exact allowed
  · intro notActive
    rw [Running, notActive] at running
    cases running

theorem storeSlot_pushes {resolved : ResolvedStorage} {account : AccountRow} {row : StorageRow}
    (running : Running self) (effect : StorageEffect) (value : U256) :
    Pushes Entry.OfRow self (storeSlot resolved account row effect value self) := by
  unfold storeSlot journalSlotFirst markStorageDirty
  have twice : ∀ first second : Entry, first.OfRow → second.OfRow →
      ∀ entry ∈ [second, first], entry.OfRow := by
    intro first second firstRow secondRow entry member
    simp only [List.mem_cons, List.not_mem_nil, or_false] at member
    rcases member with rfl | rfl
    · exact secondRow
    · exact firstRow
  split <;> split
  · refine SameControl.pushes rfl [_, _] rfl (twice _ _ trivial trivial) ?_ rfl
    intro notActive
    rw [Running, notActive] at running
    cases running
  · exact SameControl.pushesOne rfl running rfl trivial rfl
  · exact SameControl.pushesOne rfl running rfl trivial rfl
  · exact SameControl.pushesNothing rfl rfl rfl

theorem Assignment.pushes (step : Assignment env licence self after) :
    Pushes Entry.OfRow self after := by
  have control := step.control
  cases step with
  | journaled held running => exact control.pushesOne running rfl trivial rfl
  | introduced running => exact control.pushesOne running rfl trivial rfl
  | wroteSlot storable found value => exact storeSlot_pushes storable.running _ value
  | _ => exact control.pushesNothing rfl rfl

theorem Assigned.pushes (steps : Assigned env licence self after) : Pushes Entry.OfRow self after := by
  induction steps with
  | refl => exact .refl self
  | tail _ step ih => exact ih.trans step.pushes

theorem Change.pushes (step : Change env licence self after) :
    Pushes (fun entry => ¬entry.OfTransient) self after := by
  have control := step.control
  cases step with
  | assigned step =>
      refine step.pushes.weaken fun entry ofRow => ?_
      cases entry <;> first | exact ofRow.elim | exact not_false
  | warmedAccount held running => exact control.pushesOne running rfl not_false rfl
  | warmedSlot held running => exact control.pushesOne running rfl not_false rfl
  | deferredAccount grows running => exact control.pushesOne running rfl not_false rfl
  | deferredSlot grows running => exact control.pushesOne running rfl not_false rfl

theorem Changed.pushes (steps : Changed env licence self after) :
    Pushes (fun entry => ¬entry.OfTransient) self after := by
  induction steps with
  | refl => exact .refl self
  | tail _ step ih => exact ih.trans step.pushes

/-! ## Closing scopes -/

/-- What the assertions on a checkpoint that is closed come to. -/
structure Closes (held : Checkpoint) (state : WorldState) : Prop where
  running : Running state
  session : state.SessionActive
  scope : held.scope = state.lifetime.scope
  journal : held.journalLen ≤ state.journal.length

theorem assertCheckpoint_ran (ran : assertCheckpoint held self = .ok () after) :
    Closes held self ∧ self = after := by
  unfold assertCheckpoint assertSession at ran
  obtain ⟨_, _, session, asserted⟩ := Action.bind_eq_ok.mp ran
  obtain ⟨_, _, active, session⟩ := Action.bind_eq_ok.mp session
  obtain ⟨running, rfl⟩ := Action.assert_eq_ok.mp active
  obtain ⟨deep, rfl⟩ := Action.assert_eq_ok.mp session
  obtain ⟨_, _, first, asserted⟩ := Action.bind_eq_ok.mp asserted
  obtain ⟨scope, rfl⟩ := Action.assert_eq_ok.mp first
  obtain ⟨_, _, second, asserted⟩ := Action.bind_eq_ok.mp asserted
  obtain ⟨journal, rfl⟩ := Action.assert_eq_ok.mp second
  obtain ⟨_, _, third, asserted⟩ := Action.bind_eq_ok.mp asserted
  obtain ⟨-, rfl⟩ := Action.assert_eq_ok.mp third
  obtain ⟨_, _, fourth, asserted⟩ := Action.bind_eq_ok.mp asserted
  obtain ⟨-, rfl⟩ := Action.assert_eq_ok.mp fourth
  obtain ⟨-, rfl⟩ := Action.assert_eq_ok.mp asserted
  exact ⟨⟨running, deep, scope, journal⟩, rfl⟩

theorem commitCheckpoint_ran (ran : commitCheckpoint held self = .ok () after) :
    Closes held self ∧ after = committed held.parentScope self := by
  obtain ⟨_, _, asserted, rest⟩ := Action.bind_eq_ok.mp ran
  obtain ⟨closes, rfl⟩ := assertCheckpoint_ran asserted
  cases rest
  exact ⟨closes, rfl⟩

def flagged (self : WorldState) : WorldState := { self with transactionScopeReverted := true }

/-- The end of `revertToCheckpoint`, once the journal is unwound. -/
def rewoundTo (held : Checkpoint) (self : WorldState) : WorldState :=
  { self with
    changedAccounts := self.changedAccounts.take held.changedAccountsLen
    changedStorage := self.changedStorage.take held.changedStorageLen
    logs := self.logs.truncate held.logs
    lifetime := { self.lifetime with scope := held.parentScope }
    scopeDepth := self.scopeDepth - 1 }

theorem revertToCheckpoint_ran (ran : revertToCheckpoint held self = .ok () after) :
    Closes held self ∧ ∃ mid, revertJournalTo held.journalLen self.flagged = .ok () mid ∧
      after = rewoundTo held mid := by
  obtain ⟨_, _, asserted, rest⟩ := Action.bind_eq_ok.mp ran
  obtain ⟨closes, rfl⟩ := assertCheckpoint_ran asserted
  rw [Action.bind_run, Action.modify_run] at rest
  dsimp only at rest
  obtain ⟨_, mid, unwound, rest⟩ := Action.bind_eq_ok.mp rest
  cases rest
  exact ⟨closes, mid, unwound, rfl⟩

/-! ## Ending attempts -/

/-- The lists are cut back to what they were when the attempt began. -/
def unlisted (self : WorldState) : WorldState :=
  { self with
    blockChangedAccounts := self.blockChangedAccounts.take self.acceptedLen.blockChangedAccounts
    blockStorageWipes := self.blockStorageWipes.take self.acceptedLen.blockStorageWipes
    dirtyStorage := self.dirtyStorage.take self.acceptedLen.dirtyStorage
    blockIntroducedCodes :=
      self.blockIntroducedCodes.take self.acceptedLen.blockIntroducedCodes }

theorem discardAttempt_ran {attempt : Generation} (ran : discardAttempt attempt self = .ok () after) :
    Running self ∧ self.scopeDepth = 0 ∧ ∃ mid, revertJournalTo 0 self = .ok () mid ∧
      after = finishTransaction mid.unlisted := by
  obtain ⟨_, _, current, rest⟩ := Action.bind_eq_ok.mp ran
  obtain ⟨running, -, rfl⟩ := assertCurrent_ran current
  obtain ⟨_, _, noSession, rest⟩ := Action.bind_eq_ok.mp rest
  obtain ⟨closed, rfl⟩ := Action.assert_eq_ok.mp noSession
  obtain ⟨_, mid, unwound, rest⟩ := Action.bind_eq_ok.mp rest
  rw [Action.bind_run, Action.modify_run] at rest
  cases rest
  exact ⟨running, not_not.mp closed, mid, unwound, rfl⟩

theorem reserveEach_asks (count : Nat) : Asks (reserveEach env count) := by
  unfold reserveEach
  induction List.range count with
  | nil => exact fun self => ⟨self.requests, .inl rfl⟩
  | cons _ _ ih => exact Asks.reserve.bind fun _ => ih

/-- An attempt that is discarded before a branch is restored. -/
inductive Vacated (env : Env) (self : WorldState) : WorldState → Prop
  | idle (notActive : self.transactionActive = false) : Vacated env self self
  | discarded {mid : WorldState} (running : Running self) (closed : self.scopeDepth = 0)
      (unwound : revertJournalTo 0 self = .ok () mid) :
      Vacated env self (finishTransaction mid.unlisted)

theorem restoreBranch_ran {snapshot left : BranchSnapshot}
    (ran : restoreBranch env snapshot self = .ok left after) :
    snapshot.worldEpoch = self.worldEpoch ∧ snapshot.resolved = false ∧
      ∃ mid, Vacated env self mid ∧ restoreAccepted env snapshot mid = .ok left after := by
  obtain ⟨_, _, epoch, rest⟩ := Action.bind_eq_ok.mp ran
  obtain ⟨sameEpoch, rfl⟩ := Action.assert_eq_ok.mp epoch
  obtain ⟨_, _, unresolved, rest⟩ := Action.bind_eq_ok.mp rest
  obtain ⟨isUnresolved, rfl⟩ := Action.assert_eq_ok.mp unresolved
  rw [Action.bind_run, Action.get_run] at rest
  dsimp only at rest
  obtain ⟨_, mid, discards, restores⟩ := Action.bind_eq_ok.mp rest
  refine ⟨sameEpoch, isUnresolved, mid, ?_, restores⟩
  unfold Action.when at discards
  split at discards
  · obtain ⟨running, closed, last, unwound, rfl⟩ := discardAttempt_ran discards
    exact .discarded running closed unwound
  · rename_i idle
    cases discards
    exact .idle (Bool.eq_false_of_not_eq_true idle)

/-- Worlds start over. -/
def startedOver (env : Env) (self : WorldState) : WorldState :=
  { self with
    code := self.code.truncateIntroduced 0
    world := self.world.resetRows env
    blockChangedAccounts := []
    blockStorageWipes := []
    dirtyStorage := []
    blockIntroducedCodes := []
    retainedLogs := {}
    worldEpoch := self.worldEpoch + 1
    clock := 0 }

theorem discardAccepted_startsOver (ran : discardAccepted env self = .ok () after) :
    self.transactionActive = false ∧ after = startedOver env self := by
  obtain ⟨_, _, idle, rest⟩ := Action.bind_eq_ok.mp ran
  obtain ⟨notActive, rfl⟩ := Action.assert_eq_ok.mp idle
  cases rest
  exact ⟨notActive, rfl⟩

/-- What a transient write leaves, where it ends. -/
inductive TransientEnd (key : TransientKey) (value : U256) (self : WorldState) :
    Outcome WorldState StateError Unit → WorldState → Prop
  | same (running : Running self) (same : self.transientValue key.address key.slot = value) :
      TransientEnd key value self (.ok () self) self
  | refused (running : Running self) (error : StateError) (requests : Nat) :
      TransientEnd key value self (.fail error (asked requests self)) (asked requests self)
  | wrote (running : Running self) (changes : self.transientValue key.address key.slot ≠ value)
      (requests : Nat) :
      TransientEnd key value self (.ok () (writeTransient key value (asked requests self)))
        (writeTransient key value (asked requests self))

theorem TransientWrite.ended {key : TransientKey} {value : U256} {state : WorldState}
    {outcome : Outcome WorldState StateError Unit} (write : TransientWrite key value self outcome)
    (ends : Nested.EndsIn outcome state) : TransientEnd key value self outcome state := by
  rcases ends with ⟨_, same⟩ | ⟨_, same⟩
  · subst same
    cases write with
    | same running same => exact .same running same
    | wrote running changes requests => exact .wrote running changes requests
  · subst same
    cases write with
    | refused running _ requests => exact .refused running _ requests

theorem TransientEnd.ends {key : TransientKey} {value : U256} {state : WorldState}
    {outcome : Outcome WorldState StateError Unit}
    (write : TransientEnd key value self outcome state) : Nested.EndsIn outcome state := by
  cases write with
  | refused => exact .inr ⟨_, rfl⟩
  | _ => exact .inl ⟨_, rfl⟩

end WorldState

/-! ## Moves -/

namespace Config

open WorldState

variable {env : Env} {config after : Config}

/-- How a move succeeds. -/
inductive Stepped (env : Env) (config : Config) : Move → Config → Prop
  | called {op : Op} {state : WorldState} (aside : op.writesTransient = false)
      (ends : Nested.EndsIn (op.run env config.state) state)
      (called : Called env op.licence config.state state) :
      Stepped env config (.call op) { config with state }
  | transient {address : Address} {slot value : U256}
      {outcome : Outcome WorldState StateError Unit} {state : WorldState}
      (ran : WorldState.setTransientStorage env address slot value config.state = outcome)
      (write : TransientEnd ⟨address, slot⟩ value config.state outcome state) :
      Stepped env config (.call (.setTransientStorage address slot value)) { config with state }
  | cleared (running : Running config.state) :
      Stepped env config (.call .clearTransientStorage)
        { config with state := { config.state with transientStorage := Table.empty } }
  | checkpoint (running : Running config.state) (session : config.state.SessionActive) :
      Stepped env config .checkpoint
        { config with state := opened config.state, scopes := mark config.state :: config.scopes }
  | committed {held : Checkpoint} {scopes : List Checkpoint} (stack : config.scopes = held :: scopes)
      (closes : Closes held config.state) :
      Stepped env config .commitCheckpoint
        { config with state := WorldState.committed held.parentScope config.state, scopes }
  | reverted {held : Checkpoint} {scopes : List Checkpoint} {mid : WorldState}
      (stack : config.scopes = held :: scopes) (closes : Closes held config.state)
      (unwound : revertJournalTo held.journalLen config.state.flagged = .ok () mid) :
      Stepped env config .revertToCheckpoint { config with state := rewoundTo held mid, scopes }
  | begun {observe : Bool} (notActive : config.state.transactionActive = false) :
      Stepped env config (.beginAttempt observe) { config with state := begun observe config.state }
  | openSession (running : Running config.state) (flat : config.state.scopeDepth = 0) :
      Stepped env config .openSession
        { config with state := rescoped (config.state.clock + 1) 1 config.state }
  | closeSession (running : Running config.state) (flat : config.state.scopeDepth = 1) :
      Stepped env config .closeSession
        { config with state := rescoped (config.state.clock + 1) 0 config.state }
  | sealed {state : WorldState} (running : Running config.state)
      (ran : WorldState.sealAttempt config.state.lifetime.transaction config.state = .ok () state) :
      Stepped env config .sealAttempt { config with state }
  | retained {last : WorldState} (running : Running config.state)
      (closed : config.state.scopeDepth = 0)
      (ran : WorldState.retainAttempt config.state.lifetime.transaction config.state =
        .ok () (finishTransaction last)) :
      Stepped env config .retainAttempt { config with state := finishTransaction last }
  | discarded {mid : WorldState} (running : Running config.state)
      (closed : config.state.scopeDepth = 0)
      (unwound : revertJournalTo 0 config.state = .ok () mid) :
      Stepped env config .discardAttempt { config with state := finishTransaction mid.unlisted }
  | startedOver (notActive : config.state.transactionActive = false) :
      Stepped env config .discardAccepted
        { config with state := WorldState.startedOver env config.state }
  | captured (notActive : config.state.transactionActive = false) (requests : Nat) :
      Stepped env config .branchSnapshot { config with
        state := asked requests config.state
        snapshots := config.snapshots ++ [{
          snapshot := (asked requests config.state).captured, of := asked requests config.state }] }
  | cloned {index : Nat} {taken : Taken} (found : config.snapshots[index]? = some taken)
      (unresolved : taken.snapshot.resolved = false) (requests : Nat) :
      Stepped env config (.cloneSnapshot index) { config with
        state := asked requests config.state
        snapshots := config.snapshots ++ [taken] }
  | refused {move : Move} (requests : Nat)
      (snapshot : move = .branchSnapshot ∨ ∃ index, move = .cloneSnapshot index) :
      Stepped env config move { config with state := asked requests config.state }
  | restored {index : Nat} {taken : Taken} {mid : WorldState}
      (found : config.snapshots[index]? = some taken)
      (epoch : taken.snapshot.worldEpoch = config.state.worldEpoch)
      (unresolved : taken.snapshot.resolved = false) (vacated : Vacated env config.state mid) :
      Stepped env config (.restoreBranch index) { config with
        state := reinstated taken.snapshot mid
        snapshots := config.snapshots.set index { taken with
          snapshot := { taken.snapshot with retainedLogs := mid.retainedLogs, resolved := true } } }

theorem captured_stepped
    (ran : config.recorded id (branchSnapshot env config.state) = some after) :
    Stepped env config .branchSnapshot after := by
  unfold branchSnapshot at ran
  rw [Action.bind_run, Action.assert] at ran
  by_cases idle : config.state.transactionActive = false
  · rw [if_pos idle] at ran
    dsimp only at ran
    rw [Action.bind_run] at ran
    obtain ⟨requests, asks | ⟨error, asks⟩⟩ := @reserveEach_asks env 8 config.state
    · rw [asks] at ran
      cases ran
      exact .captured idle requests
    · rw [asks] at ran
      cases ran
      exact .refused requests (.inl rfl)
  · rw [if_neg idle] at ran
    cases ran

theorem cloned_stepped {index : Nat} {taken : Taken} (found : config.snapshots[index]? = some taken)
    (ran : config.recorded (fun _ => taken.of)
      (WorldState.cloneSnapshot env taken.snapshot config.state) = some after) :
    Stepped env config (.cloneSnapshot index) after := by
  unfold WorldState.cloneSnapshot at ran
  rw [Action.bind_run, Action.assert] at ran
  by_cases unresolved : taken.snapshot.resolved = false
  · rw [if_pos unresolved] at ran
    dsimp only at ran
    rw [Action.bind_run] at ran
    obtain ⟨requests, asks | ⟨error, asks⟩⟩ := @reserveEach_asks env 8 config.state
    · rw [asks] at ran
      cases ran
      exact .cloned found unresolved requests
    · rw [asks] at ran
      cases ran
      exact .refused requests (.inr ⟨index, rfl⟩)
  · rw [if_neg unresolved] at ran
    cases ran

theorem called_stepped {op : Op} {state : WorldState}
    (ends : Nested.EndsIn (op.run env config.state) state) :
    Stepped env config (.call op) { config with state } := by
  cases aside : op.writesTransient with
  | false => exact .called aside ends (Op.run_called aside ends)
  | true =>
      cases op with
      | setTransientStorage address slot value =>
          exact .transient rfl ((setTransientStorage_run address slot value config.state).ended ends)
      | clearTransientStorage =>
          have outcome : Nested.EndsIn (clearTransientStorage config.state) state := ends
          rcases clearTransientStorage_run config.state with stuck | ⟨running, clears⟩
          · rw [stuck] at outcome
            rcases outcome with ⟨_, outcome⟩ | ⟨_, outcome⟩ <;> cases outcome
          · rw [clears] at outcome
            rcases outcome with ⟨_, outcome⟩ | ⟨_, outcome⟩
            · cases outcome
              exact .cleared running
            · cases outcome
      | _ => cases aside

/-- Every move that succeeds does so in one of these ways. -/
theorem step_cases {move : Move} (ran : config.step env move = some after) :
    Stepped env config move after := by
  replace ran := step_moved ran
  cases ran with
  | call ends => exact called_stepped ends
  | checkpoint ran =>
      rcases checkpoint_run config.state with stuck | ⟨running, session, opens⟩
      · rw [stuck] at ran
        cases ran
      · rw [opens] at ran
        cases ran
        exact .checkpoint running session
  | committed stack ran =>
      obtain ⟨closes, rfl⟩ := commitCheckpoint_ran ran
      exact .committed stack closes
  | reverted stack ran =>
      obtain ⟨closes, mid, unwound, rfl⟩ := revertToCheckpoint_ran ran
      exact .reverted stack closes unwound
  | begun ran =>
      obtain ⟨notActive, -, rfl⟩ := beginAttemptMode_ran ran
      exact .begun notActive
  | openSession ran =>
      obtain ⟨running, flat, rfl⟩ := openSession_ran ran
      exact .openSession running flat
  | closeSession ran =>
      obtain ⟨running, flat, rfl⟩ := closeSession_ran ran
      exact .closeSession running flat
  | sealed ran =>
      obtain ⟨_, _, current, -⟩ := Action.bind_eq_ok.mp ran
      obtain ⟨running, -, -⟩ := assertCurrent_ran current
      exact .sealed running ran
  | retained ran =>
      obtain ⟨_, _, current, -⟩ := Action.bind_eq_ok.mp ran
      obtain ⟨running, -, -⟩ := assertCurrent_ran current
      obtain ⟨-, closed, last, -, rfl⟩ := retainAttempt_parts ran
      exact .retained running (not_not.mp closed) ran
  | discarded ran =>
      obtain ⟨running, closed, mid, unwound, rfl⟩ := discardAttempt_ran ran
      exact .discarded running closed unwound
  | startedOver ran =>
      obtain ⟨notActive, rfl⟩ := discardAccepted_startsOver ran
      exact .startedOver notActive
  | captured ran => exact captured_stepped ran
  | cloned found ran => exact cloned_stepped found ran
  | restored found ran =>
      obtain ⟨epoch, unresolved, mid, vacated, restores⟩ := restoreBranch_ran ran
      obtain ⟨rfl, rfl⟩ := restoreAccepted_reinstates restores
      exact .restored found epoch unresolved vacated

/-! ## A reference kept beside a run -/

section Alongside

variable {σ : Type} {advance : Config → σ → Move → σ} {property kept : Config → σ → Prop} {beside : σ}

/-- A property of every configuration of a run and of what is kept beside it. -/
def Alongside (env : Env) (advance : Config → σ → Move → σ) (property : Config → σ → Prop)
    (config : Config) (beside : σ) : List Move → Prop
  | [] => property config beside
  | move :: moves => property config beside ∧ ∀ next, config.step env move = some next →
      next.Alongside env advance property (advance config beside move) moves

/-- What every move keeps holds throughout. -/
theorem alongside_of_kept (shows : ∀ config beside, kept config beside → property config beside)
    (step : ∀ config beside move after, kept config beside → Stepped env config move after →
      kept after (advance config beside move))
    {moves : List Move} (start : kept config beside) :
    config.Alongside env advance property beside moves := by
  induction moves generalizing config beside with
  | nil => exact shows config beside start
  | cons move moves ih =>
      refine ⟨shows config beside start, fun next ran => ?_⟩
      exact ih (step config beside move next start (step_cases ran))

end Alongside

end Config

end EvmZig.State
