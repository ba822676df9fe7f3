import EvmZig.State.Transient

/-!
# Stamps lie in the past

Rows, the snapshots of rows that can still be restored and the entries of the
journal carry stamps of attempts, scopes and sessions that have begun.  A stamp
just drawn from the clock is therefore in none of them.
-/

set_option autoImplicit false

namespace EvmZig.State

open Lib Zig

structure AccountRow.Past (clock : Generation) (row : AccountRow) : Prop where
  journaled : row.journaledScope ≤ clock
  dirty : row.dirtyTransaction ≤ clock
  observed : row.observation.transaction ≤ clock
  warmed : row.warmTransaction ≤ clock

def AccountRow.stamps (row : AccountRow) : Generation × Generation × ObservationHandle × Generation :=
  (row.journaledScope, row.dirtyTransaction, row.observation, row.warmTransaction)

structure StorageRow.Past (clock : Generation) (row : StorageRow) : Prop where
  original : row.executionOriginalRoot ≤ clock
  warmed : row.warmTransaction ≤ clock

structure AccountUndo.Past (clock : Generation) (undo : AccountUndo) : Prop where
  journaled : undo.journaledScope ≤ clock
  dirty : undo.dirtyTransaction ≤ clock

structure Lifetimes.Past (clock : Generation) (lifetime : Lifetimes) : Prop where
  transaction : lifetime.transaction ≤ clock
  scope : lifetime.scope ≤ clock
  root : lifetime.root ≤ clock

theorem AccountRow.Past.later {clock now : Generation} {row : AccountRow} (past : row.Past clock)
    (later : clock ≤ now) : row.Past now :=
  ⟨past.journaled.trans later, past.dirty.trans later, past.observed.trans later,
    past.warmed.trans later⟩

theorem StorageRow.Past.later {clock now : Generation} {row : StorageRow} (past : row.Past clock)
    (later : clock ≤ now) : row.Past now :=
  ⟨past.original.trans later, past.warmed.trans later⟩

theorem AccountUndo.Past.later {clock now : Generation} {undo : AccountUndo} (past : undo.Past clock)
    (later : clock ≤ now) : undo.Past now :=
  ⟨past.journaled.trans later, past.dirty.trans later⟩

theorem Lifetimes.Past.later {clock now : Generation} {lifetime : Lifetimes}
    (past : lifetime.Past clock) (later : clock ≤ now) : lifetime.Past now :=
  ⟨past.transaction.trans later, past.scope.trans later, past.root.trans later⟩

theorem AccountRow.admitted_past (clock : Generation) (current : Option Account) :
    (AccountRow.admitted current).Past clock :=
  ⟨Nat.zero_le _, Nat.zero_le _, Nat.zero_le _, Nat.zero_le _⟩

namespace WorldState

variable {env : Env} {licence : Licence} {self after : WorldState}

/-! ## States -/

/-- No stamp is still to come. -/
structure Aged (state : WorldState) : Prop where
  account : ∀ id row, state.world.accounts.row id = some row → row.Past state.clock
  slot : ∀ id row, state.world.storage.row id = some row → row.Past state.clock
  entries : ∀ undo, Entry.account undo ∈ state.journal → undo.Past state.clock
  lifetime : Running state → state.lifetime.Past state.clock

namespace Aged

/-- The same rows at a later time. -/
theorem later (aged : Aged self) (world : after.world = self.world) (clock : self.clock ≤ after.clock)
    (entries : ∀ undo, Entry.account undo ∈ after.journal → Entry.account undo ∈ self.journal)
    (lifetime : Running after → after.lifetime.Past after.clock) : Aged after := by
  refine ⟨fun id row held => ?_, fun id row held => ?_, fun undo member => ?_, lifetime⟩
  · rw [world] at held
    exact (aged.account id row held).later clock
  · rw [world] at held
    exact (aged.slot id row held).later clock
  · exact (aged.entries undo (entries undo member)).later clock

/-- The same rows and entries. -/
theorem same (aged : Aged self) (world : after.world = self.world)
    (journal : after.journal = self.journal)
    (control : SameControl self after) : Aged after := by
  refine aged.later world control.clock.ge (fun undo member => journal ▸ member) fun running => ?_
  rw [control.lifetime, control.clock]
  exact aged.lifetime (control.transactionActive.symm.trans running)

theorem push (aged : Aged self) (entry : Entry)
    (past : ∀ undo, entry = .account undo → undo.Past self.clock) : Aged (self.push entry) := by
  refine ⟨aged.account, aged.slot, fun undo member => ?_, aged.lifetime⟩
  rcases List.mem_cons.mp member with here | older
  · exact past undo here.symm
  · exact aged.entries undo older

/-- An account row is stamped. -/
theorem updatedAccount (aged : Aged self) {id : AccountId} {update : AccountRow → AccountRow}
    (world : after.world = self.world.updateAccount id update)
    (past : ∀ row, row.Past self.clock → (update row).Past self.clock)
    (journal : after.journal = self.journal) (control : SameControl self after) : Aged after := by
  have updated : Aged (self.updateAccount id update) := by
    refine ⟨fun other row held => ?_, fun other row held => ?_, aged.entries, aged.lifetime⟩
    · obtain ⟨old, found, rfl | rfl⟩ := row_of_updateAccount held
      · exact aged.account other _ found
      · exact past old (aged.account other old found)
    · have kept : (self.updateAccount id update).world.storage = self.world.storage := by
        rw [updateAccount, World.updateAccount]
        split <;> rfl
      rw [kept] at held
      exact aged.slot other row held
  exact updated.same world journal control

/-- Its stamps stay. -/
theorem relabelledAccount (aged : Aged self) {id : AccountId} {update : AccountRow → AccountRow}
    (world : after.world = self.world.updateAccount id update)
    (stamps : ∀ row, (update row).stamps = row.stamps)
    (journal : after.journal = self.journal) (control : SameControl self after) : Aged after := by
  refine aged.updatedAccount world (fun row past => ?_) journal control
  obtain ⟨journaled, dirty, observed, warmed⟩ := past
  have same := stamps row
  simp only [AccountRow.stamps, Prod.mk.injEq] at same
  obtain ⟨journaledSame, dirtySame, observedSame, warmedSame⟩ := same
  exact ⟨journaledSame ▸ journaled, dirtySame ▸ dirty, observedSame ▸ observed, warmedSame ▸ warmed⟩

theorem updatedSlot (aged : Aged self) {id : StorageId} {update : StorageRow → StorageRow}
    (world : after.world = self.world.updateStorage id update)
    (past : ∀ row, row.Past self.clock → (update row).Past self.clock)
    (journal : after.journal = self.journal) (control : SameControl self after) : Aged after := by
  have updated : Aged (self.updateStorage id update) := by
    refine ⟨fun other row held => ?_, fun other row held => ?_, aged.entries, aged.lifetime⟩
    · rw [accounts_updateStorage] at held
      exact aged.account other row held
    · obtain ⟨old, found, rfl | rfl⟩ := row_of_updateStorage held
      · exact aged.slot other _ found
      · exact past old (aged.slot other old found)
  exact updated.same world journal control

theorem wroteSlot (aged : Aged self) {resolved : ResolvedStorage} {account : AccountRow}
    {row : StorageRow} (effect : StorageEffect) (value : U256) :
    Aged (storeSlot resolved account row effect value self) := by
  have journaled : Aged (journalSlotFirst resolved.storage row effect self) := by
    unfold journalSlotFirst
    split
    · exact (aged.push (.storage _) fun _ same => nomatch same).updatedSlot rfl
        (fun row past => ⟨past.original, past.warmed⟩) rfl rfl
    · exact aged
  have dirtied : ∀ (state : WorldState) (needsUndo : Bool), Aged state →
      Aged (markStorageDirty resolved.account needsUndo state) := by
    intro state needsUndo aged
    unfold markStorageDirty
    split
    · exact (aged.push (.accountStorageDirty _) fun _ same => nomatch same).relabelledAccount
        rfl (fun _ => rfl) rfl rfl
    · exact aged.relabelledAccount rfl (fun _ => rfl) rfl rfl
  exact (dirtied _ _ journaled).updatedSlot rfl (fun row past => ⟨past.original, past.warmed⟩) rfl rfl

theorem assignment (aged : Aged self) (step : Assignment env licence self after) : Aged after := by
  have control := step.control
  cases step with
  | admittedAccount address fresh =>
      refine ⟨fun id row held => ?_, aged.slot, aged.entries, aged.lifetime⟩
      rcases Table.row_of_admitRow fresh held with old | rfl
      · exact aged.account id row old
      · exact AccountRow.admitted_past _ _
  | admittedSlot owner fresh =>
      refine ⟨aged.account, fun id row held => ?_, aged.entries, aged.lifetime⟩
      rcases Table.row_of_admitRow fresh held with old | rfl
      · exact aged.slot id row old
      · exact ⟨Nat.zero_le _, Nat.zero_le _⟩
  | observedAccount held running first observation =>
      have now := (aged.lifetime running).transaction
      exact aged.updatedAccount rfl (fun row past => ⟨past.journaled, past.dirty, now, past.warmed⟩) rfl
        control
  | observedSlot => exact aged.updatedSlot rfl (fun row past => ⟨past.original, past.warmed⟩) rfl control
  | journaled held running current found needed =>
      have now := (aged.lifetime running).scope
      have old := aged.account _ _ held
      refine (aged.push (.account _) fun undo same => ?_).updatedAccount rfl
        (fun _ past => ⟨now, past.dirty, past.observed, past.warmed⟩) rfl rfl
      cases same
      exact ⟨old.journaled, old.dirty⟩
  | transactionDirty held running current journaled first =>
      have now := (aged.lifetime running).transaction
      exact aged.updatedAccount rfl (fun row past => ⟨past.journaled, now, past.observed, past.warmed⟩)
        rfl control
  | cachedOriginal accountHeld owned held running notCreated stale root =>
      have now := (aged.lifetime running).root
      exact aged.updatedSlot rfl (fun row past => ⟨now, past.warmed⟩) rfl control
  | wroteSlot storable found value => exact aged.wroteSlot _ value
  | introduced running introduced =>
      exact (aged.push .introducedCode fun _ same => nomatch same).same rfl rfl rfl
  | boundCode => exact aged.relabelledAccount rfl (fun _ => rfl) rfl control
  | blockChanged => exact aged.relabelledAccount rfl (fun _ => rfl) rfl control
  | wrote => exact aged.relabelledAccount rfl (fun _ => rfl) rfl control
  | touched => exact aged.relabelledAccount rfl (fun _ => rfl) rfl control
  | wiped => exact aged.relabelledAccount rfl (fun _ => rfl) rfl control
  | enlisted => exact aged.relabelledAccount rfl (fun _ => rfl) rfl control
  | created => exact aged.relabelledAccount rfl (fun _ => rfl) rfl control
  | selfdestructed => exact aged.relabelledAccount rfl (fun _ => rfl) rfl control
  | settledCreation => exact aged.relabelledAccount rfl (fun _ => rfl) rfl control
  | settledDestruction => exact aged.relabelledAccount rfl (fun _ => rfl) rfl control
  | cachedCode code => exact ⟨aged.account, aged.slot, aged.entries, aged.lifetime⟩
  | _ => exact aged.same rfl rfl rfl

theorem change (aged : Aged self) (step : Change env licence self after) : Aged after := by
  cases step with
  | assigned step => exact aged.assignment step
  | warmedAccount held running =>
      have now := (aged.lifetime running).transaction
      exact (aged.push (.warmAccount _) fun _ same => nomatch same).updatedAccount rfl
        (fun row past => ⟨past.journaled, past.dirty, past.observed, now⟩) rfl rfl
  | warmedSlot held running =>
      have now := (aged.lifetime running).transaction
      exact (aged.push (.warmStorage _) fun _ same => nomatch same).updatedSlot rfl
        (fun row past => ⟨past.original, now⟩) rfl rfl
  | deferredAccount =>
      exact (aged.push (.deferredWarmAccount _) fun _ same => nomatch same).same rfl rfl rfl
  | deferredSlot =>
      exact (aged.push (.deferredWarmStorage _) fun _ same => nomatch same).same rfl rfl rfl

theorem assigned (aged : Aged self) (steps : Assigned env licence self after) : Aged after := by
  induction steps with
  | refl => exact aged
  | tail _ step ih => exact ih.assignment step

theorem changed (aged : Aged self) (steps : Changed env licence self after) : Aged after := by
  induction steps with
  | refl => exact aged
  | tail _ step ih => exact ih.change step

theorem undone (aged : Aged self) {entry : Entry} (undone : Undone self entry after)
    (past : ∀ undo, entry = .account undo → undo.Past self.clock) : Aged after := by
  have control := undone.control
  cases undone with
  | account held =>
      obtain ⟨journaled, dirty⟩ := past _ rfl
      exact aged.updatedAccount rfl (fun _ past => ⟨journaled, dirty, past.observed, past.warmed⟩) rfl
        control
  | storage undo index =>
      exact aged.updatedSlot rfl (fun row past => ⟨past.original, past.warmed⟩) rfl control
  | accountStorageDirty id => exact aged.relabelledAccount rfl (fun _ => rfl) rfl control
  | warmAccount id =>
      exact aged.updatedAccount rfl
        (fun row past => ⟨past.journaled, past.dirty, past.observed, Nat.zero_le _⟩) rfl control
  | warmStorage id =>
      exact aged.updatedSlot rfl (fun row past => ⟨past.original, Nat.zero_le _⟩) rfl control
  | _ => exact aged.same rfl rfl control

theorem unwound (aged : Aged self) {count : Nat} (ran : popEntries count self = .ok () after) :
    Aged after := by
  refine popEntries_induct (motive := Aged) ?_ ran aged
  intro state entry older last journal aged undone
  have bare : Aged { state with journal := older } :=
    aged.later rfl (Nat.le_refl _) (fun undo member => journal ▸ List.mem_cons_of_mem _ member)
      aged.lifetime
  refine bare.undone (undoEntry_ran undone) fun undo same => aged.entries undo ?_
  rw [journal, same]
  exact List.mem_cons_self

/-- What a revert leaves, in a scope that has begun. -/
theorem rewound (aged : Aged self) {held : Checkpoint} (parent : held.parentScope ≤ self.clock)
    (ran : revertJournalTo held.journalLen self.flagged = .ok () after) :
    Aged (rewoundTo held after) := by
  have flagged : Aged self.flagged :=
    aged.later rfl (Nat.le_refl _) (fun _ member => member) aged.lifetime
  have left : Aged after := flagged.unwound ran
  refine left.later rfl (Nat.le_refl _) (fun _ member => member) fun running => ?_
  have past := left.lifetime running
  have control := revertJournalTo_control ran
  exact ⟨past.transaction, parent.trans control.clock.ge, past.root⟩

theorem committed (aged : Aged self) {scope : Generation} (parent : scope ≤ self.clock) :
    Aged (committed scope self) :=
  aged.later rfl (Nat.le_refl _) (fun _ member => member) fun running =>
    ⟨(aged.lifetime running).transaction, parent, (aged.lifetime running).root⟩

/-- A scope is opened with a fresh stamp. -/
theorem rescoped (aged : Aged self) {root : Generation} {depth : Nat} (past : root ≤ self.clock + 1) :
    Aged (rescoped root depth self) :=
  aged.later rfl (Nat.le_succ _) (fun _ member => member) fun running =>
    ⟨((aged.lifetime running).transaction).trans (Nat.le_succ _), Nat.le_refl _, past⟩

theorem opened (aged : Aged self) (running : Running self) : Aged (opened self) :=
  aged.rescoped ((aged.lifetime running).root.trans (Nat.le_succ _))

theorem called (aged : Aged self) (called : Called env licence self after) : Aged after := by
  cases called with
  | changed steps => exact aged.changed steps
  | settled final running steps closes =>
      obtain ⟨-, rfl⟩ := commitCheckpoint_ran closes
      refine ((aged.opened running).assigned steps).committed ?_
      rw [(Assigned.control steps).clock]
      exact (aged.lifetime running).scope.trans (Nat.le_succ _)
  | abandoned final running steps closes =>
      obtain ⟨-, mid, unwound, rfl⟩ := revertToCheckpoint_ran closes
      refine ((aged.opened running).assigned steps).rewound ?_ unwound
      rw [(Assigned.control steps).clock]
      exact (aged.lifetime running).scope.trans (Nat.le_succ _)

theorem begun (aged : Aged self) (observe : Bool) : Aged (begun observe self) :=
  aged.later rfl (Nat.le_add_right _ 2) (fun _ member => member) fun _ =>
    ⟨Nat.le_succ _, Nat.le_refl _, Nat.le_refl _⟩

theorem finished (aged : Aged self) : Aged (finishTransaction self) :=
  aged.later rfl (Nat.le_refl _) (fun _ member => nomatch member) fun running => nomatch running

end Aged

/-! ## Retaining an attempt -/

/-- Calls that keep the stamps in the past and the control fields as they are. -/
def aging : Discipline WorldState where
  inv := Aged
  rel := SameControl
  refl _ := rfl
  trans first second := first.trans second

theorem remark_aging (id : StorageId) (dirty : Bool) :
    Safe aging (Action.modify (updateStorage id fun row =>
      { row with flags := { row.flags with blockDirty := dirty } }) : Method Unit) :=
  Keeps.modify fun _ aged _ =>
    ⟨aged.updatedSlot rfl (fun _ past => ⟨past.original, past.warmed⟩) rfl rfl, rfl, trivial⟩

theorem consumeStorage_aging (deduplicate : Bool) (ids : List StorageId) :
    Safe aging (consumeStorage deduplicate ids) := by
  induction ids with
  | nil => exact Safe.pure _
  | cons id ids ih =>
      refine Safe.bind (storageRow_looks id).safe fun row => ?_
      split
      · exact ih
      · refine Safe.bind (Safe.when (remark_aging id false)) fun _ =>
          Safe.bind (storageKey_looks id).safe fun key =>
          Safe.bind (accountRow_looks key.account).safe fun account => ?_
        split
        · exact Safe.bind (remark_aging id false) fun _ => ih
        · exact Safe.bind ih fun _ => Safe.pure _

theorem compactAcceptedStorageChanges_aging : Safe aging compactAcceptedStorageChanges := by
  refine Safe.bind Safe.get fun _ => Safe.bind (consumeStorage_aging _ _) fun kept =>
    Safe.bind (Safe.when (Safe.forEach (fun id => ?_) kept)) fun _ => ?_
  · exact Safe.bind (storageRow_looks id).safe fun _ => remark_aging id true
  · exact Keeps.modify fun _ aged _ => ⟨aged.same rfl rfl rfl, rfl, trivial⟩

theorem retainAttempt_aged {attempt : Generation} (aged : Aged self)
    (ran : retainAttempt attempt self = .ok () after) :
    Aged after ∧ after.clock = self.clock ∧ after.worldEpoch = self.worldEpoch := by
  obtain ⟨-, -, last, compacts, rfl⟩ := retainAttempt_parts ran
  let start := compactedAccounts { self with logs := self.retainedLogs, retainedLogs := self.logs }
  have aged : Aged start := aged.same rfl rfl rfl
  have kept : Safe aging (Action.when
      (self.transactionScopeReverted = true ∨ self.transactionStorageWipes ≠ [])
      compactAcceptedStorageChanges : Method Unit) := Safe.when compactAcceptedStorageChanges_aging
  have ran := kept start aged trivial
  rw [compacts] at ran
  obtain ⟨left, control, -⟩ := ran
  exact ⟨left.finished, control.clock, control.worldEpoch⟩

/-! ## Rows given back -/

/-- Rows as they are admitted, and no entries. -/
theorem Aged.reset (env : Env) (running : ¬Running after) (journal : after.journal = [])
    (world : ∃ before : World, after.world = before.resetRows env) : Aged after := by
  obtain ⟨before, world⟩ := world
  have mapped : ∀ {κ ρ τ : Type} {table : Table κ ρ} {rewrite : κ → ρ → τ} {index : Nat} {row : τ},
      (table.mapRows rewrite).row index = some row → ∃ key old, row = rewrite key old := by
    intro κ ρ τ table rewrite index row held
    obtain ⟨entry, entryFound, rfl⟩ := Option.map_eq_some_iff.mp held
    rw [Table.mapRows, List.getElem?_map] at entryFound
    obtain ⟨old, -, rfl⟩ := Option.map_eq_some_iff.mp entryFound
    exact ⟨_, _, rfl⟩
  refine ⟨fun id row held => ?_, fun id row held => ?_, fun undo member => ?_,
    fun now => absurd now running⟩
  · rw [world, World.resetRows] at held
    split at held
    · cases held
    · obtain ⟨_, _, rfl⟩ := mapped held
      exact AccountRow.admitted_past _ _
  · rw [world, World.resetRows] at held
    split at held
    · cases held
    · obtain ⟨_, _, rfl⟩ := mapped held
      exact ⟨Nat.zero_le _, Nat.zero_le _⟩
  · rw [journal] at member
    cases member

/-- The rows of a snapshot are no younger than a clock. -/
structure RowsAged (rows : RowSnapshot) (clock : Generation) : Prop where
  account : ∀ row ∈ rows.accounts, row.Past clock
  slot : ∀ row ∈ rows.storage, row.Past clock

theorem Aged.captured (aged : Aged self) : RowsAged self.captured.rows self.clock := by
  have read : ∀ {κ ρ : Type} {table : Table κ ρ} {row : ρ}, row ∈ table.rows.map Prod.snd →
      ∃ index, table.row index = some row := by
    intro κ ρ table row member
    obtain ⟨entry, held, rfl⟩ := List.mem_map.mp member
    obtain ⟨index, found⟩ := List.getElem?_of_mem held
    exact ⟨index, congrArg (Option.map Prod.snd) found⟩
  refine ⟨fun row member => ?_, fun row member => ?_⟩
  · obtain ⟨id, held⟩ := read member
    exact aged.account id row held
  · obtain ⟨id, held⟩ := read member
    exact aged.slot id row held

theorem RowsAged.later {rows : RowSnapshot} {clock now : Generation} (aged : RowsAged rows clock)
    (later : clock ≤ now) : RowsAged rows now :=
  ⟨fun row member => (aged.account row member).later later,
    fun row member => (aged.slot row member).later later⟩

theorem RowsAged.reinstated {snapshot : BranchSnapshot} (rows : RowsAged snapshot.rows self.clock)
    (journal : self.journal = []) (running : ¬Running self) : Aged (reinstated snapshot self) := by
  refine ⟨fun id row held => ?_, fun id row held => ?_, fun undo member => ?_,
    fun now => absurd now running⟩
  · exact rows.account row (Table.mem_of_overwrite held)
  · exact rows.slot row (Table.mem_of_overwrite held)
  · have member : Entry.account undo ∈ self.journal := member
    rw [journal] at member
    cases member

theorem Called.later (called : Called env licence self after) :
    after.worldEpoch = self.worldEpoch ∧ self.clock ≤ after.clock := by
  cases called with
  | changed steps => exact ⟨steps.control.worldEpoch, steps.control.clock.ge⟩
  | settled final running steps closes =>
      obtain ⟨-, rfl⟩ := commitCheckpoint_ran closes
      have control := Assigned.control steps
      exact ⟨control.worldEpoch, (Nat.le_succ _).trans control.clock.ge⟩
  | abandoned final running steps closes =>
      obtain ⟨-, mid, unwound, rfl⟩ := revertToCheckpoint_ran closes
      have control := Assigned.control steps
      have back := revertJournalTo_control unwound
      exact ⟨back.worldEpoch.trans control.worldEpoch,
        (Nat.le_succ _).trans (control.clock.ge.trans back.clock.ge)⟩

end WorldState

namespace Config

open WorldState

variable {env : Env} {config after : Config} {move : Move}

/-- Nothing is stamped with a time still to come, in the state, the checkpoints or a snapshot that
can still be restored. -/
structure Bygone (config : Config) : Prop where
  state : Aged config.state
  scopes : ∀ held ∈ config.scopes, held.parentScope ≤ config.state.clock
  snapshots : ∀ taken ∈ config.snapshots, taken.snapshot.worldEpoch ≤ config.state.worldEpoch ∧
    (taken.snapshot.worldEpoch = config.state.worldEpoch →
      RowsAged taken.snapshot.rows config.state.clock)

namespace Bygone

theorem init (genesis : Genesis) : Bygone (Config.init genesis) :=
  ⟨.reset genesis.env (fun running => nomatch running) rfl ⟨_, rfl⟩,
    fun _ member => (nomatch member), fun _ member => nomatch member⟩

/-- The snapshots stay as they are while time goes on. -/
theorem later (bygone : Bygone config) {state : WorldState} {scopes : List Checkpoint}
    (aged : Aged state) (open_ : ∀ held ∈ scopes, held.parentScope ≤ state.clock)
    (epoch : state.worldEpoch = config.state.worldEpoch) (clock : config.state.clock ≤ state.clock) :
    Bygone { config with state, scopes } := by
  refine ⟨aged, open_, fun taken member => ?_⟩
  obtain ⟨earlier, rows⟩ := bygone.snapshots taken member
  dsimp only
  rw [epoch]
  exact ⟨earlier, fun same => (rows same).later clock⟩

/-- So do the checkpoints. -/
theorem within (bygone : Bygone config) {state : WorldState} (aged : Aged state)
    (epoch : state.worldEpoch = config.state.worldEpoch) (clock : config.state.clock ≤ state.clock) :
    Bygone { config with state } :=
  bygone.later aged (fun held member => (bygone.scopes held member).trans clock) epoch clock

theorem vacated {state mid : WorldState} (aged : Aged state)
    (journal : state.transactionActive = false → state.journal = []) (vacated : Vacated env state mid) :
    Aged mid ∧ mid.journal = [] ∧ ¬Running mid ∧ mid.worldEpoch = state.worldEpoch ∧
      mid.clock = state.clock := by
  cases vacated with
  | idle notActive =>
      refine ⟨aged, journal notActive, fun running => ?_, rfl, rfl⟩
      rw [Running, notActive] at running
      cases running
  | discarded running closed unwound =>
      have control := revertJournalTo_control unwound
      have left := aged.unwound unwound
      have listed : Aged (unlisted _) := left.same rfl rfl rfl
      exact ⟨listed.finished, rfl, Bool.false_ne_true, control.worldEpoch, control.clock⟩

theorem step (bygone : Bygone config) (stacked : Stacked config.state config.scopes)
    (stepped : Stepped env config move after) : Bygone after := by
  have aged := bygone.state
  have lifetime : ∀ {clock : Generation}, Running config.state → config.state.clock ≤ clock →
      config.state.lifetime.Past clock :=
    fun running later => (aged.lifetime running).later later
  cases stepped with
  | called aside ends called =>
      obtain ⟨epoch, clock⟩ := called.later
      exact bygone.within (aged.called called) epoch clock
  | transient ran write =>
      cases write with
      | same running same =>
          exact bygone
      | refused running error requests =>
          exact bygone.within (aged.same rfl rfl rfl) rfl (Nat.le_refl _)
      | wrote running changes requests =>
          refine bygone.within (aged.later rfl (Nat.le_refl _) (fun undo member => ?_)
            fun _ => lifetime running (Nat.le_refl _)) rfl (Nat.le_refl _)
          exact (List.mem_cons.mp member).resolve_left fun same => nomatch same
  | cleared running => exact bygone.within (aged.same rfl rfl rfl) rfl (Nat.le_refl _)
  | checkpoint running session =>
      have later : config.state.clock ≤ config.state.clock + 1 := Nat.le_succ _
      refine bygone.later (aged.opened running) (fun held member => ?_) rfl later
      rcases List.mem_cons.mp member with rfl | older
      · exact (lifetime running later).scope
      · exact (bygone.scopes held older).trans later
  | committed stack closes =>
      rename_i held scopes
      rw [stack] at stacked
      have parent := bygone.scopes held (stack ▸ List.mem_cons_self)
      refine bygone.later (aged.committed parent) (fun other member => ?_) rfl (Nat.le_refl _)
      exact bygone.scopes other (stack ▸ List.mem_cons_of_mem _ member)
  | reverted stack closes unwound =>
      rename_i held scopes mid
      have control := revertJournalTo_control unwound
      have parent := bygone.scopes held (stack ▸ List.mem_cons_self)
      refine bygone.later (aged.rewound parent unwound) (fun other member => ?_) control.worldEpoch
        control.clock.ge
      exact (bygone.scopes other (stack ▸ List.mem_cons_of_mem _ member)).trans control.clock.ge
  | begun notActive => exact bygone.within (aged.begun _) rfl (Nat.le_add_right _ 2)
  | openSession running flat =>
      exact bygone.within (aged.rescoped (Nat.le_refl _)) rfl (Nat.le_succ _)
  | closeSession running flat =>
      exact bygone.within (aged.rescoped (Nat.le_refl _)) rfl (Nat.le_succ _)
  | sealed running ran =>
      obtain ⟨-, -, rfl⟩ := sealAttempt_ran (stacked.begun running) ran
      refine bygone.within (aged.later rfl (Nat.le_refl _) (fun _ member => member) fun _ => ?_) rfl
        (Nat.le_refl _)
      exact lifetime running (Nat.le_refl _)
  | retained running closed ran =>
      obtain ⟨left, clock, epoch⟩ := retainAttempt_aged aged ran
      exact bygone.within left epoch clock.ge
  | discarded running closed unwound =>
      obtain ⟨left, -, -, epoch, clock⟩ :=
        @vacated env _ _ aged stacked.journal (.discarded running closed unwound)
      exact bygone.within left epoch clock.ge
  | startedOver notActive =>
      have flat := stacked.closed (stacked.flat notActive)
      refine ⟨.reset env (fun running => ?_) (stacked.journal notActive) ⟨_, rfl⟩,
        fun held member => ?_, fun taken member => ?_⟩
      · have active : config.state.transactionActive = true := running
        rw [notActive] at active
        cases active
      · dsimp only at member
        rw [flat] at member
        cases member
      · obtain ⟨earlier, -⟩ := bygone.snapshots taken member
        exact ⟨earlier.trans (Nat.le_succ _),
          fun same => absurd same (Nat.ne_of_lt (Nat.lt_succ_of_le earlier))⟩
  | captured notActive requests =>
      refine ⟨aged.same rfl rfl rfl, bygone.scopes, fun taken member => ?_⟩
      rcases List.mem_append.mp member with earlier | here
      · exact bygone.snapshots taken earlier
      · obtain rfl := List.mem_singleton.mp here
        have rows := aged.captured
        exact ⟨Nat.le_refl _, fun _ => ⟨rows.account, rows.slot⟩⟩
  | cloned found unresolved requests =>
      refine ⟨aged.same rfl rfl rfl, bygone.scopes, fun taken member => ?_⟩
      rcases List.mem_append.mp member with earlier | here
      · exact bygone.snapshots taken earlier
      · obtain rfl := List.mem_singleton.mp here
        exact bygone.snapshots _ (List.mem_of_getElem? found)
  | refused requests snapshot => exact bygone.within (aged.same rfl rfl rfl) rfl (Nat.le_refl _)
  | restored found epoch unresolved vacates =>
      obtain ⟨left, journal, idle, sameEpoch, clock⟩ := vacated aged stacked.journal vacates
      have held := bygone.snapshots _ (List.mem_of_getElem? found)
      have rows := held.2 epoch
      rw [← clock] at rows
      refine ⟨rows.reinstated journal idle, fun open_ member => ?_, fun taken member => ?_⟩
      · exact (bygone.scopes open_ member).trans clock.ge
      · rcases List.mem_or_eq_of_mem_set member with earlier | rfl
        · obtain ⟨before, aged⟩ := bygone.snapshots taken earlier
          exact ⟨before.trans sameEpoch.ge, fun same => (aged (same.trans sameEpoch)).later clock.ge⟩
        · exact ⟨held.1.trans sameEpoch.ge, fun same => (held.2 epoch).later clock.ge⟩

end Bygone

end Config

end EvmZig.State
