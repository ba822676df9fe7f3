import EvmZig.State.Steps
import EvmZig.Lib.ScopedStore

/-!
# Transient storage

`clearTransientStorage` is meant to be final: no rollback gives back a value
from before it.  The undo entries of the writes before it stay in the journal,
though, so reverting a checkpoint gives back what a slot held when its oldest
entry above the checkpoint was made.
-/

set_option autoImplicit false

namespace EvmZig.State

open Lib Zig

def Entry.transientUndo : Entry → Option (TransientKey × U256)
  | .transientStorage key previous => some (key, previous)
  | _ => none

/-- `journal.transient.items`, newest first. -/
def Journal.transientUndos (journal : Journal) : List (TransientKey × U256) :=
  journal.filterMap Entry.transientUndo

theorem Journal.transientUndos_append (newer older : Journal) :
    Journal.transientUndos (newer ++ older) = newer.transientUndos ++ older.transientUndos :=
  List.filterMap_append

theorem Journal.transientUndos_eq_nil {journal : Journal}
    (none : ∀ entry ∈ journal, ¬entry.OfTransient) : journal.transientUndos = [] := by
  rw [Journal.transientUndos, List.filterMap_eq_nil_iff]
  intro entry member
  have aside := none entry member
  cases entry <;> first | rfl | exact absurd trivial aside

namespace WorldState

variable {env : Env} {licence : Licence} {self after : WorldState}

/-- Transient storage as a map. -/
def transients (self : WorldState) (key : TransientKey) : U256 :=
  self.transientValue key.address key.slot

/-! ## Unwinding -/

/-- Put back what the records saved, newest record first. -/
def putBack : List (TransientKey × U256) → Table TransientKey U256 → Table TransientKey U256
  | [], table => table
  | (key, previous) :: older, table => putBack older (table.put key previous)

theorem transients_put (key : TransientKey) (value : U256) :
    transients { self with transientStorage := self.transientStorage.put key value } =
      Function.update self.transients key value := by
  funext other
  by_cases same : other = key
  · subst same
    rw [Function.update_self]
    exact congrArg (Option.getD · 0) (Table.value_put_same ..)
  · rw [Function.update_of_ne same]
    exact congrArg (Option.getD · 0) (Table.value_put_other _ same _)

theorem transients_putBack (undos : List (TransientKey × U256)) :
    transients { self with transientStorage := putBack undos self.transientStorage } =
      rewind undos self.transients := by
  induction undos generalizing self with
  | nil => rfl
  | cons undo older ih =>
      obtain ⟨key, previous⟩ := undo
      rw [rewind, ← transients_put]
      exact @ih { self with transientStorage := self.transientStorage.put key previous }

theorem Undone.transient {entry : Entry} (undone : Undone self entry after) :
    after.transientStorage = putBack entry.transientUndo.toList self.transientStorage := by
  cases undone <;> rfl

theorem popEntries_transient {count : Nat} (ran : popEntries count self = .ok () after) :
    after.transientStorage =
      putBack (Journal.transientUndos (self.journal.take count)) self.transientStorage := by
  induction count generalizing self with
  | zero =>
      cases ran
      rfl
  | succ count ih =>
      obtain ⟨entry, older, middle, journal, undone, rest⟩ := popEntries_succ ran
      have restored := undoEntry_ran undone
      rw [ih rest, restored.transient, restored.journal, journal, List.take_succ_cons]
      cases entry <;> rfl

theorem revertJournalTo_transient {length : Nat}
    (ran : revertJournalTo length self = .ok () after) :
    after.transientStorage =
      putBack (Journal.transientUndos (above self.journal length)) self.transientStorage :=
  popEntries_transient ran

/-- Calls on anything else leave transient storage and its entries alone. -/
theorem Called.pushes (called : Called env licence self after) :
    Pushes (fun entry => ¬entry.OfTransient) self after := by
  have aside : ∀ entry : Entry, entry.OfRow → ¬entry.OfTransient := by
    intro entry ofRow
    cases entry <;> first | exact ofRow.elim | exact not_false
  cases called with
  | changed steps => exact steps.pushes
  | settled final running steps closes =>
      obtain ⟨-, rfl⟩ := commitCheckpoint_ran closes
      have inner := steps.pushes.weaken aside
      exact ⟨inner.journal, inner.transient, inner.active,
        congrArg (· - 1) inner.scopeDepth, inner.transaction⟩
  | abandoned final running steps closes =>
      obtain ⟨-, mid, unwound, rfl⟩ := revertToCheckpoint_ran closes
      rename_i inner
      have pushed := steps.pushes.weaken aside
      obtain ⟨newer, journal, kinds, -⟩ := pushed.journal
      have rewinds : revertJournalTo self.journal.length inner.flagged = .ok () mid := unwound
      have control := revertJournalTo_control rewinds
      have flaggedJournal : inner.flagged.journal = newer ++ self.journal := journal
      have popped : above inner.flagged.journal self.journal.length = newer := by
        rw [flaggedJournal, above_push (Nat.le_refl _), above_self, List.append_nil]
      refine ⟨⟨[], ?_, fun _ member => (nomatch member), fun _ => rfl⟩, ?_, ?_, ?_, ?_⟩
      · have left := revertJournalTo_journal rewinds
        rw [flaggedJournal, below_push (Nat.le_refl _), below_self] at left
        exact left
      · have restored := revertJournalTo_transient rewinds
        rw [popped, Journal.transientUndos_eq_nil kinds] at restored
        exact restored.trans pushed.transient
      · exact control.transactionActive.trans pushed.active
      · exact congrArg (· - 1) (control.scopeDepth.trans pushed.scopeDepth)
      · exact (congrArg Lifetimes.transaction control.lifetime).trans pushed.transaction

/-! ## Open checkpoints -/

/-- Each open checkpoint lies in the journal of the one around it. -/
def Inside : Journal → List Checkpoint → Prop
  | _, [] => True
  | journal, held :: scopes =>
      held.journalLen ≤ journal.length ∧ Inside (below journal held.journalLen) scopes

/-- The transient undo records made under each open checkpoint. -/
def segments : Journal → List Checkpoint → List (List (TransientKey × U256))
  | _, [] => []
  | journal, held :: scopes =>
      Journal.transientUndos (above journal held.journalLen) ::
        segments (below journal held.journalLen) scopes

variable {newer journal : Journal} {scopes : List Checkpoint} {held : Checkpoint}

theorem Inside.push (inside : Inside journal scopes) : Inside (newer ++ journal) scopes := by
  cases scopes with
  | nil => trivial
  | cons held scopes =>
      refine ⟨inside.1.trans ?_, ?_⟩
      · rw [List.length_append]
        exact Nat.le_add_left _ _
      · rw [below_push inside.1]
        exact inside.2

theorem Inside.commit (inside : Inside journal (held :: scopes)) : Inside journal scopes := by
  rw [← above_append_below journal held.journalLen]
  exact inside.2.push

theorem segments_push (inside : Inside journal scopes) (aside : newer.transientUndos = []) :
    segments (newer ++ journal) scopes = segments journal scopes := by
  cases scopes with
  | nil => rfl
  | cons held scopes =>
      rw [segments, segments, above_push inside.1, below_push inside.1,
        Journal.transientUndos_append, aside, List.nil_append]

theorem segments_record (inside : Inside journal scopes) (key : TransientKey) (previous : U256) :
    segments (.transientStorage key previous :: journal) scopes =
      Tracks.record (key, previous) (segments journal scopes) := by
  cases scopes with
  | nil => rfl
  | cons held scopes =>
      have pushed : Entry.transientStorage key previous :: journal =
          [.transientStorage key previous] ++ journal := rfl
      rw [segments, segments, pushed, above_push inside.1, below_push inside.1,
        Journal.transientUndos_append]
      rfl

theorem segments_commit (inside : Inside journal (held :: scopes)) :
    segments journal scopes = Tracks.merge (Journal.transientUndos (above journal held.journalLen))
      (segments (below journal held.journalLen) scopes) := by
  cases scopes with
  | nil => rfl
  | cons outer scopes =>
      have inner := inside.2.1
      conv_lhs => rw [← above_append_below journal held.journalLen]
      rw [segments, segments, above_push inner, below_push inner, Journal.transientUndos_append]
      rfl

theorem segments_open (journal : Journal) (scopes : List Checkpoint)
    (length : held.journalLen = journal.length) :
    segments journal (held :: scopes) = [] :: segments journal scopes := by
  rw [segments, length, above_self, below_self]
  rfl

/-! ## Runs -/

/-- What every run keeps: the journal lies under the open checkpoints, and nothing of an attempt
is left between attempts. -/
structure Stacked (state : WorldState) (scopes : List Checkpoint) : Prop where
  inside : Inside state.journal scopes
  depth : state.scopeDepth = scopes.length + 1 ∨ state.scopeDepth = 0 ∧ scopes = []
  begun : Running state → state.lifetime.transaction ≠ 0
  journal : state.transactionActive = false → state.journal = []
  transient : state.transactionActive = false → state.transientStorage = Table.empty
  flat : state.transactionActive = false → state.scopeDepth = 0

namespace Stacked

variable {config last : Config} {state : WorldState}

theorem init (genesis : Genesis) : Stacked (Config.init genesis).state (Config.init genesis).scopes where
  inside := trivial
  depth := .inr ⟨rfl, rfl⟩
  begun running := nomatch running
  journal _ := rfl
  transient _ := rfl
  flat _ := rfl

/-- With no session deeper than one scope there is no open checkpoint. -/
theorem shallow (stacked : Stacked state scopes) (shallow : state.scopeDepth ≤ 1) : scopes = [] := by
  rcases stacked.depth with depth | ⟨-, none⟩
  · rw [depth] at shallow
    exact List.eq_nil_of_length_eq_zero (Nat.le_zero.mp (Nat.le_of_succ_le_succ shallow))
  · exact none

theorem closed (stacked : Stacked state scopes) (closed : state.scopeDepth = 0) : scopes = [] :=
  stacked.shallow (by rw [closed]; exact Nat.zero_le 1)

theorem pushes (stacked : Stacked self scopes) {kind : Entry → Prop}
    (pushes : Pushes kind self after) : Stacked after scopes where
  inside := by
    obtain ⟨newer, journal, -⟩ := pushes.journal
    rw [journal]
    exact stacked.inside.push
  depth := by
    rw [pushes.scopeDepth]
    exact stacked.depth
  begun running := by
    rw [pushes.transaction]
    exact stacked.begun (pushes.active.symm.trans running)
  journal idle := by
    have notActive := pushes.active.symm.trans idle
    obtain ⟨newer, journal, -, none⟩ := pushes.journal
    rw [journal, none notActive, stacked.journal notActive]
    rfl
  transient idle := pushes.transient.trans (stacked.transient (pushes.active.symm.trans idle))
  flat idle := pushes.scopeDepth.trans (stacked.flat (pushes.active.symm.trans idle))

/-- A state inside an attempt. -/
theorem running (running : Running after) (begun : after.lifetime.transaction ≠ 0)
    (inside : Inside after.journal scopes)
    (depth : after.scopeDepth = scopes.length + 1 ∨ after.scopeDepth = 0 ∧ scopes = []) :
    Stacked after scopes := by
  have contradiction : after.transactionActive = false → False := by
    intro idle
    rw [Running, idle] at running
    cases running
  exact ⟨inside, depth, fun _ => begun, fun idle => (contradiction idle).elim,
    fun idle => (contradiction idle).elim, fun idle => (contradiction idle).elim⟩

/-- A state between attempts. -/
theorem between (notActive : after.transactionActive = false) (journal : after.journal = [])
    (transient : after.transientStorage = Table.empty) (flat : after.scopeDepth = 0)
    (none : scopes = []) : Stacked after scopes where
  inside := by
    rw [none]
    trivial
  depth := .inr ⟨flat, none⟩
  begun running := by
    rw [Running, notActive] at running
    cases running
  journal _ := journal
  transient _ := transient
  flat _ := flat

theorem asks (stacked : Stacked self scopes) (requests : Nat) :
    Stacked (asked requests self) scopes :=
  ⟨stacked.inside, stacked.depth, stacked.begun, stacked.journal, stacked.transient, stacked.flat⟩

theorem opened (stacked : Stacked self scopes) (running : Running self) (session : self.SessionActive) :
    Stacked (WorldState.opened self) (mark self :: scopes) := by
  refine Stacked.running running (stacked.begun running) ⟨Nat.le_refl _, ?_⟩ (.inl ?_)
  · have whole : Inside (below self.journal self.journal.length) scopes := by
      rw [below_self]
      exact stacked.inside
    exact whole
  · rcases stacked.depth with depth | ⟨none, -⟩
    · exact congrArg (· + 1) depth
    · exact absurd none session

/-- Closing a checkpoint takes it off the stack. -/
theorem popped (stacked : Stacked self (held :: scopes)) (closes : Closes held self)
    (active : after.transactionActive = self.transactionActive)
    (transaction : after.lifetime.transaction = self.lifetime.transaction)
    (scopeDepth : after.scopeDepth = self.scopeDepth - 1) (inside : Inside after.journal scopes) :
    Stacked after scopes := by
  refine Stacked.running (active.trans closes.running) ?_ inside (.inl ?_)
  · rw [transaction]
    exact stacked.begun closes.running
  · rcases stacked.depth with depth | ⟨none, -⟩
    · rw [scopeDepth, depth]
      rfl
    · exact absurd none closes.session

/-- Every move keeps it. -/
theorem step {move : Move} (stacked : Stacked config.state config.scopes)
    (stepped : Config.Stepped env config move last) : Stacked last.state last.scopes := by
  cases stepped with
  | called aside ends called => exact stacked.pushes called.pushes
  | transient ran write =>
      cases write with
      | same running same =>
          exact stacked
      | refused running error requests =>
          exact Stacked.running running (stacked.begun running) stacked.inside stacked.depth
      | wrote running changes requests =>
          exact Stacked.running running (stacked.begun running)
            (@Inside.push [_] _ _ stacked.inside) stacked.depth
  | cleared running =>
      exact Stacked.running running (stacked.begun running) stacked.inside stacked.depth
  | checkpoint running session => exact stacked.opened running session
  | committed stack closes =>
      rw [stack] at stacked
      exact stacked.popped closes rfl rfl rfl stacked.inside.commit
  | reverted stack closes unwound =>
      rw [stack] at stacked
      have control := revertJournalTo_control unwound
      have left := revertJournalTo_journal unwound
      rename_i held scopes mid
      have transaction : mid.lifetime.transaction = config.state.lifetime.transaction :=
        congrArg (fun lifetime : Lifetimes => lifetime.transaction) control.lifetime
      refine stacked.popped closes control.transactionActive transaction
        (congrArg (· - 1) control.scopeDepth) ?_
      exact left.symm ▸ stacked.inside.2
  | begun notActive =>
      refine Stacked.running rfl (Nat.succ_ne_zero _) stacked.inside ?_
      exact .inr ⟨stacked.flat notActive, stacked.closed (stacked.flat notActive)⟩
  | openSession running flat =>
      refine Stacked.running running (stacked.begun running) stacked.inside (.inl ?_)
      rw [stacked.closed flat]
      rfl
  | closeSession running flat =>
      exact Stacked.running running (stacked.begun running) stacked.inside
        (.inr ⟨rfl, stacked.shallow flat.le⟩)
  | sealed running ran =>
      obtain ⟨-, -, rfl⟩ := sealAttempt_ran (stacked.begun running) ran
      exact Stacked.running running (stacked.begun running) stacked.inside stacked.depth
  | retained running closed ran => exact between rfl rfl rfl rfl (stacked.closed closed)
  | discarded running closed unwound => exact between rfl rfl rfl rfl (stacked.closed closed)
  | startedOver notActive =>
      exact between notActive (stacked.journal notActive) (stacked.transient notActive)
        (stacked.flat notActive) (stacked.closed (stacked.flat notActive))
  | captured notActive requests => exact stacked.asks requests
  | cloned found unresolved requests => exact stacked.asks requests
  | refused requests snapshot => exact stacked.asks requests
  | restored found epoch unresolved vacated =>
      cases vacated with
      | idle notActive =>
          exact between notActive (stacked.journal notActive) (stacked.transient notActive)
            (stacked.flat notActive) (stacked.closed (stacked.flat notActive))
      | discarded running closed unwound => exact between rfl rfl rfl rfl (stacked.closed closed)

end Stacked

end WorldState

/-! ## Clearing for good -/

/-- Transient storage as it is meant: clearing takes along what open checkpoints go back to. -/
abbrev TransientStore : Type := ScopedStore TransientKey U256

namespace Config

open WorldState

variable {env : Env} {config after : Config} {store : TransientStore} {move : Move}

/-- What a move that succeeds makes of transient storage. -/
def nextStore (env : Env) (config : Config) (store : TransientStore) : Move → TransientStore
  | .call (.setTransientStorage address slot value) =>
      match WorldState.setTransientStorage env address slot value config.state with
      | .ok _ _ => store.write ⟨address, slot⟩ value
      | _ => store
  | .call .clearTransientStorage => store.wipe 0
  | .checkpoint => store.openScope
  | .commitCheckpoint => store.commit
  | .revertToCheckpoint => store.revert
  | .retainAttempt => .start 0
  | .discardAttempt => .start 0
  | .restoreBranch _ => .start 0
  | _ => store

/-- No slot that held something when the checkpoint was opened was written between then and a clear
that the checkpoint is still open for. -/
def RevertsHarmlessly (config : Config) (store : TransientStore) : Prop :=
  ∀ held scopes saved outer, config.scopes = held :: scopes → store.scopes = saved :: outer →
    Harmless 0 (Journal.transientUndos (above config.state.journal held.journalLen)) saved

/-- Transient storage is as it is meant to be, and what it holds was written since it was cleared. -/
structure ClearedForGood (config : Config) (store : TransientStore) : Prop where
  reads : ∀ address slot, config.state.transientValue address slot = store.current ⟨address, slot⟩
  fresh : ∀ address slot, config.state.transientValue address slot ≠ 0 →
    (⟨address, slot⟩, config.state.transientValue address slot) ∈ store.written

/-- A property of every configuration of a run. -/
def Throughout (env : Env) (property : Config → TransientStore → Prop) (config : Config)
    (store : TransientStore) : List Move → Prop
  | [] => property config store
  | move :: moves => property config store ∧ ∀ next, config.step env move = some next →
      next.Throughout env property (config.nextStore env store move) moves

/-- A property of every configuration a run reverts a checkpoint in. -/
def AtReverts (env : Env) (property : Config → TransientStore → Prop) (config : Config)
    (store : TransientStore) : List Move → Prop
  | [] => True
  | move :: moves => (∀ next, config.step env move = some next →
      (move = .revertToCheckpoint → property config store) ∧
        next.AtReverts env property (config.nextStore env store move) moves)

/-- The state follows the store. -/
structure Accords (config : Config) (store : TransientStore) : Prop where
  stacked : Stacked config.state config.scopes
  current : config.state.transients = store.current
  tracks : Tracks 0 store.current (segments config.state.journal config.scopes) store.scopes
  fresh : store.Fresh 0

theorem Accords.clearedForGood (accords : Accords config store) : ClearedForGood config store := by
  have reads : ∀ address slot,
      config.state.transientValue address slot = store.current ⟨address, slot⟩ :=
    fun address slot => congrFun accords.current ⟨address, slot⟩
  refine ⟨reads, fun address slot held => ?_⟩
  rw [reads] at held ⊢
  exact accords.fresh.current _ held

theorem accords_init (genesis : Genesis) : Accords (init genesis) (.start 0) where
  stacked := Stacked.init genesis
  current := rfl
  tracks := .root
  fresh := .start

theorem transients_of_storage {self state : WorldState}
    (same : state.transientStorage = self.transientStorage) : state.transients = self.transients := by
  funext key
  rw [transients, transients, transientValue, transientValue, same]

theorem transients_of_empty {state : WorldState} (empty : state.transientStorage = Table.empty) :
    state.transients = fun _ => 0 := by
  funext key
  rw [transients, transientValue, empty]
  rfl

/-- A move that leaves transient storage, its undo records and the checkpoints alone. -/
theorem Accords.same (accords : Accords config store) (stacked : Stacked after.state after.scopes)
    (storage : after.state.transientStorage = config.state.transientStorage)
    (journal : segments after.state.journal after.scopes =
      segments config.state.journal config.scopes) : Accords after store where
  stacked := stacked
  current := (transients_of_storage storage).trans accords.current
  tracks := by
    rw [journal]
    exact accords.tracks
  fresh := accords.fresh

/-- Transient storage is empty, and no checkpoint is open. -/
theorem accords_start (stacked : Stacked after.state after.scopes)
    (empty : after.state.transientStorage = Table.empty) (none : after.scopes = []) :
    Accords after (.start 0) where
  stacked := stacked
  current := transients_of_empty empty
  tracks := by
    rw [none]
    exact .root
  fresh := .start

theorem nextStore_aside {op : Op} (aside : op.writesTransient = false) :
    config.nextStore env store (.call op) = store := by
  cases op with
  | setTransientStorage address slot value => cases aside
  | clearTransientStorage => cases aside
  | _ => rfl

theorem Accords.write {address : Address} {slot value : U256}
    {outcome : Outcome WorldState StateError Unit} {state : WorldState}
    (accords : Accords config store) (stacked : Stacked state config.scopes)
    (ran : WorldState.setTransientStorage env address slot value config.state = outcome)
    (write : TransientEnd ⟨address, slot⟩ value config.state outcome state) :
    Accords { config with state }
      (config.nextStore env store (.call (.setTransientStorage address slot value))) := by
  have inside := accords.stacked.inside
  unfold nextStore
  dsimp only
  rw [ran]
  cases write with
  | refused running error requests =>
      exact accords.same stacked rfl rfl
  | same running unchanged =>
      have kept : (store.write ⟨address, slot⟩ value).current = store.current := by
        have held : store.current ⟨address, slot⟩ = value :=
          (congrFun accords.current ⟨address, slot⟩).symm.trans unchanged
        rw [ScopedStore.write, ← held]
        exact Function.update_eq_self _ _
      refine ⟨stacked, accords.current.trans kept.symm, ?_, accords.fresh.write _ _⟩
      rw [kept]
      exact accords.tracks
  | wrote running changes requests =>
      refine ⟨stacked, ?_, ?_, accords.fresh.write _ _⟩
      · have written := @transients_put config.state ⟨address, slot⟩ value
        rw [accords.current] at written
        exact written
      · have held : config.state.transientValue address slot = store.current ⟨address, slot⟩ :=
          congrFun accords.current ⟨address, slot⟩
        have tracks := accords.tracks.write ⟨address, slot⟩ value
        rw [← held, ← segments_record inside] at tracks
        exact tracks

/-- Any move but a revert keeps the store in step. -/
theorem Accords.step (accords : Accords config store) (stepped : Stepped env config move after)
    (notRevert : move ≠ .revertToCheckpoint) : Accords after (config.nextStore env store move) := by
  have stacked := accords.stacked.step stepped
  have inside := accords.stacked.inside
  cases stepped with
  | called aside ends called =>
      rw [nextStore_aside aside]
      obtain ⟨newer, journal, kinds, -⟩ := called.pushes.journal
      refine accords.same stacked called.pushes.transient ?_
      dsimp only
      rw [journal]
      exact segments_push inside (Journal.transientUndos_eq_nil kinds)
  | transient ran write => exact accords.write stacked ran write
  | cleared running =>
      exact ⟨stacked, transients_of_empty rfl, accords.tracks.wipe, .wipe⟩
  | checkpoint running session =>
      refine ⟨stacked, accords.current, ?_, accords.fresh.openScope⟩
      have opened : segments config.state.journal (mark config.state :: config.scopes) = _ :=
        segments_open _ _ rfl
      exact opened ▸ accords.tracks.openScope
  | committed stack closes =>
      refine ⟨stacked, accords.current, ?_, accords.fresh.commit⟩
      have tracks := accords.tracks
      rw [stack] at tracks inside
      obtain ⟨saved, outer, savedEq⟩ := tracks.scopes_cons
      rw [savedEq] at tracks
      have merged := tracks.commit
      rw [← segments_commit inside] at merged
      have tail : store.commit.scopes = outer := congrArg List.tail savedEq
      rw [nextStore, tail]
      exact merged
  | reverted stack closes unwound => exact absurd rfl notRevert
  | begun notActive => exact accords.same stacked rfl rfl
  | openSession running flat => exact accords.same stacked rfl rfl
  | closeSession running flat => exact accords.same stacked rfl rfl
  | sealed running ran =>
      obtain ⟨-, -, rfl⟩ := sealAttempt_ran (accords.stacked.begun running) ran
      exact accords.same stacked rfl rfl
  | retained running closed ran =>
      exact accords_start stacked rfl (accords.stacked.closed closed)
  | discarded running closed unwound =>
      exact accords_start stacked rfl (accords.stacked.closed closed)
  | startedOver notActive => exact accords.same stacked rfl rfl
  | captured notActive requests => exact accords.same stacked rfl rfl
  | cloned found unresolved requests => exact accords.same stacked rfl rfl
  | refused requests snapshot =>
      rcases snapshot with rfl | ⟨index, rfl⟩
      · exact accords.same stacked rfl rfl
      · exact accords.same stacked rfl rfl
  | restored found epoch unresolved vacated =>
      cases vacated with
      | idle notActive =>
          exact accords_start stacked (accords.stacked.transient notActive)
            (accords.stacked.closed (accords.stacked.flat notActive))
      | discarded running closed unwound =>
          exact accords_start stacked rfl (accords.stacked.closed closed)

/-- A revert keeps the store in step just where it is harmless. -/
theorem Accords.revert_iff (accords : Accords config store)
    (stepped : Stepped env config .revertToCheckpoint after) :
    (after.state.transients = store.revert.current ↔ config.RevertsHarmlessly store) ∧
      (config.RevertsHarmlessly store → Accords after store.revert) := by
  have stacked := accords.stacked.step stepped
  cases stepped with
  | reverted stack closes unwound =>
      rename_i held scopes mid
      have tracks := accords.tracks
      rw [stack, segments] at tracks
      obtain ⟨saved, outer, savedEq⟩ := tracks.scopes_cons
      rw [savedEq] at tracks
      have left : mid.journal = below config.state.journal held.journalLen :=
        (revertJournalTo_journal unwound).trans rfl
      have reverted : store.revert = { store with current := saved.values, scopes := outer } := by
        rw [ScopedStore.revert, savedEq]
      have restored : (rewoundTo held mid).transients =
          rewind (Journal.transientUndos (above config.state.journal held.journalLen))
            store.current := by
        have storage := revertJournalTo_transient unwound
        rw [← accords.current, ← transients_putBack]
        exact transients_of_storage storage
      have harmless : config.RevertsHarmlessly store ↔
          Harmless 0 (Journal.transientUndos (above config.state.journal held.journalLen)) saved := by
        refine ⟨fun all => all held scopes saved outer stack savedEq, ?_⟩
        intro here other _ otherSaved _ otherStack otherSavedEq
        rw [stack] at otherStack
        rw [savedEq] at otherSavedEq
        cases otherStack
        cases otherSavedEq
        exact here
      have unwinds := tracks.unwound_iff
      rw [harmless, restored, reverted]
      refine ⟨unwinds, fun here => ⟨stacked, restored.trans (unwinds.mpr here), ?_, ?_⟩⟩
      · dsimp only
        rw [show (rewoundTo held mid).journal = _ from left]
        exact tracks.revert
      · rw [← reverted]
        exact accords.fresh.revert
  | refused requests snapshot => rcases snapshot with same | ⟨index, same⟩ <;> cases same

theorem Throughout.head {property : Config → TransientStore → Prop} {moves : List Move}
    (all : config.Throughout env property store moves) : property config store := by
  cases moves with
  | nil => exact all
  | cons move moves => exact all.1

theorem Accords.all (accords : Accords config store) {moves : List Move} :
    config.Throughout env ClearedForGood store moves ↔
      config.AtReverts env RevertsHarmlessly store moves := by
  induction moves generalizing config store with
  | nil => exact ⟨fun _ => trivial, fun _ => accords.clearedForGood⟩
  | cons move moves ih =>
      refine ⟨fun all next ran => ?_, fun harmless => ⟨accords.clearedForGood, fun next ran => ?_⟩⟩
      · have rest := all.2 next ran
        have stepped := step_cases ran
        by_cases isRevert : move = .revertToCheckpoint
        · subst isRevert
          obtain ⟨exact_, keeps⟩ := accords.revert_iff stepped
          have agrees : next.state.transients = store.revert.current := by
            funext key
            exact rest.head.reads key.address key.slot
          have harmless := exact_.mp agrees
          exact ⟨fun _ => harmless, (ih (keeps harmless)).mp rest⟩
        · exact ⟨fun same => absurd same isRevert,
            (ih (accords.step stepped isRevert)).mp rest⟩
      · have stepped := step_cases ran
        obtain ⟨here, rest⟩ := harmless next ran
        by_cases isRevert : move = .revertToCheckpoint
        · subst isRevert
          exact (ih ((accords.revert_iff stepped).2 (here rfl))).mpr rest
        · exact (ih (accords.step stepped isRevert)).mpr rest

/-- In every run, transient storage stays cleared at every point just where no revert goes back over
a write of before a clear to a slot that the checkpoint found in use. -/
theorem transientStorage_clearedForGood (genesis : Genesis) (moves : List Move) :
    (init genesis).Throughout genesis.env ClearedForGood (.start 0) moves ↔
      (init genesis).AtReverts genesis.env RevertsHarmlessly (.start 0) moves :=
  (accords_init genesis).all

/-- A run with the store beside it. -/
def track (env : Env) (config : Config) (store : TransientStore) :
    List Move → Option (Config × TransientStore)
  | [] => some (config, store)
  | move :: moves => (config.step env move).bind fun next =>
      next.track env (config.nextStore env store move) moves

theorem Throughout.last {property : Config → TransientStore → Prop} {moves : List Move}
    {last : Config × TransientStore} (all : config.Throughout env property store moves)
    (ran : config.track env store moves = some last) : property last.1 last.2 := by
  induction moves generalizing config store with
  | nil =>
      cases ran
      exact all
  | cons move moves ih =>
      obtain ⟨next, stepped, rest⟩ := Option.bind_eq_some_iff.mp ran
      exact ih (all.2 next stepped) rest

/-- A slot in use when the checkpoint is opened is written under it, then everything is cleared. -/
def resurrectingRun : List Move :=
  [.beginAttempt false, .openSession, .call (.setTransientStorage (addressOf 1) 4 5), .checkpoint,
    .call (.setTransientStorage (addressOf 1) 4 7), .call .clearTransientStorage,
    .revertToCheckpoint]

/-- The revert gives back the first value. -/
theorem clearTransientStorage_resurrects :
    (((init bare).exec bare.env resurrectingRun).map fun last =>
      last.state.transientValue (addressOf 1) 4) = some 5 ∧
    ¬(init bare).Throughout bare.env ClearedForGood (.start 0) resurrectingRun := by
  have values : (((init bare).track bare.env (.start 0) resurrectingRun).map fun last =>
      (last.1.state.transientValue (addressOf 1) 4, last.2.written)) = some (5, []) := by
    decide +kernel
  refine ⟨by decide +kernel, fun all => ?_⟩
  obtain ⟨last, ran, values⟩ := Option.map_eq_some_iff.mp values
  obtain ⟨reads, written⟩ := Prod.mk.inj values
  have cleared := (all.last ran).fresh (addressOf 1) 4
  rw [reads, written] at cleared
  exact List.not_mem_nil (cleared (by decide))

end Config

end EvmZig.State
