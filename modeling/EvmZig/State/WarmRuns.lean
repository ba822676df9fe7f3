import EvmZig.State.WarmCalls
import EvmZig.State.Aged

/-!
# Warmth as a set of keys

The reference keeps the keys that were reported cold and not rolled back since,
with what it held at each open checkpoint.  In every run the statuses reported
are those of the reference.
-/

set_option autoImplicit false

namespace EvmZig.State

open Lib Zig

namespace WorldState

variable {env : Env} {licence : Licence} {self after : WorldState}

/-! ## The set at every open checkpoint -/

/-- The keys warm at present, as a set that open checkpoints go back to. -/
abbrev WarmSet : Type := ScopedStore WarmKey Bool

/-- Each set holds the keys warmed before the checkpoint it is for. -/
def Holding (state : WorldState) :
    Journal → List Checkpoint → (WarmKey → Bool) → List (Saved WarmKey Bool) → Prop
  | journal, [], current, saved =>
      (∀ key, current key = true ↔ key ∈ state.warmKeys journal) ∧ saved = []
  | journal, held :: scopes, current, saved =>
      (∀ key, current key = true ↔ key ∈ state.warmKeys journal) ∧
        ∃ outer older, saved = outer :: older ∧
          state.Holding (below journal held.journalLen) scopes outer.values older

section Holding

variable {journal newer : Journal} {scopes : List Checkpoint} {held : Checkpoint}
  {current later : WarmKey → Bool} {saved : List (Saved WarmKey Bool)}

theorem Holding.keys (holding : self.Holding journal scopes current saved) (key : WarmKey) :
    current key = true ↔ key ∈ self.warmKeys journal := by
  cases scopes with
  | nil => exact holding.1 key
  | cons held scopes => exact holding.1 key

theorem Holding.kept (holding : self.Holding journal scopes current saved)
    (same : ∀ older, (∀ entry ∈ older, entry ∈ journal) →
      after.warmKeys older = self.warmKeys older) : after.Holding journal scopes current saved := by
  induction scopes generalizing journal current saved with
  | nil =>
      refine ⟨fun key => ?_, holding.2⟩
      rw [same journal fun _ member => member]
      exact holding.1 key
  | cons held scopes ih =>
      obtain ⟨keys, outer, older, rfl, inner⟩ := holding
      refine ⟨fun key => ?_, outer, older, rfl, ih inner fun entries within => ?_⟩
      · rw [same journal fun _ member => member]
        exact keys key
      · exact same entries fun entry member => List.mem_of_mem_drop (within entry member)

/-- Entries on top, and a set that accounts for them. -/
theorem Holding.push (holding : self.Holding journal scopes current saved)
    (inside : Inside journal scopes)
    (keys : ∀ key, later key = true ↔ key ∈ self.warmKeys (newer ++ journal)) :
    self.Holding (newer ++ journal) scopes later saved := by
  cases scopes with
  | nil => exact ⟨keys, holding.2⟩
  | cons held scopes =>
      obtain ⟨-, outer, older, rfl, inner⟩ := holding
      refine ⟨keys, outer, older, rfl, ?_⟩
      rw [below_push inside.1]
      exact inner

theorem Holding.opened (holding : self.Holding journal scopes current saved)
    (length : held.journalLen = journal.length) (wiped : Bool) :
    self.Holding journal (held :: scopes) current (⟨current, wiped⟩ :: saved) := by
  refine ⟨holding.keys, _, _, rfl, ?_⟩
  rw [length, below_self]
  exact holding

theorem Holding.committed (holding : self.Holding journal (held :: scopes) current saved)
    (inside : Inside journal (held :: scopes)) : self.Holding journal scopes current saved.tail := by
  obtain ⟨keys, outer, older, rfl, inner⟩ := holding
  rw [← above_append_below journal held.journalLen] at keys ⊢
  exact inner.push inside.2 keys

end Holding

/-- The marks of an attempt are in order, and the sets are those of its checkpoints. -/
structure Followed (env : Env) (state : WorldState) (scopes : List Checkpoint) (store : WarmSet) :
    Prop where
  journaled : Journaled env state
  holding : state.Holding state.journal scopes store.current store.scopes

namespace Followed

variable {scopes : List Checkpoint} {store : WarmSet} {key : WarmKey}

theorem isWarm (followed : Followed env self scopes store) (key : WarmKey) :
    self.isWarm env key = store.current key := by
  rw [Bool.eq_iff_iff, followed.journaled.isWarm_iff, followed.holding.keys]

/-- A call that warms nothing. -/
theorem grown (followed : Followed env self scopes store) (inside : Inside self.journal scopes)
    (grown : Extends env self after []) : Followed env after scopes store := by
  have kept := followed.holding.kept grown.kept
  have keys : ∀ key, store.current key = true ↔ key ∈ after.warmKeys after.journal := by
    intro key
    rw [grown.warmKeys]
    exact followed.holding.keys key
  obtain ⟨newer, journal, -⟩ := grown.journal
  rw [journal] at keys
  refine ⟨grown.journaled, ?_⟩
  rw [journal]
  exact kept.push inside keys

/-- A call that warms a key. -/
theorem adds (followed : Followed env self scopes store) (inside : Inside self.journal scopes)
    (adds : Adds env key self after) : Followed env after scopes (store.write key true) := by
  have updated : ∀ other, (store.write key true).current other = true ↔
      other = key ∨ store.current other = true := by
    intro other
    rw [ScopedStore.write]
    by_cases same : other = key
    · simp [same]
    · simp [same]
  rcases adds with grown | ⟨warm, grown⟩
  · have kept := followed.holding.kept grown.kept
    have keys : ∀ other, (store.write key true).current other = true ↔
        other ∈ after.warmKeys after.journal := by
      intro other
      rw [grown.warmKeys, updated, followed.holding.keys, List.singleton_append, List.mem_cons]
    obtain ⟨newer, journal, -⟩ := grown.journal
    rw [journal] at keys
    refine ⟨grown.journaled, ?_⟩
    rw [journal]
    exact kept.push inside keys
  · have same : (store.write key true).current = store.current := by
      rw [followed.isWarm] at warm
      rw [ScopedStore.write, ← warm]
      exact Function.update_eq_self _ _
    have left := followed.grown inside grown
    refine ⟨left.journaled, ?_⟩
    rw [same]
    exact left.holding

theorem sound (followed : Followed env self scopes store) (begun : self.lifetime.transaction ≠ 0) :
    Sound env self := ⟨followed.journaled, begun⟩

/-- The marks stay where they are. -/
theorem same (followed : Followed env self scopes store) (inside : Inside self.journal scopes)
    (world : after.world = self.world) (deferred : after.deferredWarmth = self.deferredWarmth)
    (transaction : after.lifetime.transaction = self.lifetime.transaction)
    (journal : after.journal = self.journal) : Followed env after scopes store :=
  followed.grown inside (.same followed.journaled world deferred transaction
    ⟨[], journal, fun _ member => nomatch member⟩)

theorem opened (followed : Followed env self scopes store) (inside : Inside self.journal scopes) :
    Followed env (opened self) (mark self :: scopes) store.openScope := by
  have opens : Followed env (WorldState.opened self) scopes store :=
    followed.same inside rfl rfl rfl rfl
  exact ⟨opens.journaled, opens.holding.opened rfl false⟩

theorem committed {held : Checkpoint} (followed : Followed env self (held :: scopes) store)
    (inside : Inside self.journal (held :: scopes)) (scope : Generation) :
    Followed env (WorldState.committed scope self) scopes store.commit := by
  have closed : Followed env (WorldState.committed scope self) (held :: scopes) store :=
    followed.same inside rfl rfl rfl rfl
  exact ⟨closed.journaled, closed.holding.committed inside⟩

/-- Unwinding takes off what was warmed since. -/
theorem reverted {held : Checkpoint} {mid : WorldState}
    (followed : Followed env self (held :: scopes) store)
    (inside : Inside self.journal (held :: scopes)) (begun : self.lifetime.transaction ≠ 0)
    (unwound : revertJournalTo held.journalLen self.flagged = .ok () mid) :
    Followed env (rewoundTo held mid) scopes store.revert := by
  have flagged : Followed env self.flagged (held :: scopes) store :=
    followed.same inside rfl rfl rfl rfl
  have pops : popEntries (self.flagged.journal.length - held.journalLen) self.flagged =
      .ok () mid := unwound
  obtain ⟨journaled, keys⟩ := flagged.journaled.unwound begun pops
  have left : mid.journal = below self.journal held.journalLen :=
    (revertJournalTo_journal unwound).trans rfl
  obtain ⟨-, outer, older, savedEq, inner⟩ := flagged.holding
  have restored : mid.Holding mid.journal scopes outer.values older := by
    rw [left]
    exact inner.kept keys
  have reverts : store.revert = { store with current := outer.values, scopes := older } := by
    rw [ScopedStore.revert, savedEq]
  rw [reverts]
  have insideMid : Inside mid.journal scopes := left ▸ inside.2
  have mids : Followed env mid scopes { store with current := outer.values, scopes := older } :=
    ⟨journaled, restored⟩
  exact mids.same insideMid rfl rfl rfl rfl

end Followed

/-- An attempt starts with nothing warm. -/
theorem followed_begun {observe : Bool} (aged : Aged self) (journal : self.journal = [])
    (deferred : self.deferredWarmth = ⟨Table.empty, Table.empty⟩) :
    Followed env (begun observe self) [] (.start false) := by
  have unmarked : ∀ entry, ¬(begun observe self).Marked entry := by
    intro entry marked
    cases entry with
    | warmAccount id =>
        obtain ⟨row, held, stamp⟩ := Option.map_eq_some_iff.mp marked
        have past := (aged.account id row held).warmed
        rw [stamp] at past
        exact Nat.not_succ_le_self _ past
    | warmStorage id =>
        obtain ⟨row, held, stamp⟩ := Option.map_eq_some_iff.mp marked
        have past := (aged.slot id row held).warmed
        rw [stamp] at past
        exact Nat.not_succ_le_self _ past
    | deferredWarmAccount entry =>
        have held : (begun observe self).deferredWarmth = ⟨Table.empty, Table.empty⟩ := deferred
        rw [Marked, held] at marked
        cases marked
    | deferredWarmStorage entry =>
        have held : (begun observe self).deferredWarmth = ⟨Table.empty, Table.empty⟩ := deferred
        rw [Marked, held] at marked
        cases marked
    | _ => exact marked
  have none : (begun observe self).journal = [] := journal
  refine ⟨⟨fun entry => ?_, ?_, fun entry member => ?_, fun _ => deferred⟩, ?_⟩
  · rw [none]
    exact iff_of_false (unmarked entry) fun held => List.not_mem_nil held.1
  · rw [none]
    exact List.nodup_nil
  · rw [none] at member
    cases member
  · rw [none]
    refine ⟨fun key => ?_, rfl⟩
    exact iff_of_false Bool.false_ne_true List.not_mem_nil

theorem Called.idle (called : Called env licence self after) (idle : self.transactionActive = false) :
    after.deferredWarmth = self.deferredWarmth := by
  have notRunning : ¬Running self := by
    rw [Running, idle]
    exact Bool.false_ne_true
  cases called with
  | changed steps =>
      have kept : after.deferredWarmth = self.deferredWarmth ∧ SameControl self after := by
        induction steps with
        | refl => exact ⟨rfl, rfl⟩
        | tail _ step ih =>
            obtain ⟨deferred, control⟩ := ih
            have active := step.control
            cases step with
            | assigned step =>
                exact ⟨step.undisturbed.deferred.trans deferred, control.trans active⟩
            | warmedAccount held running =>
                exact absurd (control.transactionActive.symm.trans running) notRunning
            | warmedSlot held running =>
                exact absurd (control.transactionActive.symm.trans running) notRunning
            | deferredAccount grows running =>
                exact absurd (control.transactionActive.symm.trans running) notRunning
            | deferredSlot grows running =>
                exact absurd (control.transactionActive.symm.trans running) notRunning
      exact kept.1
  | settled final running steps closes => exact absurd running notRunning
  | abandoned final running steps closes => exact absurd running notRunning

/-- What the calls say of warmth, against a set of keys. -/
structure Reported (env : Env) (state : WorldState) (warm : WarmKey → Bool) : Prop where
  isWarm : ∀ key, state.isWarm env key = warm key
  accessAccount : ∀ address status after,
    WorldState.accessAccount env address state = .ok status after →
      (status = .cold ↔ warm (.account address) = false) ∧
        after.isWarm env (.account address) = true
  accessStorage : ∀ key status after,
    WorldState.accessStorage env key.address key.slot state = .ok status after →
      (status = .cold ↔ warm (.slot key) = false) ∧
        (state.Covers env (.slot key) → after.isWarm env (.slot key) = true)
  loadStorage : ∀ key result after,
    WorldState.loadStorage env key.address key.slot state = .ok result after →
      (result.2 = .cold ↔ warm (.slot key) = false) ∧ after.isWarm env (.slot key) = true
  storeStorage : ∀ key value result after,
    WorldState.storeStorage env key.address key.slot value state = .ok result after →
      (result.2 = .cold ↔ warm (.slot key) = false) ∧ after.isWarm env (.slot key) = true

theorem Adds.isWarm {key : WarmKey} (adds : Adds env key self after) (sound : Sound env self) :
    after.isWarm env key = true := by
  rcases adds with grown | ⟨warm, grown⟩
  · rw [grown.journaled.isWarm_iff, grown.warmKeys]
    exact List.mem_cons_self
  · rw [grown.isWarm sound]
    exact warm

theorem Followed.reported {scopes : List Checkpoint} {store : WarmSet}
    (followed : Followed env self scopes store) (begun : self.lifetime.transaction ≠ 0) :
    Reported env self store.current := by
  have sound := followed.sound begun
  have cold : ∀ {key : WarmKey} {isCold : Bool}, isCold = !self.isWarm env key →
      (isCold = true ↔ store.current key = false) := by
    intro key isCold same
    rw [same, followed.isWarm]
    cases store.current key <;> simp
  refine ⟨followed.isWarm, fun address status after ran => ?_, fun key status after ran => ?_,
    fun key result after ran => ?_, fun key value result after ran => ?_⟩
  · have reports := accessAccount_reports address sound
    rw [ran] at reports
    exact ⟨decide_eq_true_iff.symm.trans (cold reports.2), reports.1.isWarm sound⟩
  · by_cases covers : self.Covers env (.slot key)
    · have reports := accessStorage_reports key sound covers
      rw [ran] at reports
      exact ⟨decide_eq_true_iff.symm.trans (cold reports.2), fun _ => reports.1.isWarm sound⟩
    · rw [accessStorage_passes covers] at ran
      cases ran
      refine ⟨⟨fun _ => ?_, fun _ => rfl⟩, fun covered => absurd covered covers⟩
      rw [← followed.isWarm, ← Bool.not_eq_true]
      exact fun warm => covers (isWarm_covers warm)
  · have reports := loadStorage_reports key.address key.slot sound
    rw [ran] at reports
    exact ⟨decide_eq_true_iff.symm.trans (cold reports.2), reports.1.isWarm sound⟩
  · have reports := storeStorage_reports key.address key.slot value sound
    rw [ran] at reports
    exact ⟨decide_eq_true_iff.symm.trans (cold reports.2), reports.1.isWarm sound⟩

end WorldState

namespace Config

open WorldState

variable {env : Env} {config after : Config} {store : WarmSet} {move : Move}

/-- What a move makes of the set: a call adds the key it warms, and each attempt starts over. -/
def nextSet (env : Env) (config : Config) (store : WarmSet) : Move → WarmSet
  | .call op =>
      match op.warms with
      | some key => if op.Warmed env key config.state then store.write key true else store
      | none => store
  | .checkpoint => store.openScope
  | .commitCheckpoint => store.commit
  | .revertToCheckpoint => store.revert
  | .beginAttempt _ => .start false
  | _ => store

/-- Warmth follows the set during attempts, and nothing is deferred between them. -/
structure Warmed (env : Env) (config : Config) (store : WarmSet) : Prop where
  stacked : Stacked config.state config.scopes
  bygone : Bygone config
  idle : config.state.transactionActive = false →
    config.state.deferredWarmth = ⟨Table.empty, Table.empty⟩
  running : Running config.state → Followed env config.state config.scopes store

namespace Warmed

theorem init (genesis : Genesis) : Warmed genesis.env (Config.init genesis) (.start false) where
  stacked := .init genesis
  bygone := .init genesis
  idle _ := rfl
  running running := nomatch running

theorem call {op : Op} {state : WorldState}
    (followed : Followed env config.state config.scopes store)
    (stacked : Stacked config.state config.scopes) (running : Running config.state)
    (ends : Nested.EndsIn (op.run env config.state) state) :
    Followed env state config.scopes (config.nextSet env store (.call op)) := by
  have sound := followed.sound (stacked.begun running)
  have inside := stacked.inside
  rw [nextSet]
  cases named : op.warms with
  | none => exact followed.grown inside (Op.run_aside named sound ends)
  | some key =>
      have warms := Op.run_warms named sound ends
      dsimp only
      split at warms
      · rename_i warmed
        rw [if_pos warmed]
        exact followed.adds inside warms
      · rename_i warmed
        rw [if_neg warmed]
        exact followed.grown inside warms

/-- Every move keeps the set in step. -/
theorem step (warmed : Warmed env config store) (stepped : Stepped env config move after) :
    Warmed env after (config.nextSet env store move) := by
  have stacked := warmed.stacked.step stepped
  have bygone := warmed.bygone.step warmed.stacked stepped
  have inside := warmed.stacked.inside
  have running : ∀ {state : WorldState}, Running state → ¬state.transactionActive = false := by
    intro state now idle
    rw [Running, idle] at now
    cases now
  cases stepped with
  | called aside ends called =>
      refine ⟨stacked, bygone, fun idle => ?_, fun now => ?_⟩
      · have was := called.pushes.active.symm.trans idle
        exact (called.idle was).trans (warmed.idle was)
      · have was := called.pushes.active.symm.trans now
        exact call (warmed.running was) warmed.stacked was ends
  | transient ran write =>
      rename_i address slot value outcome state
      have ends' : Nested.EndsIn ((Op.setTransientStorage address slot value).run env config.state)
          state := by
        have ends := write.ends
        rw [← ran] at ends
        exact ends
      have kept : config.state.transactionActive = state.transactionActive ∧
          Running config.state := by
        cases write with
        | same now => exact ⟨rfl, now⟩
        | refused now => exact ⟨rfl, now⟩
        | wrote now => exact ⟨rfl, now⟩
      obtain ⟨active, now⟩ := kept
      refine ⟨stacked, bygone, fun idle => absurd (active.trans idle) (running now), fun _ => ?_⟩
      exact call (warmed.running now) warmed.stacked now ends'
  | cleared now =>
      refine ⟨stacked, bygone, fun idle => absurd idle (running now), fun _ => ?_⟩
      exact (warmed.running now).same inside rfl rfl rfl rfl
  | checkpoint now session =>
      refine ⟨stacked, bygone, fun idle => absurd idle (running now), fun _ => ?_⟩
      exact (warmed.running now).opened inside
  | committed stack closes =>
      refine ⟨stacked, bygone, fun idle => absurd idle (running closes.running), fun _ => ?_⟩
      have followed := warmed.running closes.running
      rw [stack] at followed inside
      exact followed.committed inside _
  | reverted stack closes unwound =>
      have now := closes.running
      refine ⟨stacked, bygone, fun idle => ?_, fun _ => ?_⟩
      · have active := (revertJournalTo_control unwound).transactionActive
        exact absurd (active.symm.trans idle) (running now)
      · have followed := warmed.running now
        rw [stack] at followed inside
        exact followed.reverted inside (warmed.stacked.begun now) unwound
  | begun notActive =>
      refine ⟨stacked, bygone, fun idle => absurd idle.symm Bool.false_ne_true, fun _ => ?_⟩
      have flat := warmed.stacked.closed (warmed.stacked.flat notActive)
      dsimp only
      rw [flat]
      exact followed_begun warmed.bygone.state (warmed.stacked.journal notActive)
        (warmed.idle notActive)
  | openSession now flat =>
      refine ⟨stacked, bygone, fun idle => absurd idle (running now), fun _ => ?_⟩
      exact (warmed.running now).same inside rfl rfl rfl rfl
  | closeSession now flat =>
      refine ⟨stacked, bygone, fun idle => absurd idle (running now), fun _ => ?_⟩
      exact (warmed.running now).same inside rfl rfl rfl rfl
  | sealed now ran =>
      obtain ⟨-, -, rfl⟩ := sealAttempt_ran (warmed.stacked.begun now) ran
      refine ⟨stacked, bygone, fun idle => absurd idle (running now), fun _ => ?_⟩
      exact (warmed.running now).same inside rfl rfl rfl rfl
  | retained now closed ran => exact ⟨stacked, bygone, fun _ => rfl, fun now =>
      absurd now Bool.false_ne_true⟩
  | discarded now closed unwound => exact ⟨stacked, bygone, fun _ => rfl, fun now =>
      absurd now Bool.false_ne_true⟩
  | startedOver notActive =>
      exact ⟨stacked, bygone, fun _ => warmed.idle notActive, fun now => absurd notActive (running now)⟩
  | captured notActive requests =>
      exact ⟨stacked, bygone, fun _ => warmed.idle notActive, fun now => absurd notActive (running now)⟩
  | cloned found unresolved requests =>
      exact ⟨stacked, bygone, warmed.idle,
        fun now => (warmed.running now).same inside rfl rfl rfl rfl⟩
  | refused requests snapshot =>
      refine ⟨stacked, bygone, warmed.idle, fun now => ?_⟩
      rcases snapshot with rfl | ⟨index, rfl⟩
      · exact (warmed.running now).same inside rfl rfl rfl rfl
      · exact (warmed.running now).same inside rfl rfl rfl rfl
  | restored found epoch unresolved vacated =>
      cases vacated with
      | idle notActive =>
          exact ⟨stacked, bygone, fun _ => warmed.idle notActive,
            fun now => absurd notActive (running now)⟩
      | discarded now closed unwound =>
          exact ⟨stacked, bygone, fun _ => rfl, fun now => absurd now Bool.false_ne_true⟩

end Warmed

/-- In every run, a key is warm and reported so just when it is in the set. -/
theorem warmth_followsSet (genesis : Genesis) (moves : List Move) :
    (init genesis).Alongside genesis.env (nextSet genesis.env)
      (fun config store => Running config.state →
        Reported genesis.env config.state store.current) (.start false) moves := by
  have shows : ∀ config store, Warmed genesis.env config store → Running config.state →
      Reported genesis.env config.state store.current :=
    fun config store warmed now => (warmed.running now).reported (warmed.stacked.begun now)
  exact alongside_of_kept shows (fun _ _ _ _ warmed stepped => warmed.step stepped) (.init genesis)

/-- A closed world that nothing was declared in. -/
def undeclared : Genesis where
  env := { bare.env with parent := .closedWorld Table.empty Table.empty }
  parentCode := []
  owned := fun _ _ held => nomatch held

/-- A closed world keeps no warmth of a slot it has no row for: the slot is cold each time. -/
theorem accessStorage_staysCold : ∃ config first second,
    (init undeclared).exec undeclared.env [.beginAttempt false, .openSession] = some config ∧
      accessStorage undeclared.env (addressOf 1) 4 config.state = .ok .cold first ∧
      accessStorage undeclared.env (addressOf 1) 4 first = .ok .cold second := by
  have values : (((init undeclared).exec undeclared.env [.beginAttempt false, .openSession]).bind
      fun config => (accessStorage undeclared.env (addressOf 1) 4 config.state).toOption.bind
        fun first => (accessStorage undeclared.env (addressOf 1) 4 first.2).toOption.map
          fun second => (first.1, second.1)) = some (.cold, .cold) := by decide +kernel
  obtain ⟨config, reached, values⟩ := Option.bind_eq_some_iff.mp values
  obtain ⟨⟨status, first⟩, once, values⟩ := Option.bind_eq_some_iff.mp values
  obtain ⟨⟨again, second⟩, twice, values⟩ := Option.map_eq_some_iff.mp values
  obtain ⟨rfl, rfl⟩ := Prod.mk.inj values
  exact ⟨config, first, second, reached, Outcome.toOption_eq_some.mp once,
    Outcome.toOption_eq_some.mp twice⟩

end Config

end EvmZig.State
