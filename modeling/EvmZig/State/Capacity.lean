import EvmZig.State.Transient

/-!
# Room for transient storage

A node is asked for when a key is first written, and rolling back inserts
without asking.  A clear empties the map and keeps its nodes, while the journal
keeps the records of the keys it dropped: they come back beside the keys written
since, and nothing was asked for both.
-/

set_option autoImplicit false

namespace EvmZig.State

open Lib Zig

namespace WorldState

variable {env : Env} {self after : WorldState} {capacity : Nat}

/-- `transient_storage.ensureUnusedCapacity(1)`; `grow` is how long the list of nodes becomes when it
has to hold one more. -/
def ensureUnused (grow : Nat → Nat) (count capacity : Nat) : Nat :=
  if count + 1 ≤ capacity then capacity else grow (count + 1)

/-- `growCapacity` of the standard library's lists, where `init_capacity` is one. -/
def growCapacity (minimum : Nat) : Nat := minimum + (minimum / 2 + 1)

/-- Every insertion of popping that many entries finds a node. -/
def PopsFit (capacity : Nat) : Nat → WorldState → Prop
  | 0, _ => True
  | count + 1, self => ∀ entry older, self.journal = entry :: older →
      (∀ key previous, entry = .transientStorage key previous →
        self.transientStorage.HasNode capacity key) ∧
      ∀ next, undoEntry entry { self with journal := older } = .ok () next →
        PopsFit capacity count next

/-- The insertions of an unwinding find their nodes just when the records do, one after the other. -/
theorem popsFit_iff {count : Nat} (ran : popEntries count self = .ok () after) :
    PopsFit capacity count self ↔
      Table.PutsFit capacity (Journal.transientUndos (self.journal.take count))
        self.transientStorage := by
  induction count generalizing self with
  | zero => exact Iff.rfl
  | succ count ih =>
      obtain ⟨entry, older, middle, journal, undone, rest⟩ := popEntries_succ ran
      have restored := undoEntry_ran undone
      have here : PopsFit capacity (count + 1) self ↔
          (∀ key previous, entry = .transientStorage key previous →
            self.transientStorage.HasNode capacity key) ∧ PopsFit capacity count middle := by
        rw [PopsFit, journal]
        refine ⟨fun all => ?_, fun fits other tail same => ?_⟩
        · obtain ⟨node, tail⟩ := all entry older rfl
          exact ⟨node, tail middle undone⟩
        · cases same
          refine ⟨fits.1, fun next again => ?_⟩
          rw [undone] at again
          cases again
          exact fits.2
      rw [here, ih rest, restored.transient, restored.journal, journal, List.take_succ_cons]
      cases entry with
      | transientStorage key previous =>
          refine and_congr_left fun _ => ⟨fun node => node key previous rfl, ?_⟩
          rintro node _ _ ⟨⟩
          exact node
      | _ => exact and_iff_right fun _ _ same => nomatch same

theorem find_putBack {undos : List (TransientKey × U256)} {table : Table TransientKey U256}
    {key : TransientKey} (lost : (putBack undos table).find key = none) : table.find key = none := by
  induction undos generalizing table with
  | nil => exact lost
  | cons undo older ih => exact (Table.find_put_eq_none.mp (ih lost)).1

end WorldState

namespace Config

open WorldState

variable {env : Env} {config after : Config} {grow : Nat → Nat} {capacity : Nat} {move : Move}

/-- How many nodes the map has after a move: only a first write asks for one, and clearing keeps
them. -/
def nextCapacity (env : Env) (grow : Nat → Nat) (config : Config) (capacity : Nat) : Move → Nat
  | .call (.setTransientStorage address slot value) =>
      if config.state.transientValue address slot ≠ value ∧
          config.state.transientStorage.value { address, slot } = none ∧
          env.grants config.state.requests = true then
        ensureUnused grow config.state.transientStorage.count capacity
      else capacity
  | _ => capacity

/-- How much of the journal a move pops. -/
def popped (config : Config) : Move → Nat
  | .revertToCheckpoint =>
      match config.scopes with
      | [] => 0
      | held :: _ => config.state.journal.length - held.journalLen
  | .discardAttempt => config.state.journal.length
  | .restoreBranch _ => config.state.journal.length
  | _ => 0

/-- The state a rollback starts popping in. -/
def unwinding (config : Config) : Move → WorldState
  | .revertToCheckpoint => config.state.flagged
  | _ => config.state

/-- No insertion of the rollback asserts a node that is not there. -/
def FindsNodes (config : Config) (capacity : Nat) (move : Move) : Prop :=
  PopsFit capacity (config.popped move) (config.unwinding move)

/-- There are as many free nodes as keys that were dropped and have a record to go back to. -/
def HasRoom (config : Config) (capacity : Nat) (move : Move) : Prop :=
  (Table.missing (Journal.transientUndos (config.state.journal.take (config.popped move)))
    config.state.transientStorage).card ≤ capacity - config.state.transientStorage.count

instance (config : Config) (capacity : Nat) (move : Move) :
    Decidable (config.HasRoom capacity move) :=
  inferInstanceAs (Decidable (_ ≤ _))

/-- A property of every move of a run, with the nodes the map has before it. -/
def AtMoves (env : Env) (grow : Nat → Nat) (property : Config → Nat → Move → Prop)
    (config : Config) (capacity : Nat) : List Move → Prop
  | [] => True
  | move :: moves => ∀ next, config.step env move = some next →
      property config capacity move ∧
        next.AtMoves env grow property (config.nextCapacity env grow capacity move) moves

/-- Every clear of a run comes before any transient storage is recorded. -/
def ClearsFirst (env : Env) (config : Config) : List Move → Prop
  | [] => True
  | move :: moves => ∀ next, config.step env move = some next →
      (move = .call .clearTransientStorage → config.state.journal.transientUndos = []) ∧
        next.ClearsFirst env moves

/-- What a move pops can be popped. -/
theorem Stepped.pops (stepped : Stepped env config move after)
    (idle : config.state.transactionActive = false → config.state.journal = []) :
    ∃ mid, popEntries (config.popped move) (config.unwinding move) = .ok () mid := by
  have nothing : ∀ state, popEntries 0 state = .ok () state := fun _ => rfl
  cases stepped with
  | reverted stack closes unwound =>
      rename_i held scopes mid
      refine ⟨mid, ?_⟩
      rw [popped, stack]
      exact unwound
  | discarded running closed unwound => exact ⟨_, unwound⟩
  | restored found epoch unresolved vacated =>
      cases vacated with
      | idle notActive =>
          rw [popped, idle notActive]
          exact ⟨_, nothing _⟩
      | discarded running closed unwound => exact ⟨_, unwound⟩
  | refused requests snapshot => rcases snapshot with rfl | ⟨index, rfl⟩ <;> exact ⟨_, nothing _⟩
  | _ => exact ⟨_, nothing _⟩

/-- Rolling back finds its nodes just when the free ones suffice for the keys that come back. -/
theorem Stepped.findsNodes_iff (stepped : Stepped env config move after)
    (idle : config.state.transactionActive = false → config.state.journal = []) :
    config.FindsNodes capacity move ↔ config.HasRoom capacity move := by
  obtain ⟨mid, pops⟩ := stepped.pops idle
  have journal : (config.unwinding move).journal = config.state.journal := by
    cases move <;> rfl
  have storage : (config.unwinding move).transientStorage = config.state.transientStorage := by
    cases move <;> rfl
  have fits := @popsFit_iff _ _ capacity _ pops
  rw [journal, storage] at fits
  exact fits.trans Table.putsFit_iff

/-- Along every run, each rollback finds its nodes just when there is room at each. -/
theorem atMoves_iff {moves : List Move} (stacked : Stacked config.state config.scopes) :
    config.AtMoves env grow FindsNodes capacity moves ↔
      config.AtMoves env grow HasRoom capacity moves := by
  induction moves generalizing config capacity with
  | nil => exact Iff.rfl
  | cons move moves ih =>
      refine forall_congr' fun next => forall_congr' fun ran => ?_
      have stepped := step_cases ran
      exact and_congr (stepped.findsNodes_iff stacked.journal) (ih (stacked.step stepped))

/-! ## Clearing before anything is recorded -/

/-- Every key the journal has a record of is in the map. -/
def Recorded (state : WorldState) : Prop :=
  ∀ undo ∈ state.journal.transientUndos, state.transientStorage.find undo.1 ≠ none

theorem Recorded.empty {state : WorldState} (empty : state.journal = []) : Recorded state := by
  intro undo member
  rw [empty] at member
  cases member

/-- Nothing is recorded that was not, and no key is lost. -/
theorem Recorded.keeps {state last : WorldState} (recorded : Recorded state)
    (undos : ∀ undo ∈ last.journal.transientUndos, undo ∈ state.journal.transientUndos)
    (found : ∀ key, last.transientStorage.find key = none → state.transientStorage.find key = none) :
    Recorded last :=
  fun undo member lost => recorded undo (undos undo member) (found undo.1 lost)

theorem Recorded.same {state last : WorldState} (recorded : Recorded state)
    (journal : last.journal.transientUndos = state.journal.transientUndos)
    (storage : last.transientStorage = state.transientStorage) : Recorded last := by
  refine recorded.keeps (fun undo member => ?_) (fun key lost => ?_)
  · rw [← journal]
    exact member
  · rw [← storage]
    exact lost

theorem Recorded.wrote {state : WorldState} (recorded : Recorded state) (key : TransientKey)
    (value : U256) (requests : Nat) : Recorded (writeTransient key value (asked requests state)) := by
  intro undo member lost
  obtain ⟨lost, differs⟩ := Table.find_put_eq_none.mp lost
  rcases List.mem_cons.mp member with rfl | earlier
  · exact differs rfl
  · exact recorded undo earlier lost

/-- A rollback then finds its nodes, however many there are. -/
theorem Recorded.hasRoom (recorded : Recorded config.state) : config.HasRoom capacity move := by
  refine Table.putsFit_iff.mp (Table.putsFit_of_found fun undo member => recorded undo ?_)
  obtain ⟨entry, taken, saved⟩ := List.mem_filterMap.mp member
  exact List.mem_filterMap.mpr ⟨entry, List.mem_of_mem_take taken, saved⟩

theorem Recorded.step (recorded : Recorded config.state) (stacked : Stacked config.state config.scopes)
    (stepped : Stepped env config move after)
    (first : move = .call .clearTransientStorage → config.state.journal.transientUndos = []) :
    Recorded after.state := by
  cases stepped with
  | called aside ends called =>
      obtain ⟨newer, journal, kinds, -⟩ := called.pushes.journal
      refine recorded.same ?_ called.pushes.transient
      rw [journal, Journal.transientUndos_append, Journal.transientUndos_eq_nil kinds,
        List.nil_append]
  | transient ran write =>
      cases write with
      | same running unchanged =>
          exact recorded
      | refused running error requests =>
          exact recorded.same rfl rfl
      | wrote running changes requests =>
          exact recorded.wrote _ _ _
  | cleared running =>
      intro undo member
      have none : undo ∈ config.state.journal.transientUndos := member
      rw [first rfl] at none
      cases none
  | reverted stack closes unwound =>
      rename_i held scopes mid
      refine recorded.keeps (fun undo member => ?_) (fun key lost => ?_)
      · have left : mid.journal = below config.state.journal held.journalLen :=
          (revertJournalTo_journal unwound).trans rfl
        have kept : undo ∈ mid.journal.transientUndos := member
        rw [← above_append_below config.state.journal held.journalLen,
          Journal.transientUndos_append]
        rw [left] at kept
        exact List.mem_append_right _ kept
      · have restored := revertJournalTo_transient unwound
        have missing : mid.transientStorage.find key = none := lost
        rw [restored] at missing
        exact find_putBack missing
  | sealed running ran =>
      obtain ⟨-, -, rfl⟩ := sealAttempt_ran (stacked.begun running) ran
      exact recorded.same rfl rfl
  | retained running closed ran => exact Recorded.empty rfl
  | discarded running closed unwound => exact Recorded.empty rfl
  | restored found epoch unresolved vacated =>
      cases vacated with
      | idle notActive => exact Recorded.empty (stacked.journal notActive)
      | discarded running closed unwound => exact Recorded.empty rfl
  | refused requests snapshot =>
      rcases snapshot with rfl | ⟨index, rfl⟩ <;> exact recorded.same rfl rfl
  | _ => exact recorded.same rfl rfl

/-- With nothing recorded at any clear, there is room at every rollback. -/
theorem ClearsFirst.hasRoom {moves : List Move} (first : config.ClearsFirst env moves)
    (recorded : Recorded config.state) (stacked : Stacked config.state config.scopes) :
    config.AtMoves env grow HasRoom capacity moves := by
  induction moves generalizing config capacity with
  | nil => trivial
  | cons move moves ih =>
      intro next ran
      have stepped := step_cases ran
      obtain ⟨here, rest⟩ := first next ran
      exact ⟨recorded.hasRoom, ih rest (recorded.step stacked stepped here) (stacked.step stepped)⟩

theorem clearsFirst_of_no_clear {moves : List Move} (none : .call .clearTransientStorage ∉ moves) :
    config.ClearsFirst env moves := by
  induction moves generalizing config with
  | nil => trivial
  | cons move moves ih =>
      intro next ran
      exact ⟨fun same => absurd (same ▸ List.mem_cons_self) none,
        ih fun member => none (List.mem_cons_of_mem _ member)⟩

/-- In every run, rolling back never runs out of nodes just where, at each rollback, there are as
many free nodes as keys that a clear dropped and a record brings back.  That is so whenever every
clear comes before the first record. -/
theorem rollback_findsNodes (genesis : Genesis) (grow : Nat → Nat) (moves : List Move) :
    ((init genesis).AtMoves genesis.env grow FindsNodes 0 moves ↔
      (init genesis).AtMoves genesis.env grow HasRoom 0 moves) ∧
    ((init genesis).ClearsFirst genesis.env moves →
      (init genesis).AtMoves genesis.env grow FindsNodes 0 moves) := by
  have stacked := Stacked.init genesis
  have exact_ := @atMoves_iff genesis.env _ grow 0 moves stacked
  exact ⟨exact_, fun first => exact_.mpr (first.hasRoom (Recorded.empty rfl) stacked)⟩

/-- A run that writes twice under a checkpoint and goes back over both. -/
theorem rollback_findsNodes_attempt :
    (init bare).AtMoves bare.env growCapacity FindsNodes 0
      [.beginAttempt false, .openSession, .call (.setTransientStorage (addressOf 1) 1 7),
        .checkpoint, .call (.setTransientStorage (addressOf 1) 2 7), .revertToCheckpoint] := by
  exact (rollback_findsNodes bare growCapacity _).2 (clearsFirst_of_no_clear (by simp))

/-- A run with the nodes of the map beside it. -/
def trackNodes (env : Env) (grow : Nat → Nat) (config : Config) (capacity : Nat) :
    List Move → Option (Config × Nat)
  | [] => some (config, capacity)
  | move :: moves => (config.step env move).bind fun next =>
      next.trackNodes env grow (config.nextCapacity env grow capacity move) moves

theorem AtMoves.last {property : Config → Nat → Move → Prop} {moves : List Move}
    {last : Config × Nat} {following : Config}
    (all : config.AtMoves env grow property capacity (moves ++ [move]))
    (ran : config.trackNodes env grow capacity moves = some last)
    (stepped : last.1.step env move = some following) : property last.1 last.2 move := by
  induction moves generalizing config capacity with
  | nil =>
      cases ran
      exact (all following stepped).1
  | cons first moves ih =>
      obtain ⟨next, here, rest⟩ := Option.bind_eq_some_iff.mp ran
      exact ih (all next here).2 rest

/-- One key is written and cleared away; two more fill the nodes. -/
def overfillingRun : List Move :=
  [.beginAttempt false, .openSession, .checkpoint,
    .call (.setTransientStorage (addressOf 1) 1 7), .call .clearTransientStorage,
    .call (.setTransientStorage (addressOf 1) 2 7), .call (.setTransientStorage (addressOf 1) 3 7)]

/-- Reverting then puts back a third key where there are two nodes. -/
theorem rollback_exhausts :
    ((init bare).exec bare.env (overfillingRun ++ [.revertToCheckpoint])).isSome = true ∧
    ¬(init bare).AtMoves bare.env growCapacity FindsNodes 0
      (overfillingRun ++ [.revertToCheckpoint]) := by
  have ends : ((init bare).trackNodes bare.env growCapacity 0 overfillingRun).map (fun last =>
      (decide (last.1.HasRoom last.2 .revertToCheckpoint),
        (last.1.step bare.env .revertToCheckpoint).isSome)) = some (false, true) := by
    decide +kernel
  refine ⟨by decide +kernel, fun finds => ?_⟩
  obtain ⟨last, ran, ends⟩ := Option.map_eq_some_iff.mp ends
  obtain ⟨cramped, steps⟩ := Prod.mk.inj ends
  obtain ⟨following, stepped⟩ := Option.isSome_iff_exists.mp steps
  have rooms := (atMoves_iff (Stacked.init bare)).mp finds
  exact of_decide_eq_false cramped (rooms.last ran stepped)

/-! ## Discarding an attempt -/

/-- Where every rollback has room, discarding an attempt, sealed or not, finds its nodes and gives back
the branch the attempt was begun on. -/
theorem discardAttempt_exact {genesis : Genesis} {moves : List Move}
    (faithful : (init genesis).Faithful genesis.env moves)
    (reached : (init genesis).exec genesis.env moves = some config)
    {observe : Bool} {inner : List Move} (within : ∀ move ∈ inner, move.Within) {closing : Config}
    (ran : config.exec genesis.env (.beginAttempt observe :: inner) = some closing)
    (closed : ¬closing.state.SessionActive)
    (room : (init genesis).AtMoves genesis.env grow HasRoom 0
      (moves ++ .beginAttempt observe :: inner ++ [.discardAttempt])) :
    (init genesis).AtMoves genesis.env grow FindsNodes 0
      (moves ++ .beginAttempt observe :: inner ++ [.discardAttempt]) ∧
    ∃ last, WorldState.discardAttempt closing.state.lifetime.transaction closing.state =
      .ok () last ∧ SameBranch genesis.env config.state last :=
  ⟨(atMoves_iff (Stacked.init genesis)).mpr room,
    discards_sameBranch faithful reached within ran closed⟩

/-- A balance and a transient slot written by the first attempt. -/
theorem discardAttempt_exact_bare : ∃ (closing : Config) (last : WorldState),
    (init bare).exec bare.env [.beginAttempt false, .openSession,
      .call (.setTransientStorage (addressOf 1) 1 7), .call (.setBalance (addressOf 1) 11),
      .closeSession] = some closing ∧ SameBranch bare.env (init bare).state last := by
  let inner : List Move := [.openSession, .call (.setTransientStorage (addressOf 1) 1 7),
    .call (.setBalance (addressOf 1) 11), .closeSession]
  have values : ((init bare).exec bare.env (.beginAttempt false :: inner)).map
      (fun closing => decide closing.state.SessionActive) = some false := by decide +kernel
  obtain ⟨closing, ran, closed⟩ := Option.map_eq_some_iff.mp values
  have within : ∀ move ∈ inner, move.Within := by
    intro move member
    simp only [inner, List.mem_cons, List.not_mem_nil, or_false] at member
    rcases member with rfl | rfl | rfl | rfl <;> first | trivial | exact False.elim
  have reached : (init bare).exec bare.env [] = some (init bare) := rfl
  have first : (init bare).ClearsFirst bare.env (.beginAttempt false :: inner ++ [.discardAttempt]) :=
    clearsFirst_of_no_clear (by simp [inner])
  have room : (init bare).AtMoves bare.env growCapacity HasRoom 0
      (.beginAttempt false :: inner ++ [.discardAttempt]) :=
    first.hasRoom (Recorded.empty rfl) (Stacked.init bare)
  obtain ⟨-, last, -, same⟩ := discardAttempt_exact (faithful_of_no_restore (by simp)) reached within
    ran (of_decide_eq_false closed) room
  exact ⟨closing, last, ran, same⟩

end Config

end EvmZig.State
