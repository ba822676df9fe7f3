import EvmZig.State.Scopes

/-!
# Compaction passes

Each pass walks a list twice: once to consume the mark of every row it keeps,
which drops repeats, and once to give the marks back.  What remains is the
compacted list over unchanged rows; only slots a wipe left behind lose their
dirty flag.
-/

set_option autoImplicit false

namespace EvmZig.State

open Lib Zig

def StorageRow.clearDirty (row : StorageRow) : StorageRow :=
  { row with flags := { row.flags with blockDirty := false } }

def StorageRow.markDirty (row : StorageRow) : StorageRow :=
  { row with flags := { row.flags with blockDirty := true } }

namespace WorldState

variable {env : Env} {before after self : WorldState} {id : StorageId} {deduplicate : Bool}

/-! ## Compaction of account lists -/

theorem accountRow_eq_ok {id : AccountId} {row : AccountRow} :
    accountRow id self = .ok row after ↔ self.world.accounts.row id = some row ∧ self = after := by
  unfold accountRow
  cases self.world.accounts.row id with
  | none => simp
  | some held => simp

theorem storageRow_eq_ok {row : StorageRow} :
    storageRow id self = .ok row after ↔ self.world.storage.row id = some row ∧ self = after := by
  unfold storageRow
  cases self.world.storage.row id with
  | none => simp
  | some held => simp

theorem storageKey_eq_ok {key : StorageKey} :
    storageKey id self = .ok key after ↔ self.world.storage.key id = some key ∧ self = after := by
  unfold storageKey
  cases self.world.storage.key id with
  | none => simp
  | some held => simp

/-- Nothing but account rows changed, and of these the listed ones were rewritten. -/
structure Reworked (before after : WorldState) (ids : List AccountId)
    (rewrite : AccountRow → AccountRow) : Prop where
  rest : after = { before with world := { before.world with accounts := after.world.accounts } }
  key : ∀ id, after.world.accounts.key id = before.world.accounts.key id
  row : ∀ id, after.world.accounts.row id =
    if id ∈ ids then (before.world.accounts.row id).map rewrite else before.world.accounts.row id

def rowMark (marked : AccountRow → Bool) (self : WorldState) (id : AccountId) : Bool :=
  ((self.world.accounts.row id).map marked).getD false

theorem Reworked.refl (rewrite : AccountRow → AccountRow) : Reworked self self [] rewrite := by
  refine ⟨rfl, fun _ => rfl, fun id => ?_⟩
  rw [if_neg List.not_mem_nil]

theorem Reworked.cons {id : AccountId} {ids : List AccountId} {rewrite : AccountRow → AccountRow}
    (fresh : id ∉ ids) (rest : Reworked (self.updateAccount id rewrite) after ids rewrite) :
    Reworked self after (id :: ids) rewrite := by
  obtain ⟨restEq, key, row⟩ := rest
  cases held : self.world.accounts.row id with
  | none =>
      have same : self.updateAccount id rewrite = self := by
        rw [updateAccount, World.updateAccount, held]
      rw [same] at restEq key row
      refine ⟨restEq, key, fun other => ?_⟩
      rw [row]
      by_cases here : other = id
      · subst here
        rw [if_neg fresh, if_pos (List.mem_cons_self ..), held]
        rfl
      · simp only [List.mem_cons, here, false_or]
  | some saved =>
      obtain ⟨address, keyEq⟩ := Table.key_eq_some_of_row held
      rw [updateAccount_of_row held] at restEq key row
      refine ⟨restEq, fun other => (key other).trans (Table.key_set ..), fun other => ?_⟩
      rw [row]
      dsimp only
      by_cases here : other = id
      · subst here
        rw [if_neg fresh, if_pos (List.mem_cons_self ..), Table.row_set_same keyEq, held]
        rfl
      · simp only [List.mem_cons, here, false_or, Table.row_set_other _ here]

section Passes

variable {marked : WorldState → AccountRow → Bool} {clear : AccountRow → AccountRow}
  {mark : WorldState → AccountRow → AccountRow}

/-- The consuming pass keeps the first occurrence of each marked row. -/
theorem consumeAccounts_ran {ids kept : List AccountId}
    (steady : ∀ state world row, marked { state with world } row = marked state row)
    (unmarks : ∀ row, marked self (clear row) = false)
    (ran : consumeAccounts marked clear ids self = .ok kept after) :
    kept = compact (self.rowMark (marked self)) ids ∧ Reworked self after kept clear := by
  induction ids generalizing self kept after with
  | nil =>
      cases ran
      exact ⟨rfl, Reworked.refl clear⟩
  | cons id ids ih =>
      unfold consumeAccounts at ran
      obtain ⟨row, _, looked, ran⟩ := Action.bind_eq_ok.mp ran
      obtain ⟨held, rfl⟩ := accountRow_eq_ok.mp looked
      rw [Action.bind_run, Action.get_run] at ran
      dsimp only at ran
      have markEq : self.rowMark (marked self) id = marked self row := by
        rw [rowMark, held]
        rfl
      unfold compact
      split at ran
      · rename_i unmarked
        rw [Bool.not_eq_true'] at unmarked
        rw [if_neg (by rw [markEq, unmarked]; exact Bool.false_ne_true)]
        exact ih unmarks ran
      · rename_i isMarked
        rw [Bool.not_eq_true', Bool.not_eq_false] at isMarked
        rw [if_pos (by rw [markEq, isMarked])]
        rw [Action.bind_run, Action.modify_run] at ran
        dsimp only at ran
        obtain ⟨tail, last, tailRan, finish⟩ := Action.bind_eq_ok.mp ran
        cases finish
        have steadyHere : marked (self.updateAccount id clear) = marked self := by
          rw [updateAccount_of_row held]
          exact funext fun row => steady self _ row
        obtain ⟨rfl, reworked⟩ := ih (by rw [steadyHere]; exact unmarks) tailRan
        obtain ⟨address, keyEq⟩ := Table.key_eq_some_of_row held
        have fewer : ∀ other ∈ ids,
            (self.updateAccount id clear).rowMark (marked (self.updateAccount id clear)) other =
              (self.rowMark (marked self) other && decide (other ≠ id)) := by
          intro other _
          rw [steadyHere, updateAccount_of_row held, rowMark, rowMark]
          dsimp only
          by_cases here : other = id
          · subst here
            rw [Table.row_set_same keyEq]
            simp [unmarks]
          · rw [Table.row_set_other _ here]
            simp [here]
        rw [compact_congr fewer] at reworked ⊢
        refine ⟨rfl, Reworked.cons ?_ reworked⟩
        rw [mem_compact]
        simp

theorem restoreAccounts_ran {ids : List AccountId}
    (steady : ∀ state world, mark { state with world } = mark state) (nodup : ids.Nodup)
    (ran : restoreAccounts mark ids self = .ok () after) :
    Reworked self after ids (mark self) := by
  induction ids generalizing self with
  | nil =>
      cases ran
      exact Reworked.refl _
  | cons id ids ih =>
      rw [List.nodup_cons] at nodup
      unfold restoreAccounts Action.forEach at ran
      obtain ⟨_, middle, first, ran⟩ := Action.bind_eq_ok.mp ran
      obtain ⟨row, _, looked, first⟩ := Action.bind_eq_ok.mp first
      obtain ⟨held, rfl⟩ := accountRow_eq_ok.mp looked
      cases first
      have same : mark (self.updateAccount id (mark self)) = mark self := by
        rw [updateAccount_of_row held]
        exact steady self _
      have rest := ih nodup.2 ran
      rw [same] at rest
      exact Reworked.cons nodup.1 rest

/-- Consuming and restoring marks leaves the rows alone. -/
theorem compaction_ran {ids kept : List AccountId} {middle : WorldState}
    (steady : ∀ state world row, marked { state with world } row = marked state row)
    (unmarks : ∀ row, marked self (clear row) = false)
    (steadyMark : ∀ state world, mark { state with world } = mark state)
    (restores : ∀ row, marked self row = true → mark self (clear row) = row)
    (consumed : consumeAccounts marked clear ids self = .ok kept middle)
    (restored : restoreAccounts mark kept middle = .ok () after) :
    kept = compact (self.rowMark (marked self)) ids ∧ after = self := by
  obtain ⟨keptEq, first⟩ := consumeAccounts_ran steady unmarks consumed
  have nodup : kept.Nodup := by
    rw [keptEq]
    exact nodup_compact _ _
  have second := restoreAccounts_ran steadyMark nodup restored
  have markEq : mark middle = mark self := by
    rw [first.rest]
    exact steadyMark self _
  refine ⟨keptEq, ?_⟩
  have accounts : after.world.accounts = self.world.accounts := by
    apply Table.ext_rows
    · intro id
      rw [second.key, first.key]
    · intro id
      rw [second.row, first.row, markEq]
      split
      · rename_i member
        rw [keptEq, mem_compact, rowMark] at member
        cases held : self.world.accounts.row id with
        | none => rfl
        | some row =>
            rw [held] at member
            simp only [Option.map_some]
            rw [restores row member.2]
      · rfl
  rw [second.rest, accounts, first.rest]

end Passes

/-! ## Compaction of slot lists -/

def slotDirty (self : WorldState) (id : StorageId) : Bool :=
  ((self.world.storage.row id).map (·.flags.blockDirty)).getD false

/-- The slot carries the storage incarnation of its account. -/
def slotLive (self : WorldState) (id : StorageId) : Bool :=
  ((self.world.storage.row id).bind fun row =>
    (self.world.storage.key id).bind fun key =>
      (self.world.accounts.row key.account).map fun account =>
        decide (row.storageIncarnation = account.storageIncarnation)).getD false

/-- Nothing but slot rows changed, and of these some were rewritten. -/
structure Scanned (rewrite : StorageRow → StorageRow) (before after : WorldState)
    (touched : StorageId → Bool) : Prop where
  rest : after = { before with world := { before.world with storage := after.world.storage } }
  key : ∀ id, after.world.storage.key id = before.world.storage.key id
  row : ∀ id, after.world.storage.row id =
    if touched id then (before.world.storage.row id).map rewrite
    else before.world.storage.row id

namespace Scanned

variable {rewrite : StorageRow → StorageRow} {first second third : WorldState}
  {touched left right : StorageId → Bool}

theorem refl : Scanned rewrite self self fun _ => false :=
  ⟨rfl, fun _ => rfl, fun _ => rfl⟩

theorem one (id : StorageId) :
    Scanned rewrite self (self.updateStorage id rewrite) fun other => decide (other = id) := by
  cases held : self.world.storage.row id with
  | none =>
      have same : self.updateStorage id rewrite = self := by
        rw [updateStorage, World.updateStorage, held]
      rw [same]
      refine ⟨rfl, fun _ => rfl, fun other => ?_⟩
      by_cases here : other = id
      · subst here
        rw [decide_eq_true rfl, held]
        rfl
      · rw [decide_eq_false here]
        rfl
  | some row =>
      obtain ⟨key, keyEq⟩ := Table.key_eq_some_of_row held
      rw [updateStorage_of_row held]
      refine ⟨rfl, fun other => Table.key_set .., fun other => ?_⟩
      by_cases here : other = id
      · subst here
        dsimp only
        rw [decide_eq_true rfl, if_pos rfl, Table.row_set_same keyEq, held]
        rfl
      · dsimp only
        rw [decide_eq_false here, Table.row_set_other _ here]
        rfl

theorem trans (idempotent : ∀ row, rewrite (rewrite row) = rewrite row)
    (before : Scanned rewrite first second left) (after : Scanned rewrite second third right) :
    Scanned rewrite first third fun id => left id || right id := by
  refine ⟨?_, ?_, ?_⟩
  · rw [after.rest, before.rest]
  · intro id
    rw [after.key, before.key]
  · intro id
    rw [after.row, before.row]
    cases left id with
    | false => rfl
    | true =>
        cases right id with
        | false => rfl
        | true =>
            cases first.world.storage.row id with
            | none => rfl
            | some row => exact congrArg some (idempotent row)

theorem congr (scanned : Scanned rewrite first second left) (same : ∀ id, right id = left id) :
    Scanned rewrite first second right :=
  ⟨scanned.rest, scanned.key, fun id => by rw [same, scanned.row]⟩

theorem accounts (scanned : Scanned rewrite first second touched) :
    second.world.accounts = first.world.accounts := by
  rw [scanned.rest]

theorem slotDirty (scanned : Scanned StorageRow.clearDirty first second touched)
    (id : StorageId) : second.slotDirty id = (first.slotDirty id && !touched id) := by
  rw [WorldState.slotDirty, WorldState.slotDirty, scanned.row]
  cases touched id with
  | false => simp
  | true =>
      cases first.world.storage.row id with
      | none => rfl
      | some row => simp [StorageRow.clearDirty]

theorem slotLive (scanned : Scanned StorageRow.clearDirty first second touched)
    (id : StorageId) : second.slotLive id = first.slotLive id := by
  rw [WorldState.slotLive, WorldState.slotLive, scanned.row, scanned.key, scanned.accounts]
  cases touched id with
  | false => rfl
  | true =>
      cases first.world.storage.row id with
      | none => rfl
      | some row => rfl

end Scanned

theorem clearDirty_twice (row : StorageRow) : row.clearDirty.clearDirty = row.clearDirty := rfl

theorem markDirty_twice (row : StorageRow) : row.markDirty.markDirty = row.markDirty := rfl

/-- What the scan keeps of a list of slots. -/
def keptSlots (deduplicate : Bool) (marked : StorageId → Bool) (ids : List StorageId) :
    List StorageId :=
  if deduplicate then compact marked ids else ids.filter marked

theorem keptSlots_congr {marked marked' : StorageId → Bool} {ids : List StorageId}
    (same : ∀ id ∈ ids, marked id = marked' id) :
    keptSlots deduplicate marked ids = keptSlots deduplicate marked' ids := by
  cases deduplicate with
  | true => exact compact_congr same
  | false => exact List.filter_congr same

theorem keptSlots_skip {marked : StorageId → Bool} {ids : List StorageId}
    (unmarked : marked id = false) :
    keptSlots deduplicate marked (id :: ids) = keptSlots deduplicate marked ids := by
  cases deduplicate with
  | true => simp [keptSlots, compact, unmarked]
  | false => simp [keptSlots, unmarked]

theorem keptSlots_keep {marked : StorageId → Bool} {ids : List StorageId}
    (isMarked : marked id = true) : keptSlots deduplicate marked (id :: ids) =
      id :: keptSlots deduplicate (fun other => marked other && !(deduplicate && decide (other = id)))
        ids := by
  cases deduplicate with
  | true => simp [keptSlots, compact, isMarked]
  | false => simp [keptSlots, isMarked]

theorem mem_keptSlots {marked : StorageId → Bool} {ids : List StorageId} :
    id ∈ keptSlots deduplicate marked ids ↔ id ∈ ids ∧ marked id = true := by
  cases deduplicate with
  | true => exact mem_compact
  | false => exact List.mem_filter

/-- The scan clears stale slots, and when it removes repeats the kept ones as well. -/
theorem consumeStorage_ran {ids kept : List StorageId}
    (ran : consumeStorage deduplicate ids self = .ok kept after) :
    kept = keptSlots deduplicate (fun id => self.slotDirty id && self.slotLive id) ids ∧
      Scanned StorageRow.clearDirty self after fun id =>
        decide (id ∈ ids) && (self.slotDirty id && (deduplicate || !self.slotLive id)) := by
  induction ids generalizing self kept after with
  | nil =>
      cases ran
      refine ⟨?_, Scanned.refl.congr fun id => by simp⟩
      cases deduplicate <;> rfl
  | cons id ids ih =>
      unfold consumeStorage at ran
      obtain ⟨row, _, looked, rest⟩ := Action.bind_eq_ok.mp ran
      obtain ⟨held, rfl⟩ := storageRow_eq_ok.mp looked
      have dirtyEq : self.slotDirty id = row.flags.blockDirty := by
        rw [slotDirty, held]
        rfl
      split at rest
      · rename_i clean
        rw [Bool.not_eq_true', ← dirtyEq] at clean
        obtain ⟨keptEq, scanned⟩ := ih rest
        refine ⟨?_, scanned.congr fun other => ?_⟩
        · rw [keptEq, keptSlots_skip]
          rw [clean, Bool.false_and]
        · by_cases here : other = id
          · subst here
            simp [clean]
          · simp [here]
      · rename_i dirty
        rw [Bool.not_eq_true', Bool.not_eq_false, ← dirtyEq] at dirty
        -- the head is cleared where repeats are removed, and again where it is stale
        obtain ⟨_, consumed, first, rest⟩ := Action.bind_eq_ok.mp rest
        have early : Scanned StorageRow.clearDirty self consumed fun other =>
            deduplicate && decide (other = id) := by
          unfold Action.when at first
          split at first
          · rename_i isDuplicate
            cases first
            exact (Scanned.one id).congr fun other => by rw [isDuplicate, Bool.true_and]
          · rename_i notDuplicate
            rw [Bool.not_eq_true] at notDuplicate
            cases first
            exact Scanned.refl.congr fun other => by rw [notDuplicate, Bool.false_and]
        obtain ⟨key, _, lookedKey, rest⟩ := Action.bind_eq_ok.mp rest
        obtain ⟨keyEq, rfl⟩ := storageKey_eq_ok.mp lookedKey
        obtain ⟨account, _, lookedAccount, rest⟩ := Action.bind_eq_ok.mp rest
        obtain ⟨accountEq, rfl⟩ := accountRow_eq_ok.mp lookedAccount
        rw [early.key] at keyEq
        rw [early.accounts] at accountEq
        have liveEq : self.slotLive id =
            decide (row.storageIncarnation = account.storageIncarnation) := by
          rw [slotLive, held, keyEq]
          simp only [Option.bind_some, accountEq, Option.map_some, Option.getD_some]
        split at rest
        · rename_i stale
          rw [decide_eq_false stale] at liveEq
          rw [Action.bind_run, Action.modify_run] at rest
          dsimp only at rest
          obtain ⟨keptEq, scanned⟩ := ih rest
          have cleared : Scanned StorageRow.clearDirty self (consumed.updateStorage id fun row =>
              { row with flags := { row.flags with blockDirty := false } })
              fun other => (deduplicate && decide (other = id)) || decide (other = id) :=
            early.trans clearDirty_twice (Scanned.one id)
          refine ⟨?_, (cleared.trans clearDirty_twice scanned).congr fun other => ?_⟩
          · rw [keptEq, keptSlots_skip (by rw [liveEq, Bool.and_false])]
            apply keptSlots_congr
            intro other _
            rw [cleared.slotDirty, cleared.slotLive]
            by_cases here : other = id
            · subst here
              rw [liveEq, Bool.and_false, Bool.and_false]
            · simp [here]
          · rw [cleared.slotDirty, cleared.slotLive]
            by_cases here : other = id
            · subst here
              simp [dirty, liveEq]
            · simp [here]
        · rename_i live
          rw [ne_eq, Decidable.not_not] at live
          rw [decide_eq_true live] at liveEq
          obtain ⟨tail, last, tailRan, finish⟩ := Action.bind_eq_ok.mp rest
          cases finish
          obtain ⟨keptEq, scanned⟩ := ih tailRan
          refine ⟨?_, (early.trans clearDirty_twice scanned).congr fun other => ?_⟩
          · rw [keptEq, keptSlots_keep (by rw [dirty, liveEq, Bool.and_self])]
            congr 1
            apply keptSlots_congr
            intro other _
            rw [early.slotDirty, early.slotLive]
            cases self.slotDirty other <;> cases self.slotLive other <;>
              cases (deduplicate && decide (other = id)) <;> rfl
          · rw [early.slotDirty, early.slotLive]
            by_cases here : other = id
            · subst here
              cases deduplicate <;> simp [dirty, liveEq]
            · simp [here]

theorem restoreStorage_ran {ids : List StorageId}
    (ran : Action.forEach (fun id => do
      let _ ← storageRow id
      Action.modify (updateStorage id fun row =>
        { row with flags := { row.flags with blockDirty := true } })) ids self = .ok () after) :
    Scanned StorageRow.markDirty self after fun id => decide (id ∈ ids) := by
  induction ids generalizing self with
  | nil =>
      cases ran
      exact Scanned.refl.congr fun id => by simp
  | cons id ids ih =>
      unfold Action.forEach at ran
      obtain ⟨_, middle, first, rest⟩ := Action.bind_eq_ok.mp ran
      obtain ⟨row, _, looked, wrote⟩ := Action.bind_eq_ok.mp first
      obtain ⟨-, rfl⟩ := storageRow_eq_ok.mp looked
      cases wrote
      have one : Scanned StorageRow.markDirty self (self.updateStorage id fun row =>
          { row with flags := { row.flags with blockDirty := true } })
          fun other => decide (other = id) := Scanned.one id
      exact (one.trans markDirty_twice (ih rest)).congr fun other => by simp

/-- What the compaction of the accepted slot list amounts to. -/
theorem compactAcceptedStorageChanges_ran
    (ran : compactAcceptedStorageChanges self = .ok () after) :
    ∃ start middle,
      start = (if self.transactionStorageWipes ≠ [] then 0 else self.acceptedLen.dirtyStorage) ∧
      Scanned StorageRow.clearDirty self middle (fun id =>
        decide (id ∈ self.dirtyStorage.drop start) && (self.slotDirty id && !self.slotLive id)) ∧
      after = { middle with
        dirtyStorage := self.dirtyStorage.take start ++
          keptSlots self.transactionScopeReverted
            (fun id => self.slotDirty id && self.slotLive id)
            (self.dirtyStorage.drop start) } := by
  unfold compactAcceptedStorageChanges at ran
  rw [Action.bind_run, Action.get_run] at ran
  dsimp only at ran
  obtain ⟨kept, consumed, consumedRan, rest⟩ := Action.bind_eq_ok.mp ran
  obtain ⟨keptEq, scanned⟩ := consumeStorage_ran consumedRan
  obtain ⟨_, middle, restored, finish⟩ := Action.bind_eq_ok.mp rest
  cases finish
  generalize (if self.transactionStorageWipes ≠ [] then 0 else self.acceptedLen.dirtyStorage) =
    start at *
  have outer : Scanned StorageRow.clearDirty self middle (fun id =>
      decide (id ∈ self.dirtyStorage.drop start) && (self.slotDirty id && !self.slotLive id)) := by
    unfold Action.when at restored
    split at restored
    · rename_i deduplicate
      have marked := restoreStorage_ran restored
      refine ⟨?_, fun id => (marked.key id).trans (scanned.key id), fun id => ?_⟩
      · rw [marked.rest, scanned.rest]
      · rw [marked.row, scanned.row, keptEq, deduplicate]
        simp only [mem_keptSlots, Bool.decide_and, Bool.true_or, Bool.and_true]
        by_cases member : id ∈ self.dirtyStorage.drop start
        · cases held : self.world.storage.row id with
          | none => simp
          | some row =>
              have dirtyEq : self.slotDirty id = row.flags.blockDirty := by
                rw [slotDirty, held]
                rfl
              cases dirty : self.slotDirty id with
              | false => simp
              | true =>
                  cases self.slotLive id with
                  | false => simp [member]
                  | true =>
                      have unchanged : row.clearDirty.markDirty = row := by
                        rw [dirty] at dirtyEq
                        cases row with
                        | mk current original flags =>
                            cases flags
                            cases dirtyEq
                            rfl
                      simp [member, unchanged]
        · simp [member]
    · rename_i keepsRepeats
      rw [Bool.not_eq_true] at keepsRepeats
      cases restored
      exact scanned.congr fun id => by rw [keepsRepeats, Bool.false_or]
  refine ⟨start, middle, rfl, outer, ?_⟩
  have list : middle.dirtyStorage = self.dirtyStorage := by
    rw [outer.rest]
  dsimp only
  rw [keptEq, list]

theorem liveSlots_ran {ids kept : List StorageId} (ran : liveSlots ids self = .ok kept after) :
    kept = ids.filter self.slotLive ∧ self = after := by
  induction ids generalizing kept with
  | nil =>
      cases ran
      exact ⟨rfl, rfl⟩
  | cons id ids ih =>
      unfold liveSlots at ran
      obtain ⟨row, _, looked, keyed⟩ := Action.bind_eq_ok.mp ran
      obtain ⟨held, rfl⟩ := storageRow_eq_ok.mp looked
      obtain ⟨key, _, lookedKey, owned⟩ := Action.bind_eq_ok.mp keyed
      obtain ⟨keyEq, rfl⟩ := storageKey_eq_ok.mp lookedKey
      obtain ⟨account, _, lookedAccount, rest⟩ := Action.bind_eq_ok.mp owned
      obtain ⟨accountEq, rfl⟩ := accountRow_eq_ok.mp lookedAccount
      obtain ⟨tail, last, tailRan, finish⟩ := Action.bind_eq_ok.mp rest
      cases finish
      obtain ⟨rfl, rfl⟩ := ih tailRan
      have liveEq : self.slotLive id =
          decide (row.storageIncarnation = account.storageIncarnation) := by
        rw [slotLive, held, keyEq]
        simp only [Option.bind_some, accountEq, Option.map_some, Option.getD_some]
      refine ⟨?_, rfl⟩
      rw [List.filter_cons, liveEq]
      by_cases live : row.storageIncarnation = account.storageIncarnation
      · rw [if_neg (fun stale => stale live), if_pos (decide_eq_true live)]
      · rw [if_pos live, decide_eq_false live]
        rfl

/-- Wipes of the running transaction. -/
def wipedNow (self : WorldState) (row : AccountRow) : Bool :=
  row.wipedTransaction = self.lifetime.transaction

theorem compactTransactionStorageWipes_ran (transaction : self.lifetime.transaction ≠ 0)
    (ran : compactTransactionStorageWipes self = .ok () after) :
    after = { self with
      transactionStorageWipes :=
        compact (self.rowMark self.wipedNow) self.transactionStorageWipes } := by
  unfold compactTransactionStorageWipes at ran
  rw [Action.bind_run, Action.get_run] at ran
  dsimp only at ran
  obtain ⟨kept, consumed, consumedRan, rest⟩ := Action.bind_eq_ok.mp ran
  obtain ⟨_, restored, restoredRan, finish⟩ := Action.bind_eq_ok.mp rest
  cases finish
  obtain ⟨rfl, rfl⟩ := compaction_ran (fun _ _ _ => rfl)
    (fun _ => decide_eq_false (Ne.symm transaction)) (fun _ _ => rfl)
    (fun row isMarked => by
      rw [decide_eq_true_eq] at isMarked
      rw [← isMarked]) consumedRan restoredRan
  rfl

theorem compactAcceptedAccountChanges_ran
    (ran : compactAcceptedAccountChanges self = .ok () after) :
    after = { self with
      blockChangedAccounts :=
        self.blockChangedAccounts.take self.acceptedLen.blockChangedAccounts ++
          compact (self.rowMark (·.flags.blockChanged))
            (self.blockChangedAccounts.drop self.acceptedLen.blockChangedAccounts) } := by
  unfold compactAcceptedAccountChanges at ran
  rw [Action.bind_run, Action.get_run] at ran
  dsimp only at ran
  obtain ⟨kept, consumed, consumedRan, rest⟩ := Action.bind_eq_ok.mp ran
  obtain ⟨_, restored, restoredRan, finish⟩ := Action.bind_eq_ok.mp rest
  cases finish
  obtain ⟨rfl, rfl⟩ := compaction_ran (fun _ _ _ => rfl) (fun _ => rfl) (fun _ _ => rfl)
    (fun row isMarked => by rw [← isMarked]) consumedRan restoredRan
  rfl

theorem compactAcceptedStorageWipes_ran
    (ran : compactAcceptedStorageWipes self = .ok () after) :
    after = { self with
      blockStorageWipes :=
        self.blockStorageWipes.take self.acceptedLen.blockStorageWipes ++
          compact (self.rowMark (·.flags.storageWiped))
            (self.blockStorageWipes.drop self.acceptedLen.blockStorageWipes) } := by
  unfold compactAcceptedStorageWipes at ran
  rw [Action.bind_run, Action.get_run] at ran
  dsimp only at ran
  obtain ⟨kept, consumed, consumedRan, rest⟩ := Action.bind_eq_ok.mp ran
  obtain ⟨_, restored, restoredRan, finish⟩ := Action.bind_eq_ok.mp rest
  cases finish
  obtain ⟨rfl, rfl⟩ := compaction_ran (fun _ _ _ => rfl) (fun _ => rfl) (fun _ _ => rfl)
    (fun row isMarked => by rw [← isMarked]) consumedRan restoredRan
  rfl

end WorldState

end EvmZig.State
