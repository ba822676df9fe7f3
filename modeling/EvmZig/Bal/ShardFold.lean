import EvmZig.Bal.Model
import EvmZig.Lib.Table

/-!
# The fold of access-list shards (`eth/bal/shard_fold.zig`)

Shards are appended in any order and the fold puts them in canonical order.
`finish` builds the canonical list and `matchesClaim` walks the same order
against a claimed list, so the claim is compared without building it.  An index
that the source sorts stands here as the sorted entries themselves.
-/

set_option autoImplicit false

namespace EvmZig.Bal

open Zig

variable {expected : List AccountChanges}

/-! ## Equality of lists (`eth/bal/model.zig`) -/

/-- The two lists have one length and agree entry by entry. -/
def matchEach {α : Type} (same : α → α → Bool) (expected actual : List α) : Bool :=
  if expected.length ≠ actual.length then false
  else (expected.zip actual).all fun pair => same pair.1 pair.2

def changesEql {α : Type} [DecidableEq α] (expected actual : List α) : Bool :=
  matchEach (fun expectedChange actualChange => decide (expectedChange = actualChange))
    expected actual

def codeChangesEql (expected actual : List CodeChange) : Bool :=
  matchEach (fun expectedChange actualChange =>
      decide (expectedChange.blockAccessIndex = actualChange.blockAccessIndex) &&
        decide (expectedChange.newCode.bytes = actualChange.newCode.bytes))
    expected actual

def storageChangesEql (expected actual : List SlotChanges) : Bool :=
  matchEach (fun expectedSlot actualSlot =>
      decide (expectedSlot.slot = actualSlot.slot) &&
        changesEql expectedSlot.changes actualSlot.changes)
    expected actual

def accountEql (expected actual : AccountChanges) : Bool :=
  decide (expected.address = actual.address) &&
    storageChangesEql expected.storageChanges actual.storageChanges &&
    decide (expected.storageReads = actual.storageReads) &&
    changesEql expected.balanceChanges actual.balanceChanges &&
    changesEql expected.nonceChanges actual.nonceChanges &&
    codeChangesEql expected.codeChanges actual.codeChanges

def eql (expected actual : List AccountChanges) : Bool :=
  matchEach accountEql expected actual

theorem matchEach_iff {α : Type} {same : α → α → Bool}
    (decides : ∀ left right, same left right = true ↔ left = right) (expected actual : List α) :
    matchEach same expected actual = true ↔ expected = actual := by
  induction expected generalizing actual with
  | nil => cases actual <;> simp [matchEach]
  | cons expectedHead expected ih =>
      cases actual with
      | nil => simp [matchEach]
      | cons actualHead actual =>
          have tail := ih actual
          by_cases lengths : expected.length = actual.length
          · simp only [matchEach, lengths, ne_eq, not_true_eq_false, if_false] at tail
            simp [matchEach, lengths, decides, tail]
          · have differ : expected ≠ actual := fun same => lengths (congrArg _ same)
            simp [matchEach, lengths, differ]

@[simp] theorem changesEql_iff {α : Type} [DecidableEq α] (expected actual : List α) :
    changesEql expected actual = true ↔ expected = actual :=
  matchEach_iff (fun _ _ => decide_eq_true_iff) expected actual

@[simp] theorem codeChangesEql_iff (expected actual : List CodeChange) :
    codeChangesEql expected actual = true ↔ expected = actual := by
  apply matchEach_iff
  intro left right
  obtain ⟨leftIndex, leftCode⟩ := left
  obtain ⟨rightIndex, rightCode⟩ := right
  simp [Slice.ext_iff]

@[simp] theorem storageChangesEql_iff (expected actual : List SlotChanges) :
    storageChangesEql expected actual = true ↔ expected = actual := by
  apply matchEach_iff
  intro left right
  obtain ⟨leftSlot, leftChanges⟩ := left
  obtain ⟨rightSlot, rightChanges⟩ := right
  simp

@[simp] theorem accountEql_iff (expected actual : AccountChanges) :
    accountEql expected actual = true ↔ expected = actual := by
  cases expected
  cases actual
  simp [accountEql, and_assoc]

@[simp] theorem eql_iff (expected actual : List AccountChanges) :
    eql expected actual = true ↔ expected = actual :=
  matchEach_iff accountEql_iff expected actual

/-! ## Observations (`eth/bal/observation.zig`) -/

structure ValueObservation where
  original : U256
  current : U256
  deriving DecidableEq, Repr

structure NonceObservation where
  original : U64
  current : U64
  deriving DecidableEq, Repr

structure StorageObservation where
  slot : U256
  original : U256
  current : U256
  deriving DecidableEq, Repr

structure CodeObservation where
  originalHash : Hash
  currentHash : Hash
  currentCode : Slice
  deriving DecidableEq, Repr

def storageIsRead (storageWiped : Bool) (original current : U256) : Bool :=
  storageWiped || original == current

structure AccountObservation where
  address : Address
  storage : List StorageObservation := []
  balance : Option ValueObservation := none
  nonce : Option NonceObservation := none
  code : Option CodeObservation := none
  storageWiped : Bool := false
  deriving DecidableEq, Repr

structure LaneTransition where
  accounts : List AccountObservation := []
  deriving DecidableEq, Repr

/-! ## The fold -/

inductive Lifecycle
  | building
  | failed
  | finished
  deriving DecidableEq, Repr

inductive FoldError
  | duplicateStorageChangeIndex
  | duplicateBalanceChangeIndex
  | duplicateNonceChangeIndex
  | duplicateCodeChangeIndex
  | foldAlreadyFinished
  | foldFailed
  deriving DecidableEq, Repr

structure FoldStorageChange where
  slot : U256
  blockAccessIndex : BlockAccessIndex
  newValue : U256
  deriving DecidableEq, Repr

def FoldStorageChange.change (change : FoldStorageChange) : StorageChange where
  blockAccessIndex := change.blockAccessIndex
  newValue := change.newValue

structure FoldAccount where
  storageChanges : List FoldStorageChange := []
  storageReads : List U256 := []
  balanceChanges : List BalanceChange := []
  nonceChanges : List NonceChange := []
  codeChanges : List CodeChange := []
  deriving DecidableEq, Repr

structure ShardFold where
  accounts : Lib.Table Address FoldAccount
  lifecycle : Lifecycle := .building

namespace FoldAccount

def append (fold : FoldAccount) (account : AccountChanges) : FoldAccount where
  storageChanges := fold.storageChanges ++ account.storageChanges.flatMap fun slot =>
    slot.changes.map fun change => ⟨slot.slot, change.blockAccessIndex, change.newValue⟩
  storageReads := fold.storageReads ++ account.storageReads
  balanceChanges := fold.balanceChanges ++ account.balanceChanges
  nonceChanges := fold.nonceChanges ++ account.nonceChanges
  codeChanges := fold.codeChanges ++ account.codeChanges

def appendStorage (storageWiped : Bool) (blockAccessIndex : BlockAccessIndex)
    (fold : FoldAccount) (slot : StorageObservation) : FoldAccount :=
  if storageIsRead storageWiped slot.original slot.current then
    { fold with storageReads := fold.storageReads ++ [slot.slot] }
  else
    { fold with
      storageChanges := fold.storageChanges ++ [⟨slot.slot, blockAccessIndex, slot.current⟩] }

def appendBalance (blockAccessIndex : BlockAccessIndex) (balance : ValueObservation)
    (fold : FoldAccount) : FoldAccount :=
  if balance.original ≠ balance.current then
    { fold with balanceChanges := fold.balanceChanges ++ [⟨blockAccessIndex, balance.current⟩] }
  else fold

def appendNonce (blockAccessIndex : BlockAccessIndex) (nonce : NonceObservation)
    (fold : FoldAccount) : FoldAccount :=
  if nonce.original ≠ nonce.current then
    { fold with nonceChanges := fold.nonceChanges ++ [⟨blockAccessIndex, nonce.current⟩] }
  else fold

def appendCode (blockAccessIndex : BlockAccessIndex) (code : CodeObservation)
    (fold : FoldAccount) : FoldAccount :=
  if code.originalHash ≠ code.currentHash then
    { fold with codeChanges := fold.codeChanges ++ [⟨blockAccessIndex, code.currentCode⟩] }
  else fold

def appendObservation (fold : FoldAccount) (account : AccountObservation)
    (blockAccessIndex : BlockAccessIndex) : FoldAccount :=
  let fold := account.storage.foldl (appendStorage account.storageWiped blockAccessIndex) fold
  let fold := account.balance.elim fold fun balance => appendBalance blockAccessIndex balance fold
  let fold := account.nonce.elim fold fun nonce => appendNonce blockAccessIndex nonce fold
  account.code.elim fold fun code => appendCode blockAccessIndex code fold

end FoldAccount

/-! ## Canonical order of one account -/

variable {order : List (Address × FoldAccount)} {fold : ShardFold}

/-- `std.mem.sort` and `std.sort.pdq` by a strict order. -/
def sortBy {α : Type} (lessThan : α → α → Bool) (items : List α) : List α :=
  items.mergeSort fun left right => !lessThan right left

def storageChangeLessThan (left right : FoldStorageChange) : Bool :=
  if left.slot ≠ right.slot then decide (left.slot < right.slot)
  else decide (left.blockAccessIndex < right.blockAccessIndex)

def u256LessThan (left right : U256) : Bool := decide (left < right)

def balanceChangeLessThan (left right : BalanceChange) : Bool :=
  decide (left.blockAccessIndex < right.blockAccessIndex)

def nonceChangeLessThan (left right : NonceChange) : Bool :=
  decide (left.blockAccessIndex < right.blockAccessIndex)

def codeChangeLessThan (left right : CodeChange) : Bool :=
  decide (left.blockAccessIndex < right.blockAccessIndex)

def accountLessThan (left right : Address × FoldAccount) : Bool :=
  left.1.order right.1 == .lt

/-- Each entry is compared with the one before it. -/
def rejectDuplicates {α : Type} (repeats : α → α → Bool) (duplicate : FoldError)
    (changes : List α) : Except FoldError Unit :=
  if (changes.tail.zip changes).any fun pair => repeats pair.1 pair.2 then .error duplicate
  else .ok ()

def rejectDuplicateStorageIndices (order : List FoldStorageChange) : Except FoldError Unit :=
  rejectDuplicates (fun current previous => current.slot == previous.slot &&
      current.blockAccessIndex == previous.blockAccessIndex)
    .duplicateStorageChangeIndex order

def rejectDuplicateBalanceIndices (changes : List BalanceChange) : Except FoldError Unit :=
  rejectDuplicates
    (fun current previous => current.blockAccessIndex == previous.blockAccessIndex)
    .duplicateBalanceChangeIndex changes

def rejectDuplicateNonceIndices (changes : List NonceChange) : Except FoldError Unit :=
  rejectDuplicates
    (fun current previous => current.blockAccessIndex == previous.blockAccessIndex)
    .duplicateNonceChangeIndex changes

def rejectDuplicateCodeIndices (changes : List CodeChange) : Except FoldError Unit :=
  rejectDuplicates
    (fun current previous => current.blockAccessIndex == previous.blockAccessIndex)
    .duplicateCodeChangeIndex changes

/-- `fold` is the account with its lists sorted in place. -/
structure CanonicalAccount where
  address : Address
  fold : FoldAccount
  storageOrder : List FoldStorageChange
  deriving DecidableEq, Repr

namespace CanonicalAccount

def init (address : Address) (fold : FoldAccount) : Except FoldError CanonicalAccount := do
  let storageOrder := sortBy storageChangeLessThan fold.storageChanges
  rejectDuplicateStorageIndices storageOrder
  let fold := { fold with storageReads := sortBy u256LessThan fold.storageReads }
  let fold := { fold with balanceChanges := sortBy balanceChangeLessThan fold.balanceChanges }
  rejectDuplicateBalanceIndices fold.balanceChanges
  let fold := { fold with nonceChanges := sortBy nonceChangeLessThan fold.nonceChanges }
  rejectDuplicateNonceIndices fold.nonceChanges
  let fold := { fold with codeChanges := sortBy codeChangeLessThan fold.codeChanges }
  rejectDuplicateCodeIndices fold.codeChanges
  return ⟨address, fold, storageOrder⟩

end CanonicalAccount

/-! ### Storage changes -/

/-- The changes of one slot against the front of the order; what is left of the
order when they agree. -/
def runMatches (slot : U256) :
    List StorageChange → List FoldStorageChange → Option (List FoldStorageChange)
  | [], [] => some []
  | _ :: _, [] => none
  | expected, actual :: order =>
      if actual.slot = slot then
        match expected with
        | [] => none
        | expectedChange :: expected =>
            if expectedChange.blockAccessIndex ≠ actual.blockAccessIndex ∨
                expectedChange.newValue ≠ actual.newValue then none
            else runMatches slot expected order
      else if expected.isEmpty then some (actual :: order) else none

def storageChangesMatch : List SlotChanges → List FoldStorageChange → Bool
  | [], order => order.isEmpty
  | _ :: _, [] => false
  | expectedSlot :: expected, actual :: order =>
      if actual.slot ≠ expectedSlot.slot then false
      else
        match runMatches actual.slot expectedSlot.changes (actual :: order) with
        | none => false
        | some rest => storageChangesMatch expected rest

def toOwnedStorageChanges : List FoldStorageChange → List SlotChanges
  | [] => []
  | first :: order =>
      ⟨first.slot, first.change ::
        (order.takeWhile fun change => decide (change.slot = first.slot)).map
          FoldStorageChange.change⟩ ::
        toOwnedStorageChanges (order.dropWhile fun change => decide (change.slot = first.slot))
  termination_by order => order.length
  decreasing_by exact Nat.lt_succ_of_le (List.dropWhile_sublist _).length_le

theorem runMatches_iff (slot : U256) (expected : List StorageChange)
    (order rest : List FoldStorageChange) :
    runMatches slot expected order = some rest ↔
      expected = (order.takeWhile fun change => decide (change.slot = slot)).map
          FoldStorageChange.change ∧
        rest = order.dropWhile fun change => decide (change.slot = slot) := by
  induction order generalizing expected with
  | nil => cases expected <;> simp [runMatches, eq_comm]
  | cons actual order ih =>
      by_cases here : actual.slot = slot
      · cases expected with
        | nil => simp [runMatches, here]
        | cons expectedChange expected =>
            have sameChange : expectedChange = actual.change ↔
                expectedChange.blockAccessIndex = actual.blockAccessIndex ∧
                  expectedChange.newValue = actual.newValue := by
              obtain ⟨index, value⟩ := expectedChange
              exact StorageChange.mk.injEq .. ▸ Iff.rfl
            rw [List.takeWhile_cons_of_pos (by simpa using here),
              List.dropWhile_cons_of_pos (by simpa using here), List.map_cons, List.cons.injEq,
              runMatches, if_pos here]
            by_cases agree : expectedChange = actual.change
            · rw [if_neg (by have := sameChange.mp agree; tauto), ih]
              simp [agree]
            · rw [if_pos (by have := agree ∘ sameChange.mpr; tauto)]
              simp [agree]
      · rw [List.takeWhile_cons_of_neg (by simpa using here),
          List.dropWhile_cons_of_neg (by simpa using here)]
        cases expected <;> simp [runMatches, here, eq_comm]

theorem storageChangesMatch_iff (expected : List SlotChanges) (order : List FoldStorageChange) :
    storageChangesMatch expected order = true ↔ expected = toOwnedStorageChanges order := by
  induction expected generalizing order with
  | nil => cases order <;> simp [storageChangesMatch, toOwnedStorageChanges]
  | cons expectedSlot expected ih =>
      cases order with
      | nil => simp [storageChangesMatch, toOwnedStorageChanges]
      | cons actual order =>
          obtain ⟨slot, changes⟩ := expectedSlot
          rw [storageChangesMatch, toOwnedStorageChanges]
          by_cases here : actual.slot = slot
          · subst here
            cases walked : runMatches actual.slot changes (actual :: order) with
            | none =>
                have misses : ¬ changes = actual.change ::
                    (order.takeWhile fun change => decide (change.slot = actual.slot)).map
                      FoldStorageChange.change := by
                  intro agree
                  have found := (runMatches_iff actual.slot changes (actual :: order) _).mpr
                    ⟨by simpa using agree, rfl⟩
                  rw [walked] at found
                  cases found
                simp [misses]
            | some rest =>
                obtain ⟨agree, restEq⟩ := (runMatches_iff _ _ _ _).mp walked
                simp only [List.takeWhile_cons, decide_true, if_true, List.map_cons] at agree
                simp only [List.dropWhile_cons, decide_true, if_true] at restEq
                simp [ih, agree, restEq]
          · have differs : slot ≠ actual.slot := fun same => here same.symm
            simp [here, differs]

/-! ### Storage reads -/

/-- The reads not yet visited, the changes not yet passed and the last slot seen. -/
structure CanonicalStorageReads where
  reads : List U256
  changes : List FoldStorageChange
  previous : Option U256 := none

def nextRead (previous : Option U256) (changes : List FoldStorageChange) :
    List U256 → Option (U256 × CanonicalStorageReads)
  | [] => none
  | slot :: reads =>
      if previous = some slot then nextRead previous changes reads
      else
        let changes := changes.dropWhile fun change => decide (change.slot < slot)
        if changes.head?.map FoldStorageChange.slot = some slot then
          nextRead (some slot) changes reads
        else some (slot, ⟨reads, changes, some slot⟩)

def CanonicalStorageReads.next (reads : CanonicalStorageReads) :
    Option (U256 × CanonicalStorageReads) :=
  nextRead reads.previous reads.changes reads.reads

theorem nextRead_shorter {previous : Option U256} {changes : List FoldStorageChange}
    {reads : List U256} {slot : U256} {rest : CanonicalStorageReads}
    (step : nextRead previous changes reads = some (slot, rest)) :
    rest.reads.length < reads.length := by
  induction reads generalizing previous changes with
  | nil => cases step
  | cons read reads ih =>
      rw [nextRead] at step
      split at step
      · exact Nat.lt_succ_of_lt (ih step)
      · dsimp only at step
        split at step
        · exact Nat.lt_succ_of_lt (ih step)
        · cases step
          exact Nat.lt_succ_self _

def storageReadsMatch : List U256 → CanonicalStorageReads → Bool
  | [], reads => reads.next.isNone
  | slot :: expected, reads =>
      match reads.next with
      | none => false
      | some (read, rest) => if read ≠ slot then false else storageReadsMatch expected rest

def toOwnedStorageReads (reads : CanonicalStorageReads) : List U256 :=
  match _step : reads.next with
  | none => []
  | some (slot, rest) => slot :: toOwnedStorageReads rest
  termination_by reads.reads.length
  decreasing_by exact nextRead_shorter _step

theorem toOwnedStorageReads_none {reads : CanonicalStorageReads} (step : reads.next = none) :
    toOwnedStorageReads reads = [] := by
  rw [toOwnedStorageReads]
  split
  · rfl
  · next found => cases step.symm.trans found

theorem toOwnedStorageReads_some {reads rest : CanonicalStorageReads} {slot : U256}
    (step : reads.next = some (slot, rest)) :
    toOwnedStorageReads reads = slot :: toOwnedStorageReads rest := by
  rw [toOwnedStorageReads]
  split
  · next missing => cases step.symm.trans missing
  · next found =>
      cases step.symm.trans found
      rfl

theorem storageReadsMatch_iff (expected : List U256) (reads : CanonicalStorageReads) :
    storageReadsMatch expected reads = true ↔ expected = toOwnedStorageReads reads := by
  induction expected generalizing reads with
  | nil =>
      rw [storageReadsMatch]
      cases step : reads.next with
      | none => simp [toOwnedStorageReads_none step]
      | some next => simp [toOwnedStorageReads_some step]
  | cons slot expected ih =>
      rw [storageReadsMatch]
      cases step : reads.next with
      | none => simp [toOwnedStorageReads_none step]
      | some next =>
          obtain ⟨read, rest⟩ := next
          rw [toOwnedStorageReads_some step]
          by_cases here : read = slot
          · simp [here, ih]
          · have differs : slot ≠ read := fun same => here same.symm
            simp [here, differs]

/-! ### Whole accounts -/

namespace CanonicalAccount

def canonicalReads (account : CanonicalAccount) : CanonicalStorageReads where
  reads := account.fold.storageReads
  changes := account.storageOrder

def matchesClaim (account : CanonicalAccount) (expected : AccountChanges) : Bool :=
  if account.address ≠ expected.address ∨
      !storageChangesMatch expected.storageChanges account.storageOrder ∨
      !storageReadsMatch expected.storageReads account.canonicalReads ∨
      !changesEql expected.balanceChanges account.fold.balanceChanges ∨
      !changesEql expected.nonceChanges account.fold.nonceChanges ∨
      !codeChangesEql expected.codeChanges account.fold.codeChanges then false
  else true

def toOwnedAccount (account : CanonicalAccount) : AccountChanges where
  address := account.address
  storageChanges := toOwnedStorageChanges account.storageOrder
  storageReads := toOwnedStorageReads account.canonicalReads
  balanceChanges := account.fold.balanceChanges
  nonceChanges := account.fold.nonceChanges
  codeChanges := account.fold.codeChanges

/-- The walk accepts just the account that materialising would build. -/
theorem matchesClaim_iff (account : CanonicalAccount) (expected : AccountChanges) :
    account.matchesClaim expected = true ↔ expected = account.toOwnedAccount := by
  obtain ⟨address, storageChanges, storageReads, balanceChanges, nonceChanges, codeChanges⟩ :=
    expected
  have address_iff : account.address = address ↔ address = account.address := eq_comm
  simp only [matchesClaim, toOwnedAccount, Bool.if_false_left, Bool.and_true,
    decide_eq_false_iff_not, AccountChanges.mk.injEq, not_or, not_not, ne_eq,
    Bool.not_eq_eq_eq_not, Bool.not_true, Bool.not_eq_false, storageChangesMatch_iff,
    storageReadsMatch_iff, changesEql_iff, codeChangesEql_iff, address_iff]

end CanonicalAccount

/-! ## Canonical order of the fold -/

namespace Canonical

/-- The accounts in address order. -/
def init (fold : ShardFold) : List (Address × FoldAccount) :=
  sortBy accountLessThan fold.accounts.rows

/-- Each visited account keeps its lists sorted; the walk stops at the first
account that differs. -/
def matchAccounts (accounts : Lib.Table Address FoldAccount) :
    List (Address × FoldAccount) → List AccountChanges →
      Except FoldError (Lib.Table Address FoldAccount × Bool)
  | (address, fold) :: order, expectedAccount :: expected => do
      let actual ← CanonicalAccount.init address fold
      let accounts := accounts.put address actual.fold
      if !actual.matchesClaim expectedAccount then return (accounts, false)
      matchAccounts accounts order expected
  | _, _ => return (accounts, true)

def matchesClaim (fold : ShardFold) (expected : List AccountChanges) :
    Except FoldError (Lib.Table Address FoldAccount × Bool) :=
  let accountOrder := init fold
  if accountOrder.length ≠ expected.length then return (fold.accounts, false)
  else matchAccounts fold.accounts accountOrder expected

/-- The accounts of an order, each materialised. -/
def toOwnedAccounts (order : List (Address × FoldAccount)) :
    Except FoldError (List AccountChanges) :=
  order.mapM fun (address, fold) => do
    let canonical ← CanonicalAccount.init address fold
    return canonical.toOwnedAccount

def toOwnedDecoded (fold : ShardFold) : Except FoldError (List AccountChanges) :=
  toOwnedAccounts (init fold)

end Canonical

namespace ShardFold

def init : ShardFold where
  accounts := ⟨[], List.nodup_nil⟩

/-- What a call answers when the fold is no longer being built. -/
def closed : Lifecycle → Option FoldError
  | .building => none
  | .failed => some .foldFailed
  | .finished => some .foldAlreadyFinished

def accountFor (fold : ShardFold) (target : Address) : FoldAccount :=
  (fold.accounts.value target).getD {}

def append (fold : ShardFold) (shard : List AccountChanges) : ShardFold × Except FoldError Unit :=
  match closed fold.lifecycle with
  | some error => (fold, .error error)
  | none =>
      let appended := shard.foldl
        (fun fold account => { fold with
          accounts := fold.accounts.put account.address
            ((fold.accountFor account.address).append account) }) fold
      (appended, .ok ())

def appendObservation (fold : ShardFold) (account : AccountObservation)
    (blockAccessIndex : BlockAccessIndex) : ShardFold × Except FoldError Unit :=
  match closed fold.lifecycle with
  | some error => (fold, .error error)
  | none =>
      ({ fold with
        accounts := fold.accounts.put account.address
          ((fold.accountFor account.address).appendObservation account blockAccessIndex) },
        .ok ())

def finish (fold : ShardFold) : ShardFold × Except FoldError (List AccountChanges) :=
  match closed fold.lifecycle with
  | some error => (fold, .error error)
  | none =>
      match Canonical.toOwnedDecoded fold with
      | .error error => ({ fold with lifecycle := .failed }, .error error)
      | .ok decoded => ({ fold with lifecycle := .finished }, .ok decoded)

def matchesClaim (fold : ShardFold) (expected : List AccountChanges) :
    ShardFold × Except FoldError Bool :=
  match closed fold.lifecycle with
  | some error => (fold, .error error)
  | none =>
      match Canonical.matchesClaim fold expected with
      | .error error => ({ fold with lifecycle := .failed }, .error error)
      | .ok (accounts, verdict) => ({ fold with accounts }, .ok verdict)

end ShardFold

/-! ## Comparing and materialising -/

namespace Canonical

theorem toOwnedAccounts_cons (address : Address) (fold : FoldAccount)
    (order : List (Address × FoldAccount)) :
    toOwnedAccounts ((address, fold) :: order) =
      (CanonicalAccount.init address fold).bind fun canonical =>
        (toOwnedAccounts order).bind fun owned => .ok (canonical.toOwnedAccount :: owned) := by
  cases canonical : CanonicalAccount.init address fold <;>
    simp [toOwnedAccounts, canonical, bind, Except.bind, pure, Except.pure]

theorem toOwnedAccounts_length {decoded : List AccountChanges}
    (built : toOwnedAccounts order = .ok decoded) : decoded.length = order.length := by
  induction order generalizing decoded with
  | nil =>
      cases built
      rfl
  | cons entry order ih =>
      obtain ⟨address, fold⟩ := entry
      rw [toOwnedAccounts_cons] at built
      cases canonical : CanonicalAccount.init address fold with
      | error error => simp [canonical, Except.bind] at built
      | ok account =>
          cases rest : toOwnedAccounts order with
          | error error => simp [canonical, rest, Except.bind] at built
          | ok owned =>
              simp only [canonical, rest, Except.bind, Except.ok.injEq] at built
              subst built
              simp [ih rest]

/-- Along one order the walk accepts a list just when materialising builds it. -/
theorem matchAccounts_iff (accounts : Lib.Table Address FoldAccount)
    (lengths : order.length = expected.length) :
    (∃ left, matchAccounts accounts order expected = .ok (left, true)) ↔
      toOwnedAccounts order = .ok expected := by
  induction order generalizing expected accounts with
  | nil =>
      obtain rfl := List.length_eq_zero_iff.mp lengths.symm
      simp [matchAccounts, toOwnedAccounts, pure, Except.pure]
  | cons entry order ih =>
      obtain ⟨address, fold⟩ := entry
      cases expected with
      | nil => cases lengths
      | cons expectedAccount expected =>
          rw [toOwnedAccounts_cons, matchAccounts]
          cases canonical : CanonicalAccount.init address fold with
          | error error => simp [bind, Except.bind]
          | ok account =>
              have rest := ih (accounts.put address account.fold) (Nat.succ.inj lengths)
              have here := account.matchesClaim_iff expectedAccount
              cases verdict : account.matchesClaim expectedAccount with
              | true =>
                  obtain rfl := here.mp verdict
                  simp only [bind, Except.bind, verdict, Bool.not_true]
                  rw [if_neg Bool.false_ne_true, rest]
                  cases toOwnedAccounts order <;> simp
              | false =>
                  have differs : account.toOwnedAccount ≠ expectedAccount := by
                    intro same
                    rw [here.mpr same.symm] at verdict
                    cases verdict
                  simp only [bind, Except.bind, verdict, Bool.not_false, if_true, pure, Except.pure]
                  cases toOwnedAccounts order <;> simp [differs]

/-- Where the whole order materialises, the walk answers by equality. -/
theorem matchAccounts_of_owned {decoded : List AccountChanges}
    (accounts : Lib.Table Address FoldAccount) (built : toOwnedAccounts order = .ok decoded)
    (lengths : order.length = expected.length) :
    ∃ left, matchAccounts accounts order expected = .ok (left, eql expected decoded) := by
  suffices answers : ∃ left verdict, matchAccounts accounts order expected = .ok (left, verdict) by
    obtain ⟨left, verdict, walked⟩ := answers
    have exact := matchAccounts_iff accounts lengths
    rw [built, Except.ok.injEq] at exact
    have verdictEq : verdict = eql expected decoded := by
      rw [Bool.eq_iff_iff, eql_iff, eq_comm (a := expected), ← exact, walked]
      simp
    exact ⟨left, verdictEq ▸ walked⟩
  clear lengths
  induction order generalizing decoded accounts expected with
  | nil => exact ⟨accounts, true, rfl⟩
  | cons entry order ih =>
      obtain ⟨address, fold⟩ := entry
      cases expected with
      | nil => exact ⟨accounts, true, rfl⟩
      | cons expectedAccount expected =>
          rw [toOwnedAccounts_cons] at built
          rw [matchAccounts]
          cases canonical : CanonicalAccount.init address fold with
          | error error => simp [canonical, Except.bind] at built
          | ok account =>
              cases rest : toOwnedAccounts order with
              | error error => simp [canonical, rest, Except.bind] at built
              | ok owned =>
                  simp only [bind, Except.bind]
                  split
                  · exact ⟨_, false, rfl⟩
                  · exact ih (accounts.put address account.fold) rest

end Canonical

/-! ## A compared fold stays live -/

theorem sortBy_idem {α : Type} {lessThan : α → α → Bool}
    (trans : ∀ a b c, !lessThan b a → !lessThan c b → !lessThan c a)
    (asymm : ∀ a b, lessThan a b → !lessThan b a) (items : List α) :
    sortBy lessThan (sortBy lessThan items) = sortBy lessThan items := by
  apply List.mergeSort_of_pairwise
  apply List.pairwise_mergeSort trans
  intro a b
  cases ahead : lessThan b a with
  | false => simp
  | true => simpa using asymm b a ahead

/-- The account with the lists that canonical order sorts in place. -/
def FoldAccount.sorted (fold : FoldAccount) : FoldAccount where
  storageChanges := fold.storageChanges
  storageReads := sortBy u256LessThan fold.storageReads
  balanceChanges := sortBy balanceChangeLessThan fold.balanceChanges
  nonceChanges := sortBy nonceChangeLessThan fold.nonceChanges
  codeChanges := sortBy codeChangeLessThan fold.codeChanges

theorem FoldAccount.sorted_sorted (fold : FoldAccount) : fold.sorted.sorted = fold.sorted := by
  have reads := @sortBy_idem _ u256LessThan
    (by simp only [u256LessThan]; grind) (by simp only [u256LessThan]; grind) fold.storageReads
  have balances := @sortBy_idem _ balanceChangeLessThan
    (by simp only [balanceChangeLessThan]; grind) (by simp only [balanceChangeLessThan]; grind)
    fold.balanceChanges
  have nonces := @sortBy_idem _ nonceChangeLessThan
    (by simp only [nonceChangeLessThan]; grind) (by simp only [nonceChangeLessThan]; grind)
    fold.nonceChanges
  have codes := @sortBy_idem _ codeChangeLessThan
    (by simp only [codeChangeLessThan]; grind) (by simp only [codeChangeLessThan]; grind)
    fold.codeChanges
  simp only [FoldAccount.sorted, reads, balances, nonces, codes]

theorem CanonicalAccount.init_fold {address : Address} {fold : FoldAccount}
    {account : CanonicalAccount} (canonical : CanonicalAccount.init address fold = .ok account) :
    account.fold = fold.sorted := by
  simp only [CanonicalAccount.init, bind, Except.bind, pure, Except.pure] at canonical
  split at canonical
  · cases canonical
  · split at canonical
    · cases canonical
    · split at canonical
      · cases canonical
      · split at canonical
        · cases canonical
        · cases canonical
          rfl

/-- Sorting an account in place does not change what it canonicalises to. -/
theorem CanonicalAccount.init_sorted (address : Address) (fold : FoldAccount) :
    CanonicalAccount.init address fold.sorted = CanonicalAccount.init address fold := by
  have again := fold.sorted_sorted
  simp only [FoldAccount.sorted, FoldAccount.mk.injEq] at again
  obtain ⟨-, reads, balances, nonces, codes⟩ := again
  simp only [CanonicalAccount.init, FoldAccount.sorted, reads, balances, nonces, codes]

namespace Canonical

/-- The visited accounts are sorted, the others are as they were. -/
def sortVisited (visited : List Address) (address : Address) (fold : FoldAccount) : FoldAccount :=
  if address ∈ visited then fold.sorted else fold

theorem matchAccounts_left {accounts left : Lib.Table Address FoldAccount} {verdict : Bool}
    (held : ∀ entry ∈ order, ∃ fold, accounts.value entry.1 = some fold ∧ fold.sorted = entry.2.sorted)
    (walked : matchAccounts accounts order expected = .ok (left, verdict)) :
    ∃ visited, left = accounts.mapRows (sortVisited visited) := by
  induction order generalizing expected accounts with
  | nil =>
      cases walked
      exact ⟨[], Lib.Table.eq_of_rows (by simp [Lib.Table.mapRows, sortVisited])⟩
  | cons entry order ih =>
      obtain ⟨address, fold⟩ := entry
      cases expected with
      | nil =>
          cases walked
          exact ⟨[], Lib.Table.eq_of_rows (by simp [Lib.Table.mapRows, sortVisited])⟩
      | cons expectedAccount expected =>
          obtain ⟨kept, keptEq, keptSorted⟩ := held _ List.mem_cons_self
          rw [matchAccounts] at walked
          cases canonical : CanonicalAccount.init address fold with
          | error error => simp [canonical, bind, Except.bind] at walked
          | ok account =>
              have foldEq := CanonicalAccount.init_fold canonical
              have putEq : accounts.put address account.fold =
                  accounts.mapRows (sortVisited [address]) := by
                rw [foldEq, ← keptSorted, Lib.Table.put_eq_mapRows keptEq]
                apply Lib.Table.mapRows_congr
                intro other row found
                by_cases here : other = address
                · subst here
                  rw [keptEq, Option.some.injEq] at found
                  subst found
                  simp [sortVisited]
                · simp [sortVisited, here]
              simp only [canonical, bind, Except.bind] at walked
              rw [putEq] at walked
              split at walked
              · cases walked
                exact ⟨[address], rfl⟩
              · have heldRest : ∀ entry ∈ order, ∃ fold,
                    (accounts.mapRows (sortVisited [address])).value entry.1 = some fold ∧
                      fold.sorted = entry.2.sorted := by
                  intro entry member
                  obtain ⟨row, rowEq, rowSorted⟩ := held _ (List.mem_cons_of_mem _ member)
                  refine ⟨sortVisited [address] entry.1 row, ?_, ?_⟩
                  · rw [Lib.Table.value_mapRows, rowEq]
                    rfl
                  · unfold sortVisited
                    split
                    · rw [FoldAccount.sorted_sorted, rowSorted]
                    · exact rowSorted
                obtain ⟨visited, rfl⟩ := ih heldRest walked
                refine ⟨address :: visited, Lib.Table.eq_of_rows ?_⟩
                simp only [Lib.Table.mapRows, List.map_map]
                apply List.map_congr_left
                intro entry _
                by_cases here : entry.1 = address <;> by_cases later : entry.1 ∈ visited <;>
                  simp [sortVisited, here, later, FoldAccount.sorted_sorted]

end Canonical

namespace ShardFold

theorem finish_eq (live : closed fold.lifecycle = none) (finished : List AccountChanges) :
    fold.finish.2 = .ok finished ↔
      Canonical.toOwnedAccounts (Canonical.init fold) = .ok finished := by
  rw [finish, live]
  dsimp only [Canonical.toOwnedDecoded]
  cases Canonical.toOwnedAccounts (Canonical.init fold) <;> simp

theorem matchesClaim_eq (live : closed fold.lifecycle = none) (expected : List AccountChanges)
    (verdict : Bool) : (fold.matchesClaim expected).2 = .ok verdict ↔
      ∃ left, Canonical.matchesClaim fold expected = .ok (left, verdict) := by
  rw [matchesClaim, live]
  cases Canonical.matchesClaim fold expected <;> simp [Prod.ext_iff]

theorem matchesClaim_true_iff (fold : ShardFold) (expected : List AccountChanges) :
    (fold.matchesClaim expected).2 = .ok true ↔
      ∃ finished, fold.finish.2 = .ok finished ∧ eql expected finished = true := by
  cases live : closed fold.lifecycle with
  | some error => simp [matchesClaim, finish, live]
  | none =>
      rw [matchesClaim_eq live, Canonical.matchesClaim]
      by_cases lengths : (Canonical.init fold).length = expected.length
      · rw [if_neg (not_not.mpr lengths), Canonical.matchAccounts_iff fold.accounts lengths]
        simp [finish_eq live]
      · rw [if_pos lengths]
        constructor
        · intro answered
          simp [pure, Except.pure] at answered
        · intro built
          obtain ⟨finished, finishedEq, same⟩ := built
          rw [eql_iff] at same
          subst same
          exact absurd (Canonical.toOwnedAccounts_length ((finish_eq live _).mp finishedEq)).symm
            lengths

theorem matchesClaim_of_finish (fold : ShardFold) (expected : List AccountChanges)
    {finished : List AccountChanges} (built : fold.finish.2 = .ok finished) :
    (fold.matchesClaim expected).2 = .ok (eql expected finished) := by
  cases live : closed fold.lifecycle with
  | some error => simp [finish, live] at built
  | none =>
      have owned := (finish_eq live _).mp built
      rw [matchesClaim_eq live, Canonical.matchesClaim]
      by_cases lengths : (Canonical.init fold).length = expected.length
      · rw [if_neg (not_not.mpr lengths)]
        exact Canonical.matchAccounts_of_owned fold.accounts owned lengths
      · have differs : eql expected finished = false := by
          rw [Bool.eq_false_iff, ne_eq, eql_iff]
          rintro rfl
          exact lengths (Canonical.toOwnedAccounts_length owned).symm
        rw [if_pos lengths, differs]
        exact ⟨fold.accounts, rfl⟩

/-- Sorting visited accounts in place changes neither their order nor what they
materialise to. -/
theorem toOwnedAccounts_sortVisited (fold : ShardFold) (visited : List Address) :
    Canonical.toOwnedAccounts (Canonical.init { fold with
      accounts := fold.accounts.mapRows (Canonical.sortVisited visited) }) =
      Canonical.toOwnedAccounts (Canonical.init fold) := by
  have order : Canonical.init { fold with
        accounts := fold.accounts.mapRows (Canonical.sortVisited visited) } =
      (Canonical.init fold).map fun entry =>
        (entry.1, Canonical.sortVisited visited entry.1 entry.2) := by
    refine (List.map_mergeSort ?_).symm
    intro left _ right _
    rfl
  rw [order]
  generalize Canonical.init fold = entries
  induction entries with
  | nil => rfl
  | cons entry entries ih =>
      obtain ⟨address, account⟩ := entry
      have same : CanonicalAccount.init address (Canonical.sortVisited visited address account) =
          CanonicalAccount.init address account := by
        unfold Canonical.sortVisited
        split
        · exact CanonicalAccount.init_sorted address account
        · rfl
      rw [List.map_cons, Canonical.toOwnedAccounts_cons, Canonical.toOwnedAccounts_cons, same, ih]

theorem finish_of_matchesClaim {verdict : Bool}
    (matched : (fold.matchesClaim expected).2 = .ok verdict) :
    (fold.matchesClaim expected).1.finish.2 = fold.finish.2 := by
  cases live : closed fold.lifecycle with
  | some error => simp [matchesClaim, live] at matched
  | none =>
      obtain ⟨left, walked⟩ := (matchesClaim_eq live _ _).mp matched
      have leftEq : ∃ visited, left = fold.accounts.mapRows (Canonical.sortVisited visited) := by
        rw [Canonical.matchesClaim] at walked
        split at walked
        · cases walked
          exact ⟨[], Lib.Table.eq_of_rows (by simp [Lib.Table.mapRows, Canonical.sortVisited])⟩
        · apply Canonical.matchAccounts_left _ walked
          intro entry member
          have held := (List.mergeSort_perm _ _).mem_iff.mp member
          exact ⟨entry.2, Lib.Table.value_of_mem held, rfl⟩
      obtain ⟨visited, rfl⟩ := leftEq
      have after : (fold.matchesClaim expected).1 = { fold with
          accounts := fold.accounts.mapRows (Canonical.sortVisited visited) } := by
        rw [matchesClaim, live]
        simp only [walked]
      rw [after, finish, finish, live]
      dsimp only [Canonical.toOwnedDecoded]
      rw [toOwnedAccounts_sortVisited]
      cases Canonical.toOwnedAccounts (Canonical.init fold) <;> rfl

/-- For any fold and any claimed list, the comparison accepts just when
finishing the fold builds that list; where finishing builds some list, the
comparison answers whether it is the claimed one; and a fold that was compared
still finishes as it would have before. -/
theorem matchesClaim_decides (fold : ShardFold) (expected : List AccountChanges) :
    ((fold.matchesClaim expected).2 = .ok true ↔
      ∃ finished, fold.finish.2 = .ok finished ∧ eql expected finished = true) ∧
    (∀ finished, fold.finish.2 = .ok finished →
      (fold.matchesClaim expected).2 = .ok (eql expected finished)) ∧
    (∀ verdict, (fold.matchesClaim expected).2 = .ok verdict →
      (fold.matchesClaim expected).1.finish.2 = fold.finish.2) := by
  refine ⟨fold.matchesClaim_true_iff expected, ?_, ?_⟩
  · intro finished built
    exact fold.matchesClaim_of_finish expected built
  · intro verdict matched
    exact fold.finish_of_matchesClaim matched

end ShardFold

end EvmZig.Bal
