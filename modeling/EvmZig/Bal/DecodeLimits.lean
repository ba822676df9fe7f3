import EvmZig.Bal.ClaimIndex
import EvmZig.Bal.Codec
import EvmZig.Rlp.Limited

/-!
# Decode limits of a block (`eth/bal/model.zig`, `eth/block_admission.zig`)

The limits of a block follow from its gas limit, its transaction count and the
length of the encoding.  A valid access list fits them.
-/

set_option autoImplicit false

namespace EvmZig.Bal

open Zig Rlp

variable {budget : Budget} {accounts : List AccountChanges} {indices : Nat}
  {account : AccountChanges} {gasLimit : U64}

/-! ## The limits -/

def itemCost : Nat := 2000

def blockDecodeLimits (encodedLen : Nat) (transactionCount : BlockAccessIndex)
    (blockGasLimit : U64) : Limits :=
  let inputLimits := inputDecodeLimits encodedLen
  if blockGasLimit.val = 0 then inputLimits
  else
    -- `std.math.cast(usize, ..) orelse maxInt(usize)`
    let accessItems := min (blockGasLimit.val / itemCost) usizeMax
    let indexValues := saturatingAdd transactionCount.val 2
    let indexedEntries := saturatingMul accessItems indexValues
    let itemLimit := saturatingAdd 1
      (saturatingAdd (saturatingMul accessItems 11) (saturatingMul indexedEntries 12))
    let aggregatePerAccess := accountChangesCodec.sizeOf + slotChangesCodec.sizeOf +
      (Codec.uint 256).sizeOf
    let aggregatePerIndex := storageChangeCodec.sizeOf + balanceChangeCodec.sizeOf +
      nonceChangeCodec.sizeOf + codeChangeCodec.sizeOf
    let allocationLimit := saturatingAdd encodedLen
      (saturatingAdd (saturatingMul accessItems aggregatePerAccess)
        (saturatingMul indexedEntries aggregatePerIndex))
    { maxDepth := maxRlpDepth
      maxItems := min inputLimits.maxItems itemLimit
      maxAllocatedBytes := min inputLimits.maxAllocatedBytes allocationLimit }

inductive CountsError where
  | blockAccessListGasLimitExceeded
  deriving DecidableEq, Repr

def validateCounts (counts : Counts) (gasLimit : U64) : Checked CountsError Unit := do
  if gasLimit.val ≠ 0 then do
    let items ← counts.blockAccessItems
    if items > gasLimit.val / itemCost then Checked.fail .blockAccessListGasLimitExceeded
    else return ()
  else return ()

/-! ## Decoding over the budget of the caller -/

def copyCodesUnder : List CodeChange → Action Budget DecodeError Unit
  | [] => pure ()
  | change :: changes => do
      let budget ← Action.read id
      budget.ensureAllocation change.newCode.len
      let charged ← budget.commitAllocation change.newCode.len
      Action.modify fun _ => charged
      copyCodesUnder changes

def copyCodeBytesUnder : List AccountChanges → Action Budget DecodeError Unit
  | [] => pure ()
  | account :: accounts => do
      copyCodesUnder account.codeChanges
      copyCodeBytesUnder accounts

/-- `rlp.decodeAllocWithBudget`. -/
def decodeRowsUnder (encoded : Slice) : Action Budget DecodeError (List AccountChanges) :=
  fun budget =>
    match (do
        let accounts ← blockAccessListCodec.decodeFrom
        Decoder.expectDone
        return accounts) (Decoder.init encoded budget) with
    | .ok accounts decoder => .ok accounts decoder.budget
    | .fail error decoder => .fail error decoder.budget
    | .illegal => .illegal

/-- `decodeWithBudget`, with what is left of the budget also where it fails. -/
def decodeUnder (encoded : Slice) : Action Budget DecodeError (List AccountChanges) := do
  let accounts ← decodeRowsUnder encoded
  copyCodeBytesUnder accounts
  return accounts

/-! ## The run follows the limits -/

section Following

variable {α β : Type}

/-- A run over a budget does what the run under wider limits does, unless a limit stops it. -/
def FollowsUnder (limits wide : Limits) (narrow broad : Outcome Budget DecodeError α) : Prop :=
  match narrow with
  | .ok value after => after.Within limits ∧ broad = .ok value (after.under wide)
  | .fail error after => after.Within limits ∧
      (error.isLimit = true ∨ broad = .fail error (after.under wide))
  | .illegal => broad = .illegal

def LimitedUnder (body : Action Budget DecodeError α) : Prop :=
  ∀ (limits wide : Limits) (budget : Budget), wide.Covers limits → budget.Within limits →
    FollowsUnder limits wide (body budget) (body (budget.under wide))

theorem LimitedUnder.pure (value : α) : LimitedUnder (pure value) :=
  fun _ _ _ _ within => ⟨within, rfl⟩

theorem LimitedUnder.bind {first : Action Budget DecodeError α}
    {second : α → Action Budget DecodeError β} (firstLimited : LimitedUnder first)
    (secondLimited : ∀ value, LimitedUnder (second value)) : LimitedUnder (first >>= second) := by
  intro limits wide budget covers within
  have begun := firstLimited limits wide budget covers within
  rw [Action.bind_run, Action.bind_run]
  cases ran : first budget with
  | ok value middle =>
      rw [ran] at begun
      obtain ⟨middleWithin, broad⟩ := begun
      rw [broad]
      exact secondLimited value limits wide middle covers middleWithin
  | fail error middle =>
      rw [ran] at begun
      obtain ⟨middleWithin, same⟩ := begun
      refine ⟨middleWithin, same.imp_right fun broad => ?_⟩
      rw [broad]
  | illegal =>
      rw [ran] at begun
      rw [show first (budget.under wide) = .illegal from begun]
      rfl

theorem copyCodesUnder_limited (changes : List CodeChange) : LimitedUnder (copyCodesUnder changes) := by
  induction changes with
  | nil => exact .pure ()
  | cons change changes ih =>
      intro limits wide budget covers within
      simp only [copyCodesUnder, Action.bind_run, Action.read_run, id_eq]
      rcases ensureAllocation_follows covers within change.newCode.len with ⟨ran, broad, room⟩ | failed
      · have fits : budget.allocatedBytes + change.newCode.len ≤ usizeMax := by omega
        have charged : budget.allocatedBytes + change.newCode.len ≤ limits.maxAllocatedBytes := by
          omega
        rw [ran, broad, Budget.commitAllocation_eq fits,
          Budget.commitAllocation_eq (show (budget.under wide).allocatedBytes + _ ≤ _ from fits)]
        exact ih limits wide (budget.charge (.allocation change.newCode.len)) covers
          ⟨within.same, within.items, charged⟩
      · rw [failed]
        exact ⟨within, .inl rfl⟩

theorem copyCodeBytesUnder_limited (accounts : List AccountChanges) :
    LimitedUnder (copyCodeBytesUnder accounts) := by
  induction accounts with
  | nil => exact .pure ()
  | cons account accounts ih => exact (copyCodesUnder_limited _).bind fun _ => ih

theorem storageChange_limited : Limited storageChangeCodec.decodeFrom :=
  struct_limited (Fields.cons_limited (uint_limited 32)
    (Fields.cons_limited (uint_limited 256) Fields.nil_limited)) _ _ _

theorem balanceChange_limited : Limited balanceChangeCodec.decodeFrom :=
  struct_limited (Fields.cons_limited (uint_limited 32)
    (Fields.cons_limited (uint_limited 256) Fields.nil_limited)) _ _ _

theorem nonceChange_limited : Limited nonceChangeCodec.decodeFrom :=
  struct_limited (Fields.cons_limited (uint_limited 32)
    (Fields.cons_limited (uint_limited 64) Fields.nil_limited)) _ _ _

theorem codeChange_limited : Limited codeChangeCodec.decodeFrom :=
  struct_limited (Fields.cons_limited (uint_limited 32)
    (Fields.cons_limited bytes_limited Fields.nil_limited)) _ _ _

theorem slotChanges_limited : Limited slotChangesCodec.decodeFrom :=
  struct_limited (Fields.cons_limited (uint_limited 256)
    (Fields.cons_limited (list_limited storageChange_limited none) Fields.nil_limited)) _ _ _

theorem accountChanges_limited : Limited accountChangesCodec.decodeFrom :=
  struct_limited (Fields.cons_limited (fixedBytes_limited 20 (by decide))
    (Fields.cons_limited (list_limited slotChanges_limited none)
      (Fields.cons_limited (list_limited (uint_limited 256) none)
        (Fields.cons_limited (list_limited balanceChange_limited none)
          (Fields.cons_limited (list_limited nonceChange_limited none)
            (Fields.cons_limited (list_limited codeChange_limited none)
              Fields.nil_limited)))))) _ _ _

theorem blockAccessList_limited : Limited blockAccessListCodec.decodeFrom :=
  list_limited accountChanges_limited none

theorem decodeRowsUnder_limited (encoded : Slice) : LimitedUnder (decodeRowsUnder encoded) := by
  intro limits wide budget covers within
  have whole : Limited (do
      let accounts ← blockAccessListCodec.decodeFrom
      Decoder.expectDone
      return accounts) :=
    blockAccessList_limited.bind fun accounts => expectDone_limited.bind fun _ => .pure accounts
  have ran := whole limits wide (Decoder.init encoded budget) covers within
  have same : (Decoder.init encoded budget).under wide = Decoder.init encoded (budget.under wide) :=
    rfl
  rw [same] at ran
  unfold decodeRowsUnder
  generalize (do
      let accounts ← blockAccessListCodec.decodeFrom
      Decoder.expectDone
      return accounts : Action Decoder DecodeError (List AccountChanges)) = body at *
  cases narrow : body (Decoder.init encoded budget) with
  | ok accounts decoder =>
      rw [narrow] at ran
      obtain ⟨after, broad⟩ := ran
      rw [broad]
      exact ⟨after, rfl⟩
  | fail error decoder =>
      rw [narrow] at ran
      obtain ⟨after, same⟩ := ran
      refine ⟨after, same.imp_right fun broad => ?_⟩
      rw [broad]
      rfl
  | illegal =>
      rw [narrow] at ran
      rw [show body _ = .illegal from ran]
      exact rfl

theorem decodeUnder_limited (encoded : Slice) : LimitedUnder (decodeUnder encoded) :=
  (decodeRowsUnder_limited encoded).bind fun accounts =>
    (copyCodeBytesUnder_limited accounts).bind fun _ => .pure accounts

end Following

/-! ## The budget of the caller -/

theorem copyCodesUnder_run {changes : List CodeChange} {after : Budget}
    (ran : copyCodes changes budget = .ok after) :
    copyCodesUnder changes budget = .ok () after := by
  induction changes generalizing budget with
  | nil =>
      cases ran
      rfl
  | cons change changes ih =>
      obtain ⟨⟨⟩, ensured, ran⟩ := Checked.bind_eq_ok.mp ran
      obtain ⟨charged, committed, ran⟩ := Checked.bind_eq_ok.mp ran
      have room := Budget.ensureAllocation_eq_ok.mp ensured
      rw [Budget.commitAllocation_eq (by omega)] at committed
      cases committed
      simp only [copyCodesUnder, Action.bind_run, Action.read_run, id_eq, ensured,
        Budget.commitAllocation_eq (show budget.allocatedBytes + change.newCode.len ≤ usizeMax by
          omega), Action.liftM_ok, Action.liftM_some, Action.modify_run]
      exact ih ran

theorem copyCodeBytesUnder_run {after : Budget} (ran : copyCodeBytes accounts budget = .ok after) :
    copyCodeBytesUnder accounts budget = .ok () after := by
  induction accounts generalizing budget with
  | nil =>
      cases ran
      rfl
  | cons account accounts ih =>
      obtain ⟨middle, first, rest⟩ := Checked.bind_eq_ok.mp ran
      simp only [copyCodeBytesUnder, Action.bind_run, copyCodesUnder_run first]
      exact ih rest

/-- The decode over the budget of the caller is `decodeWithBudget`. -/
theorem decodeUnder_run {encoded : Slice} {after : Budget}
    (ran : decodeWithBudget encoded budget = .ok (accounts, after)) :
    decodeUnder encoded budget = .ok accounts after := by
  obtain ⟨⟨rows, middle⟩, rowsRan, ran⟩ := Checked.bind_eq_ok.mp ran
  obtain ⟨charged, copied, same⟩ := Checked.bind_eq_ok.mp ran
  cases same
  have rowsUnder : decodeRowsUnder encoded budget = .ok accounts middle := by
    unfold decodeRowsUnder
    unfold decodeAllocWithBudgetAs at rowsRan
    split at rowsRan
    · next value decoder ranRows =>
        cases rowsRan
        rw [ranRows]
    · cases rowsRan
    · cases rowsRan
  simp only [decodeUnder, Action.bind_run, rowsUnder, copyCodeBytesUnder_run copied,
    Action.pure_run]

/-! ## Valid lists are small -/

section Valid

variable {options : ValidationOptions} {transactionCount : BlockAccessIndex}

/-- Strictly ascending indices up to the last system index. -/
theorem ascending_length {indices : List BlockAccessIndex} {bound : Nat}
    (ascends : indices.Pairwise (· < ·)) (small : ∀ index ∈ indices, index.val ≤ bound) :
    indices.length ≤ bound + 1 := by
  have distinct : (indices.map Fin.val).Nodup := by
    rw [List.Nodup, List.pairwise_map]
    exact ascends.imp fun less => Nat.ne_of_lt less
  have inside : (indices.map Fin.val).toFinset ⊆ Finset.range (bound + 1) := by
    intro value member
    rw [List.mem_toFinset, List.mem_map] at member
    obtain ⟨index, listed, rfl⟩ := member
    exact Finset.mem_range.mpr (Nat.lt_succ_of_le (small index listed))
  have count := Finset.card_le_card inside
  rwa [List.toFinset_card_of_nodup distinct, List.length_map, Finset.card_range] at count

theorem validateRange_small {changeIndex : BlockAccessIndex}
    (passed : validateRange ⟨some transactionCount⟩ changeIndex = .ok ()) :
    changeIndex.val ≤ transactionCount.val + 1 := by
  simp only [validateRange, postExecutionSystemIndex] at passed
  split at passed
  · cases passed
  · next maxIndex exists_ =>
      split at exists_
      · cases exists_
        split at passed
        · cases passed
        · next notMore => exact Nat.le_of_not_lt notMore
      · cases exists_

/-- A valid list of changes has at most one row for each index of the block. -/
theorem validateIndexList_length {kind : IndexedListKind} {changes : List BlockAccessIndex}
    (passed : validateIndexList ⟨some transactionCount⟩ kind changes = .ok ()) :
    changes.length ≤ transactionCount.val + 2 := by
  apply ascending_length
  · refine @eachWithPrevious_ascends _ _ (· < ·) (fun _ _ _ => lt_trans) ?_ _ passed
    intro previous row next
    obtain ⟨_, _, ascends⟩ := Except.bind_eq_ok.mp next
    exact validateAfter_ascends ascends
  · refine eachWithPrevious_forall (fun previous row next => ?_) passed
    obtain ⟨_, range, _⟩ := Except.bind_eq_ok.mp next
    exact validateRange_small range

/-- Every list of changes of an account is short. -/
structure AccountChanges.Short (account : AccountChanges) (indices : Nat) : Prop where
  slots : ∀ slot ∈ account.storageChanges, slot.changes.length ≤ indices
  balances : account.balanceChanges.length ≤ indices
  nonces : account.nonceChanges.length ≤ indices
  codes : account.codeChanges.length ≤ indices

theorem validateAccount_short (passed : validateAccount ⟨some transactionCount⟩ account = .ok ()) :
    account.Short (transactionCount.val + 2) := by
  obtain ⟨_, slots, rest⟩ := Except.bind_eq_ok.mp passed
  obtain ⟨_, _, rest⟩ := Except.bind_eq_ok.mp rest
  obtain ⟨_, _, rest⟩ := Except.bind_eq_ok.mp rest
  obtain ⟨_, balances, rest⟩ := Except.bind_eq_ok.mp rest
  obtain ⟨_, nonces, codes⟩ := Except.bind_eq_ok.mp rest
  have balancesShort := validateIndexList_length balances
  have noncesShort := validateIndexList_length nonces
  have codesShort := validateIndexList_length codes
  rw [List.length_map] at balancesShort noncesShort codesShort
  refine ⟨?_, balancesShort, noncesShort, codesShort⟩
  refine eachWithPrevious_forall (fun previous slot next => ?_) slots
  obtain ⟨_, _, rest⟩ := Except.bind_eq_ok.mp next
  obtain ⟨_, _, indices⟩ := Except.bind_eq_ok.mp rest
  have short := validateIndexList_length indices
  rwa [List.length_map] at short

theorem validate_short (passed : validate accounts ⟨some transactionCount⟩ = .ok ()) :
    ∀ account ∈ accounts, account.Short (transactionCount.val + 2) := by
  refine eachWithPrevious_forall (fun previous account next => ?_) passed
  obtain ⟨_, _, accountPassed⟩ := Except.bind_eq_ok.mp next
  exact validateAccount_short accountPassed

end Valid

/-! ## What a decode charges -/

section Charges

/-- The access items of an account: itself and its storage keys. -/
def AccountChanges.accessItems (account : AccountChanges) : Nat :=
  1 + account.storageReads.length + account.storageChanges.length

theorem costs_items_scaled {α : Type} {codec : Codec α} {law : LawfulCodec codec} {each : Nat}
    {values : List α} (bounded : ∀ value ∈ values, (law.cost value).items ≤ each) :
    (costs law values).items ≤ each * values.length := by
  induction values with
  | nil => exact Nat.zero_le _
  | cons value values ih =>
      have first := bounded value List.mem_cons_self
      have rest := ih fun other listed => bounded other (List.mem_cons_of_mem _ listed)
      rw [costs_cons, Cost.add_items, List.length_cons, Nat.mul_succ]
      omega

theorem slotCost_items {slot : SlotChanges} (short : slot.changes.length ≤ indices) :
    (slotChangesLaw.cost slot).items ≤ 3 + 3 * indices := by
  have rows := @costs_items_scaled _ _ storageChangeLaw 3 slot.changes fun _ _ => Nat.le_refl 3
  have cost : (slotChangesLaw.cost slot).items =
      1 + (1 + ((1 + (0 + (costs storageChangeLaw slot.changes).items)) + 0)) := rfl
  rw [cost]
  omega

/-- The items of an account: a constant for each access item, and one for each of these and each
index. -/
theorem accountCost_items (short : account.Short indices) : (accountChangesLaw.cost account).items ≤
      11 * account.accessItems + 12 * (account.accessItems * indices) := by
  have slots := @costs_items_scaled _ _ slotChangesLaw (3 + 3 * indices) account.storageChanges
    fun slot listed => slotCost_items (short.slots slot listed)
  have reads := @costs_items_scaled _ _ uint256Law 1 account.storageReads fun _ _ => Nat.le_refl 1
  have balances := @costs_items_scaled _ _ balanceChangeLaw 3 account.balanceChanges
    fun _ _ => Nat.le_refl 3
  have nonces := @costs_items_scaled _ _ nonceChangeLaw 3 account.nonceChanges
    fun _ _ => Nat.le_refl 3
  have codes := @costs_items_scaled _ _ codeChangeLaw 3 account.codeChanges
    fun _ _ => Nat.le_refl 3
  have balancesShort := short.balances
  have noncesShort := short.nonces
  have codesShort := short.codes
  have cost : (accountChangesLaw.cost account).items =
      1 + (1 + ((1 + (0 + (costs slotChangesLaw account.storageChanges).items)) +
        ((1 + (0 + (costs uint256Law account.storageReads).items)) +
          ((1 + (0 + (costs balanceChangeLaw account.balanceChanges).items)) +
            ((1 + (0 + (costs nonceChangeLaw account.nonceChanges).items)) +
              ((1 + (0 + (costs codeChangeLaw account.codeChanges).items)) + 0)))))) := rfl
  have product : account.accessItems * indices = indices + account.storageReads.length * indices +
      account.storageChanges.length * indices := by
    rw [AccountChanges.accessItems, Nat.add_mul, Nat.add_mul, Nat.one_mul]
  have slotProduct : (3 + 3 * indices) * account.storageChanges.length =
      3 * account.storageChanges.length + 3 * (account.storageChanges.length * indices) := by ring
  rw [slotProduct] at slots
  rw [cost, product, AccountChanges.accessItems]
  generalize account.storageChanges.length * indices = indexedSlots at *
  generalize account.storageReads.length * indices = indexedReads at *
  omega

/-- The bytes of an account without its codes. -/
theorem accountCost_bytes_le (short : account.Short indices) :
    account.residentBytes ≤ 184 * account.accessItems + 136 * (account.accessItems * indices) +
      (account.codeChanges.map fun change => change.newCode.len).sum := by
  have slots : (account.storageChanges.map fun slot => slot.changes.length).sum ≤
      account.storageChanges.length * indices := by
    have bounded := short.slots
    generalize account.storageChanges = slots at *
    induction slots with
    | nil => exact Nat.zero_le _
    | cons slot slots ih =>
        have first := bounded slot List.mem_cons_self
        have rest := ih fun other listed => bounded other (List.mem_cons_of_mem _ listed)
        rw [List.map_cons, List.sum_cons, List.length_cons, Nat.succ_mul]
        omega
  have balancesShort := short.balances
  have noncesShort := short.nonces
  have codesShort := short.codes
  have product : account.accessItems * indices = indices + account.storageReads.length * indices +
      account.storageChanges.length * indices := by
    rw [AccountChanges.accessItems, Nat.add_mul, Nat.add_mul, Nat.one_mul]
  rw [residentBytes_eq, product, AccountChanges.accessItems]
  generalize account.storageChanges.length * indices = indexedSlots at *
  generalize account.storageReads.length * indices = indexedReads at *
  omega

/-- The access items of a list. -/
def accessItems (accounts : List AccountChanges) : Nat :=
  (accounts.map AccountChanges.accessItems).sum

theorem listCost_items (short : ∀ account ∈ accounts, account.Short indices) :
    (blockAccessListLaw.cost accounts).items ≤
      1 + (11 * accessItems accounts + 12 * (accessItems accounts * indices)) := by
  have rows : (costs accountChangesLaw accounts).items ≤
      11 * accessItems accounts + 12 * (accessItems accounts * indices) := by
    rw [accessItems]
    induction accounts with
    | nil => exact Nat.zero_le _
    | cons account accounts ih =>
        have first := accountCost_items (short account List.mem_cons_self)
        have rest := ih fun other listed => short other (List.mem_cons_of_mem _ listed)
        rw [costs_cons, Cost.add_items, List.map_cons, List.sum_cons, Nat.add_mul]
        omega
  have cost : (blockAccessListLaw.cost accounts).items =
      1 + (0 + (costs accountChangesLaw accounts).items) := rfl
  rw [cost]
  omega

theorem residentBytes_le (short : ∀ account ∈ accounts, account.Short indices) :
    residentBytes accounts ≤ 184 * accessItems accounts + 136 * (accessItems accounts * indices) +
      codeBytes accounts := by
  rw [residentBytes, accessItems, codeBytes]
  induction accounts with
  | nil => exact Nat.zero_le _
  | cons account accounts ih =>
      have first := accountCost_bytes_le (short account List.mem_cons_self)
      have rest := ih fun other listed => short other (List.mem_cons_of_mem _ listed)
      simp only [List.map_cons, List.sum_cons, Nat.add_mul]
      omega

end Charges

/-! ## The counts -/

section Counting

variable {counts after : Counts}

theorem foldl_updateMaxIndex_accounts (indices : List BlockAccessIndex) (counts : Counts) :
    (indices.foldl updateMaxIndex counts).accounts = counts.accounts := by
  obtain ⟨index, same⟩ := foldl_updateMaxIndex indices counts
  rw [same]

theorem countSlots_accounts {slots : List SlotChanges}
    (ran : slots.foldlM countSlot counts = some after) : after.accounts = counts.accounts := by
  induction slots generalizing counts with
  | nil =>
      cases ran
      rfl
  | cons slot slots ih =>
      rw [List.foldlM_cons] at ran
      obtain ⟨next, step, rest⟩ := Option.bind_eq_some_iff.mp ran
      obtain ⟨changes, _, result⟩ := Option.bind_eq_some_iff.mp step
      cases result
      rw [ih rest, foldl_updateMaxIndex_accounts]

theorem countCodes_accounts {changes : List CodeChange}
    (ran : changes.foldlM countCode counts = some after) : after.accounts = counts.accounts := by
  induction changes generalizing counts with
  | nil =>
      cases ran
      rfl
  | cons change changes ih =>
      rw [List.foldlM_cons] at ran
      obtain ⟨next, step, rest⟩ := Option.bind_eq_some_iff.mp ran
      obtain ⟨bytes, _, result⟩ := Option.bind_eq_some_iff.mp step
      cases result
      rw [ih rest]
      exact foldl_updateMaxIndex_accounts [change.blockAccessIndex] _

theorem countAccount_accounts (ran : countAccount counts account = some after) :
    after.accounts = counts.accounts := by
  unfold countAccount at ran
  obtain ⟨reads, _, ran⟩ := Option.bind_eq_some_iff.mp ran
  obtain ⟨writes, _, ran⟩ := Option.bind_eq_some_iff.mp ran
  obtain ⟨afterSlots, slotsRan, ran⟩ := Option.bind_eq_some_iff.mp ran
  obtain ⟨balances, _, ran⟩ := Option.bind_eq_some_iff.mp ran
  obtain ⟨nonces, _, ran⟩ := Option.bind_eq_some_iff.mp ran
  obtain ⟨codes, _, codesRan⟩ := Option.bind_eq_some_iff.mp ran
  have slotsSame := countSlots_accounts slotsRan
  have codesSame := countCodes_accounts codesRan
  rw [codesSame, foldl_updateMaxIndex_accounts, foldl_updateMaxIndex_accounts]
  exact slotsSame

theorem countAccounts_items (ran : accounts.foldlM countAccount counts = some after) :
    after.accounts = counts.accounts ∧
      after.storageReadKeys + after.storageWriteKeys + accounts.length =
        counts.storageReadKeys + counts.storageWriteKeys + accessItems accounts := by
  induction accounts generalizing counts with
  | nil =>
      cases ran
      exact ⟨rfl, rfl⟩
  | cons account accounts ih =>
      rw [List.foldlM_cons] at ran
      obtain ⟨next, step, rest⟩ := Option.bind_eq_some_iff.mp ran
      have keys := countAccount_keys step
      simp only [Counts.keys, Prod.mk.injEq] at keys
      obtain ⟨same, items⟩ := ih rest
      rw [accessItems] at items ⊢
      rw [List.length_cons, List.map_cons, List.sum_cons, AccountChanges.accessItems]
      exact ⟨same.trans (countAccount_accounts step), by omega⟩

/-- The counts that the gas limit is checked against. -/
theorem validateCounts_items (counted : count accounts = some counts)
    (passed : validateCounts counts gasLimit = .ok ()) (limited : gasLimit.val ≠ 0) :
    accessItems accounts ≤ gasLimit.val / itemCost := by
  obtain ⟨same, items⟩ := countAccounts_items counted
  rw [validateCounts, if_pos limited] at passed
  obtain ⟨found, blockItems, passed⟩ := Checked.bind_eq_ok.mp passed
  split at passed
  · cases passed
  · next small =>
      have total : found = counts.accounts + counts.storageReadKeys + counts.storageWriteKeys := by
        cases added : counts.blockAccessItems with
        | none =>
            rw [added] at blockItems
            cases blockItems
        | some value =>
            rw [added] at blockItems
            cases blockItems
            obtain ⟨partial_, first, second⟩ := Option.bind_eq_some_iff.mp added
            have firstEq := addUsize_eq_some first
            have secondEq := addUsize_eq_some second
            rw [secondEq, firstEq]
      simp only [Nat.zero_add] at items same
      omega

end Counting

/-! ## The limits cover a valid list -/

theorem blockDecodeLimits_depth (encodedLen : Nat) (transactionCount : BlockAccessIndex)
    (gasLimit : U64) : (blockDecodeLimits encodedLen transactionCount gasLimit).maxDepth = 6 := by
  unfold blockDecodeLimits
  dsimp only
  split
  · rfl
  · rfl

theorem blockDecodeLimits_covers {encodedLen items bytes : Nat}
    {transactionCount : BlockAccessIndex} {access : Nat} (lengthFits : encodedLen ≤ usizeMax)
    (visits : items ≤ encodedLen) (slim : bytes ≤ 105 * encodedLen) (bytesFit : bytes ≤ usizeMax)
    (accessFits : gasLimit.val ≠ 0 → access ≤ gasLimit.val / itemCost)
    (itemsBound : items ≤ 1 + (11 * access + 12 * (access * (transactionCount.val + 2))))
    (bytesBound : bytes ≤ 184 * access + 136 * (access * (transactionCount.val + 2)) + encodedLen) :
    items ≤ (blockDecodeLimits encodedLen transactionCount gasLimit).maxItems ∧
      bytes ≤ (blockDecodeLimits encodedLen transactionCount gasLimit).maxAllocatedBytes := by
  have aggregate : maxAggregateValueSize + 1 = 105 := rfl
  unfold blockDecodeLimits
  by_cases unlimited : gasLimit.val = 0
  · rw [if_pos unlimited]
    simp only [inputDecodeLimits, saturatingMul, aggregate]
    omega
  · rw [if_neg unlimited]
    have inside := accessFits unlimited
    have gasFits : gasLimit.val < 18446744073709551616 := gasLimit.isLt
    have indexFits : transactionCount.val < 4294967296 := transactionCount.isLt
    have accessCast : min (gasLimit.val / itemCost) usizeMax = gasLimit.val / itemCost := by
      refine min_eq_left ?_
      rw [usizeMax_eq]
      exact (Nat.div_le_self _ _).trans (Nat.le_of_lt_succ gasFits)
    have indexCast : saturatingAdd transactionCount.val 2 = transactionCount.val + 2 := by
      refine min_eq_left ?_
      rw [usizeMax_eq]
      omega
    clear gasFits indexFits
    have product : access * (transactionCount.val + 2) ≤
        gasLimit.val / itemCost * (transactionCount.val + 2) := Nat.mul_le_mul_right _ inside
    have perAccess : accountChangesCodec.sizeOf + slotChangesCodec.sizeOf +
        (Codec.uint 256).sizeOf = 184 := rfl
    have perIndex : storageChangeCodec.sizeOf + balanceChangeCodec.sizeOf +
        nonceChangeCodec.sizeOf + codeChangeCodec.sizeOf = 136 := rfl
    simp only [inputDecodeLimits, aggregate, accessCast, indexCast, perAccess, perIndex]
    generalize gasLimit.val / itemCost = allowed at *
    simp only [saturatingAdd, saturatingMul]
    generalize allowed * (transactionCount.val + 2) = indexed at *
    generalize access * (transactionCount.val + 2) = entries at *
    omega

/-- The unlimited budget is wider than the budget of a block. -/
theorem unlimited_covers (encodedLen : Nat) (transactionCount : BlockAccessIndex) (gasLimit : U64)
    (lengthFits : encodedLen ≤ usizeMax) :
    Limits.unlimited.Covers (blockDecodeLimits encodedLen transactionCount gasLimit) := by
  have depth := blockDecodeLimits_depth encodedLen transactionCount gasLimit
  refine ⟨?_, ?_, ?_⟩
  · rw [depth]
    decide
  all_goals
    unfold blockDecodeLimits
    dsimp only
    split
    all_goals simp only [inputDecodeLimits, saturatingMul, Limits.unlimited]; omega

/-- A valid list decodes under the limits of its block. -/
theorem decodeUnder_valid {list : BlockAccessList} {encoded : Slice}
    {transactionCount : BlockAccessIndex} {counts : Counts}
    (passed : validate list.accounts ⟨some transactionCount⟩ = .ok ())
    (counted : count list.accounts = some counts)
    (countsPassed : validateCounts counts gasLimit = .ok ())
    (ran : encodeAlloc list.accounts = .ok encoded) : ∃ after, decodeUnder encoded
      (Budget.init (blockDecodeLimits encoded.len transactionCount gasLimit)) =
        .ok list.accounts after := by
  have content := (encodeAlloc_eq_ok list).mp ran
  have resident := list.resident
  have cost := residentBytes_cost list.accounts
  have slim := blockAccessListLaw_slim list.accounts
  have visits := blockAccessListLaw.visits_le list.accounts
  have codes := codeBytes_le list.accounts
  have short := validate_short passed
  have encodedFits := encoded.len_le
  rw [← content] at visits codes
  rw [maxAggregateValueSize_eq] at slim
  have length : encoded.bytes.length = encoded.len := rfl
  have depth := blockDecodeLimits_depth encoded.len transactionCount gasLimit
  obtain ⟨itemsCovered, bytesCovered⟩ := blockDecodeLimits_covers encodedFits
    (show (blockAccessListLaw.cost list.accounts).items ≤ encoded.len from visits)
    (show residentBytes list.accounts ≤ 105 * encoded.len by omega) resident
    (validateCounts_items counted countsPassed) (listCost_items short)
    ((residentBytes_le short).trans (Nat.add_le_add_left codes _))
  generalize blockDecodeLimits encoded.len transactionCount gasLimit = limits at *
  have affords : (Budget.init limits).Affords 0 (blockAccessListLaw.cost list.accounts)
      blockAccessListLaw.levels := by
    refine ⟨?_, ?_, .inr ?_⟩
    · simp only [Budget.init]
      omega
    · simp only [Budget.init]
      omega
    · simp only [Budget.init, depth]
      decide
  have run := decodeAllocWithBudgetAs_run blockAccessListLaw content affords
  have copied := copyCodeBytes_run list.accounts
    ((Budget.init limits).charge (blockAccessListLaw.cost list.accounts)) (by
      simp only [Budget.charge, Budget.init]
      omega)
  have whole : ∃ after, decodeWithBudget encoded (Budget.init limits) =
      .ok (list.accounts, after) := by
    rw [decodeWithBudget, run, Checked.ok_bind]
    simp only [copied, Checked.ok_bind, Checked.pure_eq]
    exact ⟨_, rfl⟩
  obtain ⟨after, decoded⟩ := whole
  exact ⟨after, decodeUnder_run decoded⟩

/-! ## The limits of a block are exact -/

/-- What a decode under `limits` may do: `unlimited` is the decode without limits. -/
def AgreesUnder (limits : Limits) (limited unlimited :
    Outcome Budget DecodeError (List AccountChanges)) :
    Prop :=
  match limited with
  | .ok accounts after =>
      (after.visitedItems ≤ limits.maxItems ∧ after.allocatedBytes ≤ limits.maxAllocatedBytes) ∧
        ∃ spent, unlimited = .ok accounts spent
  | .fail error after =>
      (after.visitedItems ≤ limits.maxItems ∧ after.allocatedBytes ≤ limits.maxAllocatedBytes) ∧
        (error.isLimit = true ∨ ∃ spent, unlimited = .fail error spent)
  | .illegal => unlimited = .illegal

theorem decodeUnder_agrees (encoded : Slice) (transactionCount : BlockAccessIndex) (gasLimit : U64) :
    AgreesUnder (blockDecodeLimits encoded.len transactionCount gasLimit)
      (decodeUnder encoded (Budget.init (blockDecodeLimits encoded.len transactionCount gasLimit)))
      (decodeUnder encoded (Budget.init Limits.unlimited)) := by
  have covers := unlimited_covers encoded.len transactionCount gasLimit encoded.len_le
  generalize blockDecodeLimits encoded.len transactionCount gasLimit = limits at *
  have follows := decodeUnder_limited encoded limits Limits.unlimited (Budget.init limits) covers
    ⟨rfl, Nat.zero_le _, Nat.zero_le _⟩
  have same : (Budget.init limits).under Limits.unlimited = Budget.init Limits.unlimited := rfl
  rw [same] at follows
  cases ran : decodeUnder encoded (Budget.init limits) with
  | ok accounts after =>
      rw [ran] at follows
      obtain ⟨within, broad⟩ := follows
      exact ⟨⟨within.items, within.bytes⟩, _, broad⟩
  | fail error after =>
      rw [ran] at follows
      obtain ⟨within, broad⟩ := follows
      exact ⟨⟨within.items, within.bytes⟩, broad.imp_right fun run => ⟨_, run⟩⟩
  | illegal =>
      rw [ran] at follows
      exact follows

/-- The limits of a block reject no valid list, and change nothing else than where a decode
stops. -/
theorem blockDecodeLimits_exact :
    (∀ (list : BlockAccessList) (encoded : Slice) (transactionCount : BlockAccessIndex)
      (gasLimit : U64) (counts : Counts),
      validate list.accounts ⟨some transactionCount⟩ = .ok () → count list.accounts = some counts →
      validateCounts counts gasLimit = .ok () → encodeAlloc list.accounts = .ok encoded →
        (∃ after, decodeUnder encoded
          (Budget.init (blockDecodeLimits encoded.len transactionCount gasLimit)) =
            .ok list.accounts after) ∧
        (∃ after, decodeUnder encoded (Budget.init Limits.unlimited) = .ok list.accounts after)) ∧
    (∀ (encoded : Slice) (transactionCount : BlockAccessIndex) (gasLimit : U64),
      AgreesUnder (blockDecodeLimits encoded.len transactionCount gasLimit)
        (decodeUnder encoded
          (Budget.init (blockDecodeLimits encoded.len transactionCount gasLimit)))
        (decodeUnder encoded (Budget.init Limits.unlimited))) := by
  refine ⟨?_, decodeUnder_agrees⟩
  intro list encoded transactionCount gasLimit counts passed counted countsPassed ran
  obtain ⟨after, limitedRun⟩ := decodeUnder_valid passed counted countsPassed ran
  have agrees := decodeUnder_agrees encoded transactionCount gasLimit
  rw [limitedRun] at agrees
  exact ⟨⟨after, limitedRun⟩, agrees.2⟩

def sampleEncoded : Slice := ⟨blockAccessListLaw.encode sampleClaim, by decide +kernel⟩

theorem blockDecodeLimits_exact_sample :
    ∃ after, decodeUnder sampleEncoded
      (Budget.init (blockDecodeLimits sampleEncoded.len 1 6000)) = .ok sampleClaim after :=
  (blockDecodeLimits_exact.1 ⟨sampleClaim, by decide +kernel⟩ sampleEncoded 1 6000 _
    (by decide +kernel) rfl (by decide +kernel) ((encodeAlloc_eq_ok _).mpr rfl)).1

end EvmZig.Bal
