import EvmZig.Bal.Model
import EvmZig.AddressWord

/-!
# Validation of an access list (`eth/bal/model.zig`)

Every list of a valid access list is strictly ascending in its key, and no
slot of an account is both changed and read.
-/

set_option autoImplicit false

namespace EvmZig.Bal

open Zig

structure ValidationOptions where
  transactionCount : Option BlockAccessIndex := none
  deriving DecidableEq, Repr

inductive ValidationError
  | accountsOutOfOrder
  | duplicateAccount
  | storageChangesOutOfOrder
  | duplicateStorageChangeSlot
  | emptySlotChanges
  | storageChangeIndicesOutOfOrder
  | duplicateStorageChangeIndex
  | storageReadsOutOfOrder
  | duplicateStorageRead
  | storageReadAlsoWritten
  | balanceChangeIndicesOutOfOrder
  | duplicateBalanceChangeIndex
  | nonceChangeIndicesOutOfOrder
  | duplicateNonceChangeIndex
  | codeChangeIndicesOutOfOrder
  | duplicateCodeChangeIndex
  | blockAccessIndexOutOfRange
  deriving DecidableEq, Repr

inductive IndexedListKind
  | storage
  | balance
  | nonce
  | code
  deriving DecidableEq, Repr

/-- `postExecutionSystemIndex`; `none` is its overflow error. -/
def postExecutionSystemIndex (transactionCount : BlockAccessIndex) : Option BlockAccessIndex :=
  if fits : transactionCount.val + 1 < 2 ^ 32 then some ⟨transactionCount.val + 1, fits⟩ else none

/-- The loops over the rows of a list that look back at the row before. -/
def eachWithPrevious {α : Type} (check : Option α → α → Except ValidationError Unit) :
    Option α → List α → Except ValidationError Unit
  | _, [] => .ok ()
  | previous, row :: rows => do
      check previous row
      eachWithPrevious check (some row) rows

def rejectIf (condition : Prop) [Decidable condition] (error : ValidationError) :
    Except ValidationError Unit :=
  if condition then .error error else .ok ()

/-- A key against the one before it. -/
def validateAfter {bound : Nat} (duplicate outOfOrder : ValidationError)
    (previous : Option (Fin bound)) (key : Fin bound) : Except ValidationError Unit :=
  match previous with
  | none => .ok ()
  | some previous =>
      if previous = key then .error duplicate
      else if previous > key then .error outOfOrder
      else .ok ()

def IndexedListKind.duplicate : IndexedListKind → ValidationError
  | .storage => .duplicateStorageChangeIndex
  | .balance => .duplicateBalanceChangeIndex
  | .nonce => .duplicateNonceChangeIndex
  | .code => .duplicateCodeChangeIndex

def IndexedListKind.outOfOrder : IndexedListKind → ValidationError
  | .storage => .storageChangeIndicesOutOfOrder
  | .balance => .balanceChangeIndicesOutOfOrder
  | .nonce => .nonceChangeIndicesOutOfOrder
  | .code => .codeChangeIndicesOutOfOrder

def validateRange (options : ValidationOptions) (changeIndex : BlockAccessIndex) :
    Except ValidationError Unit :=
  match options.transactionCount with
  | none => .ok ()
  | some transactionCount =>
      match postExecutionSystemIndex transactionCount with
      | none => .error .blockAccessIndexOutOfRange
      | some maxIndex =>
          if changeIndex > maxIndex then .error .blockAccessIndexOutOfRange else .ok ()

def validateIndexList (options : ValidationOptions) (kind : IndexedListKind)
    (changes : List BlockAccessIndex) : Except ValidationError Unit :=
  eachWithPrevious (fun previous changeIndex => do
    validateRange options changeIndex
    validateAfter kind.duplicate kind.outOfOrder previous changeIndex) none changes

def validateNoStorageReadWriteOverlap :
    List SlotChanges → List U256 → Except ValidationError Unit
  | change :: changes, read :: reads =>
      if change.slot = read then .error .storageReadAlsoWritten
      else if change.slot < read then validateNoStorageReadWriteOverlap changes (read :: reads)
      else validateNoStorageReadWriteOverlap (change :: changes) reads
  | _, _ => .ok ()
  termination_by changes reads => changes.length + reads.length

def validateSlot (options : ValidationOptions) (previous : Option SlotChanges)
    (slot : SlotChanges) : Except ValidationError Unit := do
  rejectIf (slot.changes.length = 0) .emptySlotChanges
  validateAfter .duplicateStorageChangeSlot .storageChangesOutOfOrder
    (previous.map SlotChanges.slot) slot.slot
  validateIndexList options .storage (slot.changes.map StorageChange.blockAccessIndex)

def validateRead (previous : Option U256) (slot : U256) : Except ValidationError Unit :=
  validateAfter .duplicateStorageRead .storageReadsOutOfOrder previous slot

def validateAccount (options : ValidationOptions) (account : AccountChanges) :
    Except ValidationError Unit := do
  eachWithPrevious (validateSlot options) none account.storageChanges
  eachWithPrevious validateRead none account.storageReads
  validateNoStorageReadWriteOverlap account.storageChanges account.storageReads
  validateIndexList options .balance (account.balanceChanges.map BalanceChange.blockAccessIndex)
  validateIndexList options .nonce (account.nonceChanges.map NonceChange.blockAccessIndex)
  validateIndexList options .code (account.codeChanges.map CodeChange.blockAccessIndex)

def validateAddress (previous : Option Address) (address : Address) :
    Except ValidationError Unit :=
  match previous with
  | none => .ok ()
  | some previous =>
      match previous.order address with
      | .lt => .ok ()
      | .eq => .error .duplicateAccount
      | .gt => .error .accountsOutOfOrder

def validateNext (options : ValidationOptions) (previous : Option AccountChanges)
    (account : AccountChanges) : Except ValidationError Unit := do
  validateAddress (previous.map AccountChanges.address) account.address
  validateAccount options account

def validate (blockAccessList : List AccountChanges) (options : ValidationOptions) :
    Except ValidationError Unit :=
  eachWithPrevious (validateNext options) none blockAccessList

/-! ## What an accepted list looks like -/

variable {options : ValidationOptions}

theorem Except.bind_eq_ok {ε α β : Type} {first : Except ε α} {next : α → Except ε β} {result : β} :
    (first >>= next) = .ok result ↔ ∃ value, first = .ok value ∧ next value = .ok result := by
  cases first <;> simp [bind, Except.bind]

theorem eachWithPrevious_forall {α : Type}
    {check : Option α → α → Except ValidationError Unit} {accepted : α → Prop}
    (checks : ∀ previous row, check previous row = .ok () → accepted row)
    {previous : Option α} {rows : List α} (passed : eachWithPrevious check previous rows = .ok ()) :
    ∀ row ∈ rows, accepted row := by
  induction rows generalizing previous with
  | nil => simp
  | cons row rows ih =>
      obtain ⟨_, here, rest⟩ := Except.bind_eq_ok.mp passed
      intro other member
      rcases List.mem_cons.mp member with rfl | later
      · exact checks previous other here
      · exact ih rest other later

theorem eachWithPrevious_ascends {α : Type}
    {check : Option α → α → Except ValidationError Unit} {before : α → α → Prop}
    (trans : ∀ first second third, before first second → before second third → before first third)
    (checks : ∀ previous row, check (some previous) row = .ok () → before previous row)
    {rows : List α} (passed : eachWithPrevious check none rows = .ok ()) :
    rows.Pairwise before := by
  have transitive : Trans before before before := ⟨fun first second => trans _ _ _ first second⟩
  cases rows with
  | nil => exact List.Pairwise.nil
  | cons first rows =>
      obtain ⟨_, -, rest⟩ := Except.bind_eq_ok.mp passed
      rw [← List.isChain_iff_pairwise]
      clear passed
      induction rows generalizing first with
      | nil => exact List.isChain_singleton first
      | cons row rows ih =>
          obtain ⟨_, here, rest⟩ := Except.bind_eq_ok.mp rest
          exact List.IsChain.cons_cons (checks first row here) (ih row rest)

theorem validateNoStorageReadWriteOverlap_disjoint {changes : List SlotChanges} {reads : List U256}
    (slots : changes.Pairwise fun left right => left.slot < right.slot)
    (ascending : reads.Pairwise (· < ·))
    (passed : validateNoStorageReadWriteOverlap changes reads = .ok ()) :
    ∀ change ∈ changes, change.slot ∉ reads := by
  fun_induction validateNoStorageReadWriteOverlap changes reads with
  | case1 => cases passed
  | case2 change changes read reads differs less ih =>
      intro other member
      rcases List.mem_cons.mp member with rfl | later
      · intro readHere
        rcases List.mem_cons.mp readHere with same | rest
        · exact differs same
        · exact lt_asymm less (List.rel_of_pairwise_cons ascending rest)
      · exact ih slots.of_cons ascending passed other later
  | case3 change changes read reads differs more ih =>
      intro other member readHere
      rcases List.mem_cons.mp readHere with same | rest
      · rcases List.mem_cons.mp member with rfl | later
        · exact differs same
        · have less := List.rel_of_pairwise_cons slots later
          rw [same] at less
          exact more less
      · exact ih slots ascending.of_cons passed other member rest
  | case4 changes reads empty =>
      intro change member readHere
      cases changes with
      | nil => cases member
      | cons first changes =>
          cases reads with
          | nil => cases readHere
          | cons read reads => exact empty first changes read reads rfl rfl

/-- The storage keys of an account as the plan relies on them. -/
structure AccountChanges.Ordered (account : AccountChanges) : Prop where
  slots : account.storageChanges.Pairwise fun left right => left.slot < right.slot
  reads : account.storageReads.Pairwise (· < ·)
  apart : ∀ change ∈ account.storageChanges, change.slot ∉ account.storageReads

theorem validateAfter_ascends {bound : Nat} {duplicate outOfOrder : ValidationError}
    {previous key : Fin bound}
    (passed : validateAfter duplicate outOfOrder (some previous) key = .ok ()) :
    previous < key := by
  simp only [validateAfter] at passed
  split at passed
  · cases passed
  · next differs =>
      split at passed
      · cases passed
      · next notMore => exact lt_of_le_of_ne (not_lt.mp notMore) differs

theorem validateSlot_ascends (previous slot : SlotChanges)
    (passed : validateSlot options (some previous) slot = .ok ()) : previous.slot < slot.slot := by
  obtain ⟨_, _, rest⟩ := Except.bind_eq_ok.mp passed
  obtain ⟨_, order, _⟩ := Except.bind_eq_ok.mp rest
  exact validateAfter_ascends order

theorem validateAccount_ordered {account : AccountChanges}
    (passed : validateAccount options account = .ok ()) : account.Ordered := by
  obtain ⟨_, slotsPassed, rest⟩ := Except.bind_eq_ok.mp passed
  obtain ⟨_, readsPassed, rest⟩ := Except.bind_eq_ok.mp rest
  obtain ⟨_, apart, _⟩ := Except.bind_eq_ok.mp rest
  have slots : account.storageChanges.Pairwise fun left right => left.slot < right.slot := by
    apply eachWithPrevious_ascends _ validateSlot_ascends slotsPassed
    intro _ _ _
    exact lt_trans
  have reads : account.storageReads.Pairwise (· < ·) := by
    apply eachWithPrevious_ascends _ (fun _ _ => validateAfter_ascends) readsPassed
    intro _ _ _
    exact lt_trans
  exact ⟨slots, reads, validateNoStorageReadWriteOverlap_disjoint slots reads apart⟩

theorem validateNext_ascends (previous account : AccountChanges)
    (passed : validateNext options (some previous) account = .ok ()) :
    (AddressWord.fromAddress previous.address).value <
      (AddressWord.fromAddress account.address).value := by
  obtain ⟨_, order, _⟩ := Except.bind_eq_ok.mp passed
  simp only [validateAddress, Option.map_some, Address.order_eq_compare] at order
  split at order
  · next less => exact compare_lt_iff_lt.mp less
  · cases order
  · cases order

theorem validate_ascends {blockAccessList : List AccountChanges}
    (passed : validate blockAccessList options = .ok ()) :
    blockAccessList.Pairwise fun left right =>
      (AddressWord.fromAddress left.address).value <
        (AddressWord.fromAddress right.address).value := by
  apply eachWithPrevious_ascends _ validateNext_ascends passed
  intro _ _ _
  exact lt_trans

theorem validate_ordered {blockAccessList : List AccountChanges}
    (passed : validate blockAccessList options = .ok ()) :
    ∀ account ∈ blockAccessList, account.Ordered := by
  refine eachWithPrevious_forall (fun previous account next => ?_) passed
  obtain ⟨_, -, accountPassed⟩ := Except.bind_eq_ok.mp next
  exact validateAccount_ordered accountPassed

/-! ## What passes validation -/

theorem eachWithPrevious_after {α : Type} {check : Option α → α → Except ValidationError Unit}
    {before : α → α → Prop} {rows : List α}
    (checks : ∀ row ∈ rows, ∀ previous, (∀ earlier ∈ previous, before earlier row) →
      check previous row = .ok ())
    (ascends : rows.Pairwise before) {previous : Option α}
    (after : ∀ earlier ∈ previous, ∀ row ∈ rows, before earlier row) :
    eachWithPrevious check previous rows = .ok () := by
  induction rows generalizing previous with
  | nil => rfl
  | cons row rows ih =>
      rw [eachWithPrevious, checks row List.mem_cons_self previous fun earlier known =>
        after earlier known row List.mem_cons_self]
      refine ih (fun other member => checks other (List.mem_cons_of_mem _ member)) ascends.of_cons ?_
      intro earlier known other member
      cases known
      exact List.rel_of_pairwise_cons ascends member

theorem eachWithPrevious_ok {α : Type} {check : Option α → α → Except ValidationError Unit}
    {before : α → α → Prop} {rows : List α}
    (checks : ∀ row ∈ rows, ∀ previous, (∀ earlier ∈ previous, before earlier row) →
      check previous row = .ok ())
    (ascends : rows.Pairwise before) : eachWithPrevious check none rows = .ok () := by
  apply eachWithPrevious_after checks ascends
  intro earlier known
  cases known

theorem validateAfter_ok {bound : Nat} {duplicate outOfOrder : ValidationError}
    {previous : Option (Fin bound)} {key : Fin bound} (after : ∀ earlier ∈ previous, earlier < key) :
    validateAfter duplicate outOfOrder previous key = .ok () := by
  cases previous with
  | none => rfl
  | some earlier =>
      have less := after earlier rfl
      rw [validateAfter, if_neg less.ne, if_neg (not_lt.mpr less.le)]

theorem validateIndexList_ok {kind : IndexedListKind} {changes : List BlockAccessIndex}
    (range : ∀ index ∈ changes, validateRange options index = .ok ())
    (ascends : changes.Pairwise (· < ·)) : validateIndexList options kind changes = .ok () := by
  have checks : ∀ index ∈ changes, ∀ previous : Option BlockAccessIndex,
      (∀ earlier ∈ previous, earlier < index) →
      (do validateRange options index; validateAfter kind.duplicate kind.outOfOrder previous index)
      = .ok () := by
    intro index member previous after
    rw [range index member]
    exact validateAfter_ok after
  exact eachWithPrevious_ok checks ascends

theorem validateNoStorageReadWriteOverlap_ok {changes : List SlotChanges} {reads : List U256}
    (apart : ∀ change ∈ changes, change.slot ∉ reads) :
    validateNoStorageReadWriteOverlap changes reads = .ok () := by
  fun_induction validateNoStorageReadWriteOverlap changes reads with
  | case1 change changes reads =>
      exact absurd List.mem_cons_self (apart change List.mem_cons_self)
  | case2 change changes read reads differs less ih =>
      exact ih fun other member => apart other (List.mem_cons_of_mem _ member)
  | case3 change changes read reads differs more ih =>
      exact ih fun other member => apart other member ∘ List.mem_cons_of_mem _
  | case4 => rfl

/-- Every list of the account ascends, and no slot is both changed and read. -/
structure AccountChanges.Canonical (account : AccountChanges) : Prop extends account.Ordered where
  changed : ∀ row ∈ account.storageChanges, row.changes ≠ [] ∧
    row.changes.Pairwise fun left right => left.blockAccessIndex < right.blockAccessIndex
  balances : account.balanceChanges.Pairwise fun left right =>
    left.blockAccessIndex < right.blockAccessIndex
  nonces : account.nonceChanges.Pairwise fun left right => left.blockAccessIndex < right.blockAccessIndex
  codes : account.codeChanges.Pairwise fun left right => left.blockAccessIndex < right.blockAccessIndex

/-- The indices that the account lists. -/
def AccountChanges.indices (account : AccountChanges) : List BlockAccessIndex :=
  (account.storageChanges.flatMap fun row => row.changes.map StorageChange.blockAccessIndex) ++
    (account.balanceChanges.map BalanceChange.blockAccessIndex ++
      (account.nonceChanges.map NonceChange.blockAccessIndex ++
        account.codeChanges.map CodeChange.blockAccessIndex))

theorem validateSlot_ok {previous : Option SlotChanges} {row : SlotChanges}
    (nonempty : row.changes ≠ []) (after : ∀ earlier ∈ previous, earlier.slot < row.slot)
    (range : ∀ change ∈ row.changes, validateRange options change.blockAccessIndex = .ok ())
    (ascends : row.changes.Pairwise fun left right => left.blockAccessIndex < right.blockAccessIndex) :
    validateSlot options previous row = .ok () := by
  have slots : ∀ earlier ∈ previous.map SlotChanges.slot, earlier < row.slot := by
    intro earlier known
    obtain ⟨above, here, rfl⟩ := Option.map_eq_some_iff.mp known
    exact after above here
  rw [validateSlot, rejectIf, if_neg (nonempty ∘ List.length_eq_zero_iff.mp), validateAfter_ok slots]
  apply validateIndexList_ok
  · intro index member
    obtain ⟨change, here, rfl⟩ := List.mem_map.mp member
    exact range change here
  · exact List.pairwise_map.mpr ascends

theorem validateAccount_ok {account : AccountChanges} (canonical : account.Canonical)
    (range : ∀ index ∈ account.indices, validateRange options index = .ok ()) :
    validateAccount options account = .ok () := by
  have slots : eachWithPrevious (validateSlot options) none account.storageChanges = .ok () := by
    refine eachWithPrevious_ok (fun row member previous after => ?_) canonical.slots
    obtain ⟨nonempty, ascends⟩ := canonical.changed row member
    refine validateSlot_ok nonempty after (fun change here => range _ ?_) ascends
    exact List.mem_append_left _ (List.mem_flatMap.mpr ⟨row, member, List.mem_map_of_mem here⟩)
  have reads : eachWithPrevious validateRead none account.storageReads = .ok () :=
    eachWithPrevious_ok (fun _ _ _ => validateAfter_ok) canonical.reads
  have balances : validateIndexList options .balance
      (account.balanceChanges.map BalanceChange.blockAccessIndex) = .ok () := by
    refine validateIndexList_ok (fun index member => range index ?_)
      (List.pairwise_map.mpr canonical.balances)
    exact List.mem_append_right _ (List.mem_append_left _ member)
  have nonces : validateIndexList options .nonce
      (account.nonceChanges.map NonceChange.blockAccessIndex) = .ok () := by
    refine validateIndexList_ok (fun index member => range index ?_)
      (List.pairwise_map.mpr canonical.nonces)
    exact List.mem_append_right _ (List.mem_append_right _ (List.mem_append_left _ member))
  have codes : validateIndexList options .code
      (account.codeChanges.map CodeChange.blockAccessIndex) = .ok () := by
    refine validateIndexList_ok (fun index member => range index ?_)
      (List.pairwise_map.mpr canonical.codes)
    exact List.mem_append_right _ (List.mem_append_right _ (List.mem_append_right _ member))
  rw [validateAccount, slots, reads, validateNoStorageReadWriteOverlap_ok canonical.apart, balances,
    nonces, codes]
  rfl

theorem validateAddress_ok {previous : Option Address} {address : Address}
    (after : ∀ earlier ∈ previous, (AddressWord.fromAddress earlier).value <
      (AddressWord.fromAddress address).value) : validateAddress previous address = .ok () := by
  cases previous with
  | none => rfl
  | some earlier =>
      have order : earlier.order address = .lt := by
        rw [Address.order_eq_compare]
        exact compare_lt_iff_lt.mpr (after earlier rfl)
      simp only [validateAddress, order]

/-- A list of canonical accounts in address order passes. -/
theorem validate_ok {accounts : List AccountChanges}
    (addresses : accounts.Pairwise fun left right => (AddressWord.fromAddress left.address).value <
      (AddressWord.fromAddress right.address).value)
    (canonical : ∀ account ∈ accounts, account.Canonical)
    (range : ∀ account ∈ accounts, ∀ index ∈ account.indices, validateRange options index = .ok ()) :
    validate accounts options = .ok () := by
  refine eachWithPrevious_ok (fun account member previous after => ?_) addresses
  have next : ∀ earlier ∈ previous.map AccountChanges.address, (AddressWord.fromAddress earlier).value <
      (AddressWord.fromAddress account.address).value := by
    intro earlier known
    obtain ⟨above, here, rfl⟩ := Option.map_eq_some_iff.mp known
    exact after above here
  rw [validateNext, validateAddress_ok next]
  exact validateAccount_ok (canonical account member) (range account member)

end EvmZig.Bal
