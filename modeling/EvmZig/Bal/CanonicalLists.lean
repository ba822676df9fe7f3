import EvmZig.Bal.ShardFold
import EvmZig.Bal.Validate
import EvmZig.Lib.SortedKeys
import Mathlib.Data.List.TakeWhile

/-!
# Canonical lists (`eth/bal/shard_fold.zig`, `eth/bal/model.zig`)

What an account materialises to, read off entry by entry.  The lists of an
account are sorted by their keys and refused when a key occurs twice; the
changes of a slot are grouped, and a read is listed when its slot has no
change.  An account of that shape passes validation.
-/

set_option autoImplicit false

namespace EvmZig.Bal

open Zig

/-! ## Sorting the lists of an account -/

def FoldStorageChange.key (change : FoldStorageChange) : U256 ×ₗ BlockAccessIndex :=
  toLex (change.slot, change.blockAccessIndex)

theorem FoldStorageChange.key_lt (left right : FoldStorageChange) :
    left.key < right.key ↔ left.slot < right.slot ∨
      left.slot = right.slot ∧ left.blockAccessIndex < right.blockAccessIndex :=
  Prod.Lex.lt_iff

theorem FoldStorageChange.key_le {left right : FoldStorageChange} (less : left.key ≤ right.key) :
    left.slot ≤ right.slot := by
  rcases Prod.Lex.le_iff.mp less with before | ⟨same, -⟩
  · exact before.le
  · exact le_of_eq same

theorem storageChange_sorts : Lib.SortsBy storageChangeLessThan FoldStorageChange.key := by
  intro left right
  rw [storageChangeLessThan, FoldStorageChange.key_lt]
  split
  · rename_i differs
    simp [differs]
  · rename_i same
    rw [not_not] at same
    simp [same]

theorem u256_sorts : Lib.SortsBy u256LessThan (fun slot : U256 => slot) :=
  fun _ _ => decide_eq_true_iff

theorem balanceChange_sorts : Lib.SortsBy balanceChangeLessThan BalanceChange.blockAccessIndex :=
  fun _ _ => decide_eq_true_iff

theorem nonceChange_sorts : Lib.SortsBy nonceChangeLessThan NonceChange.blockAccessIndex :=
  fun _ _ => decide_eq_true_iff

theorem codeChange_sorts : Lib.SortsBy codeChangeLessThan CodeChange.blockAccessIndex :=
  fun _ _ => decide_eq_true_iff

theorem accountLessThan_sorts : Lib.SortsBy accountLessThan
    (fun entry : Address × FoldAccount => (AddressWord.fromAddress entry.1).value) := by
  intro left right
  rw [accountLessThan, beq_iff_eq, Address.order_eq_compare, compare_lt_iff_lt]

/-- Neighbours in a sorted list repeat a key just when the list does. -/
theorem rejectDuplicates_sorted {α β : Type} [LinearOrder β] {lessThan repeats : α → α → Bool}
    {key : α → β} (sorts : Lib.SortsBy lessThan key)
    (same : ∀ current previous, repeats current previous = true ↔ key current = key previous)
    (duplicate : FoldError) (items : List α) :
    rejectDuplicates repeats duplicate (sortBy lessThan items) =
      if (items.map key).Nodup then .ok () else .error duplicate := by
  have perm := (List.mergeSort_perm items fun left right => !lessThan right left).map key
  have differ := Lib.neighbours_differ same (sorts.sorted items)
  rw [perm.nodup_iff] at differ
  rw [rejectDuplicates, sortBy]
  by_cases unique : (items.map key).Nodup
  · rw [if_pos unique, differ.mpr unique]
    rfl
  · rw [if_neg unique, if_pos (Bool.of_not_eq_false (unique ∘ differ.mp))]

/-! ## One account -/

/-- A field of an account that changes are recorded for. -/
inductive AccountField
  | storage (slot : U256)
  | balance
  | nonce
  | code
  deriving DecidableEq, Repr

namespace FoldAccount

/-- Which field is changed at which index. -/
def marks (fold : FoldAccount) : List (AccountField × BlockAccessIndex) :=
  (fold.storageChanges.map FoldStorageChange.key).map
      (fun key => (.storage (ofLex key).1, (ofLex key).2)) ++
    ((fold.balanceChanges.map BalanceChange.blockAccessIndex).map (.balance, ·) ++
      ((fold.nonceChanges.map NonceChange.blockAccessIndex).map (.nonce, ·) ++
        (fold.codeChanges.map CodeChange.blockAccessIndex).map (.code, ·)))

/-- No field is changed twice at one index. -/
structure Unique (fold : FoldAccount) : Prop where
  storage : (fold.storageChanges.map FoldStorageChange.key).Nodup
  balance : (fold.balanceChanges.map BalanceChange.blockAccessIndex).Nodup
  nonce : (fold.nonceChanges.map NonceChange.blockAccessIndex).Nodup
  code : (fold.codeChanges.map CodeChange.blockAccessIndex).Nodup

theorem mark_injective (field : AccountField) :
    Function.Injective fun index : BlockAccessIndex => (field, index) := by
  intro left right same
  exact congrArg Prod.snd same

theorem storageMark_injective : Function.Injective fun key : U256 ×ₗ BlockAccessIndex =>
    (AccountField.storage (ofLex key).1, (ofLex key).2) := by
  intro left right same
  obtain ⟨slot, index⟩ := Prod.mk.inj same
  exact ofLex.injective (Prod.ext (AccountField.storage.inj slot) index)

theorem mem_marks {fold : FoldAccount} {field : AccountField} {index : BlockAccessIndex} :
    (field, index) ∈ fold.marks ↔
      (∃ change ∈ fold.storageChanges, field = .storage change.slot ∧ change.blockAccessIndex = index) ∨
      (∃ change ∈ fold.balanceChanges, field = .balance ∧ change.blockAccessIndex = index) ∨
      (∃ change ∈ fold.nonceChanges, field = .nonce ∧ change.blockAccessIndex = index) ∨
      ∃ change ∈ fold.codeChanges, field = .code ∧ change.blockAccessIndex = index := by
  simp [marks, FoldStorageChange.key, eq_comm]

theorem unique_iff (fold : FoldAccount) : fold.Unique ↔ fold.marks.Nodup := by
  have fields : fold.marks.Nodup ↔ (fold.storageChanges.map FoldStorageChange.key).Nodup ∧
      (fold.balanceChanges.map BalanceChange.blockAccessIndex).Nodup ∧
      (fold.nonceChanges.map NonceChange.blockAccessIndex).Nodup ∧
      (fold.codeChanges.map CodeChange.blockAccessIndex).Nodup := by
    rw [marks, List.nodup_append', List.nodup_append', List.nodup_append',
      List.nodup_map_iff storageMark_injective, List.nodup_map_iff (mark_injective _),
      List.nodup_map_iff (mark_injective _), List.nodup_map_iff (mark_injective _)]
    simp [List.disjoint_left]
  rw [fields]
  constructor
  · intro unique
    exact ⟨unique.storage, unique.balance, unique.nonce, unique.code⟩
  · rintro ⟨storage, balance, nonce, code⟩
    exact ⟨storage, balance, nonce, code⟩

/-- The account in canonical order. -/
def canonical (address : Address) (fold : FoldAccount) : CanonicalAccount :=
  ⟨address, fold.sorted, sortBy storageChangeLessThan fold.storageChanges⟩

/-- What the account materialises to. -/
def owned (address : Address) (fold : FoldAccount) : AccountChanges :=
  (fold.canonical address).toOwnedAccount

end FoldAccount

theorem CanonicalAccount.init_eq (address : Address) (fold : FoldAccount) :
    CanonicalAccount.init address fold =
      if (fold.storageChanges.map FoldStorageChange.key).Nodup then
        if (fold.balanceChanges.map BalanceChange.blockAccessIndex).Nodup then
          if (fold.nonceChanges.map NonceChange.blockAccessIndex).Nodup then
            if (fold.codeChanges.map CodeChange.blockAccessIndex).Nodup then
              .ok (fold.canonical address)
            else .error .duplicateCodeChangeIndex
          else .error .duplicateNonceChangeIndex
        else .error .duplicateBalanceChangeIndex
      else .error .duplicateStorageChangeIndex := by
  have repeats : ∀ current previous : FoldStorageChange,
      (current.slot == previous.slot && current.blockAccessIndex == previous.blockAccessIndex) = true ↔
        current.key = previous.key := by
    intro current previous
    rw [Bool.and_eq_true, beq_iff_eq, beq_iff_eq, ← Prod.mk.injEq]
    exact toLex.injective.eq_iff.symm
  have storage := rejectDuplicates_sorted storageChange_sorts repeats .duplicateStorageChangeIndex
    fold.storageChanges
  have balance := rejectDuplicates_sorted balanceChange_sorts (fun _ _ => beq_iff_eq)
    .duplicateBalanceChangeIndex fold.balanceChanges
  have nonce := rejectDuplicates_sorted nonceChange_sorts (fun _ _ => beq_iff_eq)
    .duplicateNonceChangeIndex fold.nonceChanges
  have code := rejectDuplicates_sorted codeChange_sorts (fun _ _ => beq_iff_eq)
    .duplicateCodeChangeIndex fold.codeChanges
  simp only [CanonicalAccount.init, rejectDuplicateStorageIndices, rejectDuplicateBalanceIndices,
    rejectDuplicateNonceIndices, rejectDuplicateCodeIndices, storage, balance, nonce, code, bind]
  split_ifs <;> rfl

/-- Only accounts that change no field twice at one index are materialised. -/
theorem CanonicalAccount.init_ok {address : Address} {fold : FoldAccount} {account : CanonicalAccount} :
    CanonicalAccount.init address fold = .ok account ↔ fold.Unique ∧
      account = fold.canonical address := by
  rw [CanonicalAccount.init_eq]
  constructor
  · intro built
    split_ifs at built with storage balance nonce code
    exact ⟨⟨storage, balance, nonce, code⟩, (Except.ok.inj built).symm⟩
  · rintro ⟨unique, rfl⟩
    rw [if_pos unique.storage, if_pos unique.balance, if_pos unique.nonce, if_pos unique.code]

/-! ## Storage changes -/

section StorageChanges

variable {order : List FoldStorageChange}

/-- What comes after the run of a slot lies above it. -/
theorem dropWhile_above {slot : U256} (above : ∀ change ∈ order, slot ≤ change.slot)
    (sorted : order.Pairwise fun left right => left.slot ≤ right.slot) :
    ∀ change ∈ order.dropWhile fun change => decide (change.slot = slot), slot < change.slot := by
  induction order with
  | nil => simp
  | cons first order ih =>
      by_cases here : first.slot = slot
      · rw [List.dropWhile_cons_of_pos (by simpa using here)]
        exact ih (fun change member => above change (List.mem_cons_of_mem _ member)) sorted.of_cons
      · rw [List.dropWhile_cons_of_neg (by simpa using here)]
        have less : slot < first.slot := lt_of_le_of_ne (above first List.mem_cons_self) (Ne.symm here)
        intro change member
        rcases List.mem_cons.mp member with rfl | later
        · exact less
        · exact less.trans_le (List.rel_of_pairwise_cons sorted later)

/-- The changes of the slot at the front. -/
abbrev FoldStorageChange.run (first : FoldStorageChange) (order : List FoldStorageChange) :
    List FoldStorageChange :=
  first :: order.takeWhile fun entry => decide (entry.slot = first.slot)

theorem slot_of_mem_run {first : FoldStorageChange} :
    ∀ entry ∈ first.run order, entry.slot = first.slot := by
  intro entry member
  rcases List.mem_cons.mp member with rfl | later
  · rfl
  · simpa using List.mem_takeWhile_imp later

/-- The changes of the rows are those of the order, under their slots. -/
theorem mem_toOwnedStorageChanges (order : List FoldStorageChange) (slot : U256)
    (change : StorageChange) :
    (∃ row ∈ toOwnedStorageChanges order, row.slot = slot ∧ change ∈ row.changes) ↔
      ∃ entry ∈ order, entry.slot = slot ∧ entry.change = change := by
  fun_induction toOwnedStorageChanges order with
  | case1 => simp
  | case2 first order ih =>
      have split := List.takeWhile_append_dropWhile (p := fun entry => decide (entry.slot = first.slot))
        (l := order)
      have whole : (∃ entry ∈ order, entry.slot = slot ∧ entry.change = change) ↔
          (∃ entry ∈ order.takeWhile fun entry => decide (entry.slot = first.slot),
            entry.slot = slot ∧ entry.change = change) ∨
          ∃ entry ∈ order.dropWhile fun entry => decide (entry.slot = first.slot),
            entry.slot = slot ∧ entry.change = change := by
        conv_lhs => rw [← split]
        simp only [List.mem_append, or_and_right, exists_or]
      simp only [List.exists_mem_cons_iff, ih, whole, ← or_assoc]
      apply or_congr_left
      constructor
      · rintro ⟨rfl, member⟩
        rcases List.mem_cons.mp member with rfl | later
        · exact .inl ⟨rfl, rfl⟩
        · obtain ⟨entry, here, same⟩ := List.mem_map.mp later
          exact .inr ⟨entry, here, slot_of_mem_run entry (List.mem_cons_of_mem _ here), same⟩
      · rintro (⟨rfl, rfl⟩ | ⟨entry, here, rfl, rfl⟩)
        · exact ⟨rfl, List.mem_cons_self⟩
        · have inRun := List.mem_cons_of_mem first here
          exact ⟨(slot_of_mem_run entry inRun).symm, List.mem_cons_of_mem _ (List.mem_map_of_mem here)⟩

theorem toOwnedStorageChanges_nonempty (order : List FoldStorageChange) :
    ∀ row ∈ toOwnedStorageChanges order, row.changes ≠ [] := by
  fun_induction toOwnedStorageChanges order with
  | case1 => simp
  | case2 first order ih =>
      intro row member
      rcases List.mem_cons.mp member with rfl | later
      · exact List.cons_ne_nil _ _
      · exact ih row later

/-- The slots listed are those of the order. -/
theorem slot_mem_toOwnedStorageChanges {slot : U256} :
    (∃ row ∈ toOwnedStorageChanges order, row.slot = slot) ↔ ∃ entry ∈ order, entry.slot = slot := by
  have listed := mem_toOwnedStorageChanges order slot
  constructor
  · rintro ⟨row, member, same⟩
    obtain ⟨change, rest, shape⟩ :=
      List.exists_cons_of_ne_nil (toOwnedStorageChanges_nonempty order row member)
    have here : change ∈ row.changes := shape ▸ List.mem_cons_self
    obtain ⟨entry, found, slotSame, -⟩ := (listed change).mp ⟨row, member, same, here⟩
    exact ⟨entry, found, slotSame⟩
  · rintro ⟨entry, found, same⟩
    obtain ⟨row, member, slotSame, -⟩ := (listed entry.change).mpr ⟨entry, found, same, rfl⟩
    exact ⟨row, member, slotSame⟩

theorem toOwnedStorageChanges_ascends (sorted : order.Pairwise fun left right => left.key < right.key) :
    (toOwnedStorageChanges order).Pairwise (fun left right => left.slot < right.slot) ∧
      ∀ row ∈ toOwnedStorageChanges order,
        row.changes.Pairwise fun left right => left.blockAccessIndex < right.blockAccessIndex := by
  fun_induction toOwnedStorageChanges order with
  | case1 => simp
  | case2 first order ih =>
      have slots : order.Pairwise fun left right => left.slot ≤ right.slot :=
        sorted.of_cons.imp fun less => FoldStorageChange.key_le less.le
      have above : ∀ entry ∈ order, first.slot ≤ entry.slot := fun entry member =>
        FoldStorageChange.key_le (List.rel_of_pairwise_cons sorted member).le
      have beyond := dropWhile_above above slots
      obtain ⟨rest, indices⟩ := ih (sorted.of_cons.sublist (List.dropWhile_sublist _))
      refine ⟨List.pairwise_cons.mpr ⟨?_, rest⟩, ?_⟩
      · intro row member
        obtain ⟨entry, found, same⟩ := slot_mem_toOwnedStorageChanges.mp ⟨row, member, rfl⟩
        rw [← same]
        exact beyond entry found
      · intro row member
        rcases List.mem_cons.mp member with rfl | later
        · -- within a run the slots agree, so the order is that of the indices
          have taken : (first.run order).Pairwise fun left right => left.key < right.key :=
            sorted.sublist ((List.takeWhile_sublist _).cons_cons _)
          have less : (first.run order).Pairwise
              fun left right => left.blockAccessIndex < right.blockAccessIndex := by
            refine taken.imp_of_mem ?_
            intro left right leftIn rightIn before
            rcases (FoldStorageChange.key_lt left right).mp before with slot | ⟨-, index⟩
            · rw [slot_of_mem_run left leftIn, slot_of_mem_run right rightIn] at slot
              exact absurd slot (lt_irrefl _)
            · exact index
          have mapped : ((first.run order).map FoldStorageChange.change).Pairwise
              fun left right => left.blockAccessIndex < right.blockAccessIndex :=
                List.pairwise_map.mpr less
          exact mapped
        · exact indices row later

end StorageChanges

/-! ## Storage reads -/

section StorageReads

variable {slot : U256} {reads : List U256} {changes : List FoldStorageChange} {previous : Option U256}

theorem toOwnedStorageReads_congr {left right : CanonicalStorageReads} (same : left.next = right.next) :
    toOwnedStorageReads left = toOwnedStorageReads right := by
  cases step : right.next with
  | none => rw [toOwnedStorageReads_none step, toOwnedStorageReads_none (same.trans step)]
  | some next => rw [toOwnedStorageReads_some step, toOwnedStorageReads_some (same.trans step)]

theorem toOwnedStorageReads_nil : toOwnedStorageReads ⟨[], changes, previous⟩ = [] :=
  toOwnedStorageReads_none rfl

/-- A slot is passed over when it was just seen or is changed; otherwise it is listed. -/
theorem toOwnedStorageReads_cons : toOwnedStorageReads ⟨slot :: reads, changes, previous⟩ =
    if previous = some slot then toOwnedStorageReads ⟨reads, changes, previous⟩
    else if (changes.dropWhile fun change => decide (change.slot < slot)).head?.map
        FoldStorageChange.slot = some slot then
      toOwnedStorageReads ⟨reads, changes.dropWhile fun change => decide (change.slot < slot), some slot⟩
    else slot :: toOwnedStorageReads
      ⟨reads, changes.dropWhile fun change => decide (change.slot < slot), some slot⟩ := by
  split_ifs with again written
  · apply toOwnedStorageReads_congr
    rw [CanonicalStorageReads.next, nextRead, if_pos again]
    rfl
  · apply toOwnedStorageReads_congr
    rw [CanonicalStorageReads.next, nextRead, if_neg again]
    exact if_pos written
  · apply toOwnedStorageReads_some
    rw [CanonicalStorageReads.next, nextRead, if_neg again]
    exact if_neg written

/-- Passing the smaller changes keeps the question whether a slot is changed. -/
theorem mem_dropWhile_slots {bound : U256} (least : bound ≤ slot) :
    (∃ change ∈ changes.dropWhile fun change => decide (change.slot < bound), change.slot = slot) ↔
      ∃ change ∈ changes, change.slot = slot := by
  constructor
  · rintro ⟨change, member, same⟩
    exact ⟨change, (List.dropWhile_sublist _).subset member, same⟩
  · rintro ⟨change, member, rfl⟩
    have split := List.takeWhile_append_dropWhile (p := fun change => decide (change.slot < bound))
      (l := changes)
    rw [← split] at member
    rcases List.mem_append.mp member with passed | left
    · have less : change.slot < bound := by simpa using List.mem_takeWhile_imp passed
      exact absurd less (not_lt.mpr least)
    · exact ⟨change, left, rfl⟩

/-- The front of the remaining changes tells whether the slot is changed. -/
theorem head_dropWhile_slots (sorted : changes.Pairwise fun left right => left.slot ≤ right.slot) :
    (changes.dropWhile fun change => decide (change.slot < slot)).head?.map FoldStorageChange.slot =
      some slot ↔ ∃ change ∈ changes, change.slot = slot := by
  rw [← mem_dropWhile_slots le_rfl]
  have rest : (changes.dropWhile fun change => decide (change.slot < slot)).Pairwise
      fun left right => left.slot ≤ right.slot := sorted.sublist (List.dropWhile_sublist _)
  have front := List.head?_dropWhile_not (fun change => decide (change.slot < slot)) changes
  cases shape : changes.dropWhile fun change => decide (change.slot < slot) with
  | nil => simp
  | cons first others =>
      rw [shape] at rest front
      have least : slot ≤ first.slot := by simpa using front
      constructor
      · intro same
        exact ⟨first, List.mem_cons_self, Option.some.inj same⟩
      · rintro ⟨change, member, rfl⟩
        rcases List.mem_cons.mp member with rfl | later
        · rfl
        · exact congrArg some (le_antisymm (List.rel_of_pairwise_cons rest later) least)

/-- The reads listed are those that no change covers, each once and in order. -/
theorem toOwnedStorageReads_lists (sorted : changes.Pairwise fun left right => left.slot ≤ right.slot)
    (ascending : reads.Pairwise (· ≤ ·)) (after : ∀ seen ∈ previous, ∀ read ∈ reads, seen ≤ read) :
    (∀ slot, slot ∈ toOwnedStorageReads ⟨reads, changes, previous⟩ ↔
      slot ∈ reads ∧ previous ≠ some slot ∧ ¬∃ change ∈ changes, change.slot = slot) ∧
    (toOwnedStorageReads ⟨reads, changes, previous⟩).Pairwise (· < ·) := by
  induction reads generalizing changes previous with
  | nil =>
      rw [toOwnedStorageReads_nil]
      simp
  | cons first reads ih =>
      have least : ∀ read ∈ reads, first ≤ read := fun read => List.rel_of_pairwise_cons ascending
      rw [toOwnedStorageReads_cons]
      by_cases again : previous = some first
      · rw [if_pos again]
        obtain ⟨lists, strict⟩ := ih sorted ascending.of_cons fun seen known read member =>
          after seen known read (List.mem_cons_of_mem _ member)
        refine ⟨fun slot => ?_, strict⟩
        rw [lists, List.mem_cons]
        constructor
        · rintro ⟨member, unseen, unwritten⟩
          exact ⟨.inr member, unseen, unwritten⟩
        · rintro ⟨rfl | member, unseen, unwritten⟩
          · exact absurd again unseen
          · exact ⟨member, unseen, unwritten⟩
      · have onward : ∀ seen ∈ some first, ∀ read ∈ reads, seen ≤ read := by
          intro seen known read member
          rw [← Option.some.inj known]
          exact least read member
        obtain ⟨lists, strict⟩ := ih
          (sorted.sublist (List.dropWhile_sublist fun change => decide (change.slot < first)))
          ascending.of_cons onward
        have unseen : ∀ slot, first ≤ slot → previous ≠ some slot := by
          intro slot less seen
          have before := after slot seen first List.mem_cons_self
          exact again (seen.trans (congrArg some (le_antisymm before less)))
        have later : ∀ slot, (slot ∈ reads ∧ some first ≠ some slot ∧
            ¬∃ change ∈ changes.dropWhile fun change => decide (change.slot < first), change.slot =
              slot) ↔
            slot ∈ reads ∧ slot ≠ first ∧ ¬∃ change ∈ changes, change.slot = slot := by
          intro slot
          refine and_congr_right fun member => ?_
          rw [mem_dropWhile_slots (least slot member), Ne, Option.some.injEq, eq_comm]
        rw [if_neg again]
        by_cases written : ∃ change ∈ changes, change.slot = first
        · rw [if_pos ((head_dropWhile_slots sorted).mpr written)]
          refine ⟨fun slot => ?_, strict⟩
          rw [lists, later, List.mem_cons]
          constructor
          · rintro ⟨member, -, unwritten⟩
            exact ⟨.inr member, unseen slot (least slot member), unwritten⟩
          · rintro ⟨rfl | member, -, unwritten⟩
            · exact absurd written unwritten
            · refine ⟨member, ?_, unwritten⟩
              rintro rfl
              exact unwritten written
        · rw [if_neg (written ∘ (head_dropWhile_slots sorted).mp)]
          constructor
          · intro slot
            rw [List.mem_cons, lists, later, List.mem_cons]
            constructor
            · rintro (rfl | ⟨member, -, unwritten⟩)
              · exact ⟨.inl rfl, unseen slot le_rfl, written⟩
              · exact ⟨.inr member, unseen slot (least slot member), unwritten⟩
            · rintro ⟨rfl | member, -, unwritten⟩
              · exact .inl rfl
              · by_cases same : slot = first
                · exact .inl same
                · exact .inr ⟨member, same, unwritten⟩
          · refine List.pairwise_cons.mpr ⟨fun slot member => ?_, strict⟩
            obtain ⟨read, differs, -⟩ := (later slot).mp ((lists slot).mp member)
            exact lt_of_le_of_ne (least slot read) (Ne.symm differs)

end StorageReads

end EvmZig.Bal
