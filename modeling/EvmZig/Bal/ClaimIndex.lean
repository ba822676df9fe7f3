import EvmZig.Bal.ClaimPlan

/-!
# What the claim plan indexes

The columns of a plan are filled account by account; each range of ids is then
sorted on its own.  A validated list is ascending, so both searches find every
declared key at its id and no other key.
-/

set_option autoImplicit false

namespace EvmZig.Bal

open Zig

variable {account : AccountChanges} {counts counts' : Counts} {left right : Nat}
  {accounts claim : List AccountChanges} {trieKeys : List Hash} {ids : List Nat} {range : Range}

/-! ## The storage keys of one account -/

/-- The declared storage keys: changed or read. -/
def AccountChanges.declared (account : AccountChanges) : List U256 :=
  mergeSlots account.storageChanges account.storageReads

theorem mem_mergeSlots {changes : List SlotChanges} {reads : List U256} {slot : U256} :
    slot ∈ mergeSlots changes reads ↔ (∃ change ∈ changes, change.slot = slot) ∨ slot ∈ reads := by
  fun_induction mergeSlots changes reads with
  | case1 change changes read reads less ih => grind
  | case2 change changes read reads more ih => grind
  | case3 change changes ih => grind
  | case4 read reads ih => grind
  | case5 => simp

theorem mergeSlots_length (changes : List SlotChanges) (reads : List U256) :
    (mergeSlots changes reads).length = changes.length + reads.length := by
  fun_induction mergeSlots changes reads with
  | case1 change changes read reads less ih => simp only [List.length_cons, ih]; omega
  | case2 change changes read reads more ih => simp only [List.length_cons, ih]; omega
  | case3 change changes ih => simp only [List.length_cons, ih]; omega
  | case4 read reads ih => simp only [List.length_cons, ih]; omega
  | case5 => rfl

theorem mergeSlots_ascends {changes : List SlotChanges} {reads : List U256}
    (slots : changes.Pairwise fun left right => left.slot < right.slot)
    (ascending : reads.Pairwise (· < ·)) (apart : ∀ change ∈ changes, change.slot ∉ reads) :
    (mergeSlots changes reads).Pairwise (· < ·) := by
  fun_induction mergeSlots changes reads with
  | case1 change changes read reads less ih =>
      have rest := ih slots.of_cons ascending fun other member =>
        apart other (List.mem_cons_of_mem _ member)
      refine List.Pairwise.cons (fun slot member => ?_) rest
      rcases mem_mergeSlots.mp member with changed | readHere
      · obtain ⟨other, held, rfl⟩ := changed
        exact List.rel_of_pairwise_cons slots held
      · rcases List.mem_cons.mp readHere with rfl | later
        · exact less
        · exact lt_trans less (List.rel_of_pairwise_cons ascending later)
  | case2 change changes read reads more ih =>
      have rest := ih slots ascending.of_cons fun other member readHere =>
        apart other member (List.mem_cons_of_mem _ readHere)
      have differs : change.slot ≠ read := fun same =>
        apart change List.mem_cons_self (same ▸ List.mem_cons_self)
      have less : read < change.slot := lt_of_le_of_ne (not_lt.mp more) differs.symm
      refine List.Pairwise.cons (fun slot member => ?_) rest
      rcases mem_mergeSlots.mp member with changed | readHere
      · obtain ⟨other, held, rfl⟩ := changed
        rcases List.mem_cons.mp held with rfl | later
        · exact less
        · exact lt_trans less (List.rel_of_pairwise_cons slots later)
      · exact List.rel_of_pairwise_cons ascending readHere
  | case3 change changes ih =>
      have rest := ih slots.of_cons ascending fun _ _ => List.not_mem_nil
      refine List.Pairwise.cons (fun slot member => ?_) rest
      rcases mem_mergeSlots.mp member with changed | readHere
      · obtain ⟨other, held, rfl⟩ := changed
        exact List.rel_of_pairwise_cons slots held
      · cases readHere
  | case4 read reads ih =>
      have rest := ih slots ascending.of_cons fun _ member => by cases member
      refine List.Pairwise.cons (fun slot member => ?_) rest
      rcases mem_mergeSlots.mp member with changed | readHere
      · obtain ⟨other, held, -⟩ := changed
        cases held
      · exact List.rel_of_pairwise_cons ascending readHere
  | case5 => exact List.Pairwise.nil

theorem AccountChanges.Ordered.declared_ascends (ordered : account.Ordered) :
    account.declared.Pairwise (· < ·) :=
  mergeSlots_ascends ordered.slots ordered.reads ordered.apart

theorem AccountChanges.mem_declared {slot : U256} : slot ∈ account.declared ↔
      (∃ change ∈ account.storageChanges, change.slot = slot) ∨ slot ∈ account.storageReads :=
  mem_mergeSlots

/-! ## The counts of a list -/

theorem updateMaxIndex_keys (counts : Counts) (blockAccessIndex : BlockAccessIndex) :
    (updateMaxIndex counts blockAccessIndex).storageReadKeys = counts.storageReadKeys ∧
      (updateMaxIndex counts blockAccessIndex).storageWriteKeys = counts.storageWriteKeys := by
  unfold updateMaxIndex
  split
  · split <;> exact ⟨rfl, rfl⟩
  · exact ⟨rfl, rfl⟩

/-- The two counters that the plan reads. -/
def Counts.keys (counts : Counts) : Nat × Nat := (counts.storageReadKeys, counts.storageWriteKeys)

theorem foldl_updateMaxIndex_keys (indices : List BlockAccessIndex) (counts : Counts) :
    (indices.foldl updateMaxIndex counts).keys = counts.keys := by
  induction indices generalizing counts with
  | nil => rfl
  | cons index indices ih =>
      rw [List.foldl_cons, ih]
      exact Prod.ext (updateMaxIndex_keys counts index).1 (updateMaxIndex_keys counts index).2

theorem foldlM_keys {α : Type} {countRow : Counts → α → Option Counts}
    (keeps : ∀ counts row counts', countRow counts row = some counts' → counts'.keys = counts.keys)
    {rows : List α} (ran : rows.foldlM countRow counts = some counts') :
    counts'.keys = counts.keys := by
  induction rows generalizing counts with
  | nil =>
      cases ran
      rfl
  | cons row rows ih =>
      rw [List.foldlM_cons] at ran
      obtain ⟨next, step, rest⟩ := Option.bind_eq_some_iff.mp ran
      rw [ih rest, keeps counts row next step]

theorem countSlot_keys (counts : Counts) (slot : SlotChanges) (counts' : Counts)
    (ran : countSlot counts slot = some counts') : counts'.keys = counts.keys := by
  obtain ⟨changes, -, result⟩ := Option.bind_eq_some_iff.mp ran
  cases result
  exact foldl_updateMaxIndex_keys _ _

theorem countCode_keys (counts : Counts) (change : CodeChange) (counts' : Counts)
    (ran : countCode counts change = some counts') : counts'.keys = counts.keys := by
  obtain ⟨bytes, -, result⟩ := Option.bind_eq_some_iff.mp ran
  cases result
  exact foldl_updateMaxIndex_keys [change.blockAccessIndex] _

theorem addUsize_eq_some {sum : Nat} (added : addUsize left right = some sum) :
    sum = left + right := by
  unfold addUsize at added
  split at added
  · exact (Option.some.inj added).symm
  · cases added

theorem countAccount_keys (ran : countAccount counts account = some counts') :
    counts'.keys = (counts.storageReadKeys + account.storageReads.length,
      counts.storageWriteKeys + account.storageChanges.length) := by
  unfold countAccount at ran
  obtain ⟨reads, readsAdded, ran⟩ := Option.bind_eq_some_iff.mp ran
  obtain ⟨writes, writesAdded, ran⟩ := Option.bind_eq_some_iff.mp ran
  obtain ⟨afterSlots, slotsRan, ran⟩ := Option.bind_eq_some_iff.mp ran
  obtain ⟨balances, -, ran⟩ := Option.bind_eq_some_iff.mp ran
  obtain ⟨nonces, -, ran⟩ := Option.bind_eq_some_iff.mp ran
  obtain ⟨codes, -, codesRan⟩ := Option.bind_eq_some_iff.mp ran
  have slotsKeys := foldlM_keys countSlot_keys slotsRan
  have codesKeys := foldlM_keys countCode_keys codesRan
  have readsEq := addUsize_eq_some readsAdded
  have writesEq := addUsize_eq_some writesAdded
  rw [codesKeys]
  refine Eq.trans (foldl_updateMaxIndex_keys _ _) ?_
  refine Eq.trans (foldl_updateMaxIndex_keys _ _) ?_
  refine Eq.trans slotsKeys ?_
  exact Prod.ext readsEq writesEq

theorem count_foldlM_keys {blockAccessList : List AccountChanges}
    (ran : blockAccessList.foldlM countAccount counts = some counts') :
    counts'.storageReadKeys + counts'.storageWriteKeys =
      counts.storageReadKeys + counts.storageWriteKeys +
        (blockAccessList.flatMap AccountChanges.declared).length := by
  induction blockAccessList generalizing counts with
  | nil =>
      cases ran
      rfl
  | cons account rest ih =>
      rw [List.foldlM_cons] at ran
      obtain ⟨next, step, later⟩ := Option.bind_eq_some_iff.mp ran
      have keys := countAccount_keys step
      simp only [Counts.keys, Prod.mk.injEq] at keys
      rw [ih later, keys.1, keys.2, List.flatMap_cons, List.length_append,
        AccountChanges.declared, mergeSlots_length]
      omega

/-- The counts add up to the declared storage keys. -/
theorem count_keys {blockAccessList : List AccountChanges}
    (counted : count blockAccessList = some counts) :
    counts.storageReadKeys + counts.storageWriteKeys =
      (blockAccessList.flatMap AccountChanges.declared).length := by
  have keys := count_foldlM_keys counted
  simpa using keys

/-! ## Filled columns -/

/-- The account of each storage id, when the accounts are numbered from `id`. -/
def ownersFrom : Nat → List AccountChanges → List AccountId
  | _, [] => []
  | id, account :: rest => List.replicate account.declared.length id ++ ownersFrom (id + 1) rest

/-- The ranges of the accounts, when the first one starts at `start`. -/
def rangesFrom : Nat → List AccountChanges → List Range
  | _, [] => []
  | start, account :: rest =>
      ⟨start, account.declared.length⟩ :: rangesFrom (start + account.declared.length) rest

theorem ownersFrom_append (id : Nat) (left right : List AccountChanges) :
    ownersFrom id (left ++ right) = ownersFrom id left ++ ownersFrom (id + left.length) right := by
  induction left generalizing id with
  | nil => rfl
  | cons account left ih =>
      rw [List.cons_append, ownersFrom, ownersFrom, ih, List.append_assoc, List.length_cons,
        Nat.add_assoc, Nat.add_comm 1]

theorem ownersFrom_length (id : Nat) (accounts : List AccountChanges) :
    (ownersFrom id accounts).length = (accounts.flatMap AccountChanges.declared).length := by
  induction accounts generalizing id with
  | nil => rfl
  | cons account accounts ih =>
      rw [ownersFrom, List.length_append, List.length_replicate, ih, List.flatMap_cons,
        List.length_append]

theorem mem_ownersFrom {id owner : Nat} (member : owner ∈ ownersFrom id accounts) :
    id ≤ owner ∧ owner < id + accounts.length := by
  induction accounts generalizing id with
  | nil => cases member
  | cons account accounts ih =>
      rw [List.length_cons]
      rcases List.mem_append.mp member with here | later
      · have same := List.eq_of_mem_replicate here
        omega
      · have bounds := ih later
        omega

theorem rangesFrom_append (start : Nat) (left right : List AccountChanges) :
    rangesFrom start (left ++ right) =
      rangesFrom start left ++
        rangesFrom (start + (left.flatMap AccountChanges.declared).length) right := by
  induction left generalizing start with
  | nil => rfl
  | cons account left ih =>
      rw [List.cons_append, rangesFrom, rangesFrom, ih, List.flatMap_cons, List.length_append,
        Nat.add_assoc]
      rfl

theorem rangesFrom_length (start : Nat) (accounts : List AccountChanges) :
    (rangesFrom start accounts).length = accounts.length := by
  induction accounts generalizing start with
  | nil => rfl
  | cons account accounts ih => rw [rangesFrom, List.length_cons, ih, List.length_cons]

section Columns

variable (keccak256 : List UInt8 → Hash)

/-- The columns after the loop over `accounts`, before the ids are sorted. -/
def columns (accounts : List AccountChanges) : ClaimPlan where
  accountAddresses := accounts.map fun account => AddressWord.fromAddress account.address
  accountStorageRanges := rangesFrom 0 accounts
  accountTrieKeys := accounts.map fun account => hashedAddressKey keccak256 account.address
  storageAccounts := ownersFrom 0 accounts
  storageSlots := accounts.flatMap AccountChanges.declared
  storageTrieKeys := (accounts.flatMap AccountChanges.declared).map (hashedStorageKey keccak256)
  accountTrieOrder := List.range accounts.length
  storageTrieOrder := List.range (accounts.flatMap AccountChanges.declared).length

/-- A plan with more storage ids of one account appended. -/
def ClaimPlan.withSlots (plan : ClaimPlan) (id : AccountId) (slots : List U256) : ClaimPlan :=
  { plan with
    storageAccounts := plan.storageAccounts ++ List.replicate slots.length id
    storageSlots := plan.storageSlots ++ slots
    storageTrieKeys := plan.storageTrieKeys ++ slots.map (hashedStorageKey keccak256)
    storageTrieOrder := plan.storageTrieOrder ++
      List.range' plan.storageSlots.length slots.length }

theorem addSlots_eq {storageCount : Nat} (id : AccountId) {plan : ClaimPlan} {slots : List U256}
    (room : plan.storageSlots.length + slots.length ≤ storageCount) :
    slots.foldlM (addSlot keccak256 storageCount id) plan =
      some (plan.withSlots keccak256 id slots) := by
  induction slots generalizing plan with
  | nil => simp [ClaimPlan.withSlots]
  | cons slot slots ih =>
      rw [List.length_cons] at room
      have step : addSlot keccak256 storageCount id plan slot =
          some (plan.withSlots keccak256 id [slot]) := by
        rw [addSlot, assert_true (by omega)]
        rfl
      rw [List.foldlM_cons, step]
      refine Eq.trans (ih ?_) ?_
      · simp only [ClaimPlan.withSlots, List.length_append, List.length_singleton]
        omega
      · simp only [ClaimPlan.withSlots, List.append_assoc, List.length_append, List.length_cons,
          List.map_cons, List.singleton_append, List.replicate_succ]
        rfl

theorem addAccount_eq {storageCount : Nat}
    (room : (accounts.flatMap AccountChanges.declared).length + account.declared.length ≤ storageCount)
    (ascends : ∀ previous ∈ accounts.getLast?, (AddressWord.fromAddress previous.address).order
      (AddressWord.fromAddress account.address) = .lt) :
    addAccount keccak256 storageCount (columns keccak256 accounts) account =
      some (columns keccak256 (accounts ++ [account])) := by
  have slotsRan := @addSlots_eq keccak256 _ accounts.length (columns keccak256 accounts)
    account.declared room
  have asserted : assert (∀ previous ∈ ((columns keccak256 accounts).withSlots keccak256
      accounts.length account.declared).accountAddresses.getLast?,
      previous.order (AddressWord.fromAddress account.address) = .lt) = some () := by
    apply assert_true
    simpa [ClaimPlan.withSlots, columns, List.getLast?_map] using ascends
  have idEq : (columns keccak256 accounts).accountAddresses.length = accounts.length :=
    List.length_map _
  rw [AccountChanges.declared] at slotsRan asserted
  rw [addAccount, idEq]
  simp only [slotsRan, Option.bind_eq_bind, Option.bind_some, asserted]
  simp only [ClaimPlan.withSlots, columns, List.flatMap_append, List.flatMap_singleton,
    List.map_append, List.map_singleton, List.length_append, List.length_singleton,
    List.range_succ, List.range_add, rangesFrom_append, ownersFrom_append]
  simp [rangesFrom, ownersFrom, AccountChanges.declared, List.range'_eq_map_range]

theorem addAccounts_eq {storageCount : Nat} {accounts rest : List AccountChanges}
    (room : ((accounts ++ rest).flatMap AccountChanges.declared).length ≤ storageCount)
    (ascends : (accounts ++ rest).Pairwise fun left right =>
      (AddressWord.fromAddress left.address).value <
        (AddressWord.fromAddress right.address).value) :
    rest.foldlM (addAccount keccak256 storageCount) (columns keccak256 accounts) =
      some (columns keccak256 (accounts ++ rest)) := by
  induction rest generalizing accounts with
  | nil => rw [List.append_nil]; rfl
  | cons account rest ih =>
      have split : accounts ++ account :: rest = accounts ++ [account] ++ rest :=
        (List.append_cons ..)
      have here : (accounts.flatMap AccountChanges.declared).length + account.declared.length ≤
          storageCount := by
        rw [split, List.flatMap_append, List.flatMap_append, List.length_append,
          List.length_append, List.flatMap_singleton] at room
        omega
      have after : ∀ previous ∈ accounts.getLast?,
          (AddressWord.fromAddress previous.address).order
            (AddressWord.fromAddress account.address) = .lt := by
        intro previous last
        rw [AddressWord.order_eq_compare, compare_lt_iff_lt]
        exact (List.pairwise_append.mp ascends).2.2 previous
          (List.mem_of_getLast? last) account List.mem_cons_self
      rw [List.foldlM_cons, addAccount_eq keccak256 here after]
      refine Eq.trans (@ih (accounts ++ [account]) ?_ ?_) ?_
      · rwa [← split]
      · rwa [← split]
      · rw [split]

end Columns

/-! ## Sorting by trie key -/

/-- The key of an id as a number; every id that is sorted has one. -/
def trieRank (trieKeys : List Hash) (id : Nat) : Nat :=
  (trieKeys[id]?.map fun key => beValue key.val).getD 0

theorem trieLessThan_eq (leftInside : left < trieKeys.length)
    (rightInside : right < trieKeys.length) :
    trieLessThan trieKeys left right = decide (trieRank trieKeys left < trieRank trieKeys right) := by
  have sameLength : (trieKeys[left]).val.length = (trieKeys[right]).val.length := by
    rw [(trieKeys[left]).property, (trieKeys[right]).property]
  rw [trieLessThan, trieRank, trieRank, List.getElem?_eq_getElem leftInside,
    List.getElem?_eq_getElem rightInside]
  simp only [Option.map_some, Option.getD_some, memOrder_eq_compare sameLength]
  rw [Bool.eq_iff_iff, beq_iff_eq, compare_lt_iff_lt, decide_eq_true_iff]

theorem trieRank_inj (leftInside : left < trieKeys.length) (rightInside : right < trieKeys.length) :
    trieRank trieKeys left = trieRank trieKeys right ↔ trieKeys[left]? = trieKeys[right]? := by
  rw [trieRank, trieRank, List.getElem?_eq_getElem leftInside,
    List.getElem?_eq_getElem rightInside]
  simp only [Option.map_some, Option.getD_some, Option.some.injEq]
  constructor
  · intro same
    apply Subtype.ext
    apply beValue_inj _ same
    rw [(trieKeys[left]).property, (trieKeys[right]).property]
  · intro same
    rw [same]

theorem sortBy_trie (inside : ∀ id ∈ ids, id < trieKeys.length) :
    (sortBy (trieLessThan trieKeys) ids).Pairwise fun left right =>
      trieRank trieKeys left ≤ trieRank trieKeys right := by
  have byRank : sortBy (trieLessThan trieKeys) ids =
      ids.mergeSort fun left right => decide (trieRank trieKeys left ≤ trieRank trieKeys right) := by
    have mapped := @List.map_mergeSort _ _ (fun left right => !trieLessThan trieKeys right left)
      (fun left right => decide (trieRank trieKeys left ≤ trieRank trieKeys right)) id ids (by
        intro left leftIn right rightIn
        rw [trieLessThan_eq (inside right rightIn) (inside left leftIn), ← decide_not, id, id,
          Bool.eq_iff_iff, decide_eq_true_iff, decide_eq_true_iff, Nat.not_lt])
    simpa [sortBy] using mapped
  rw [byRank]
  have sorted := @List.pairwise_mergeSort _
    (fun left right => decide (trieRank trieKeys left ≤ trieRank trieKeys right))
    (fun _ _ _ first second => by
      rw [decide_eq_true_iff] at first second ⊢
      exact Nat.le_trans first second)
    (fun left right => by
      rw [Bool.or_eq_true, decide_eq_true_iff, decide_eq_true_iff]
      exact Nat.le_total _ _) ids
  exact sorted.imp decide_eq_true_iff.mp

/-- In a sorted list without equal neighbours all ranks differ. -/
theorem ascends_of_apart {rank : Nat → Nat} {repeats : Nat → Nat → Bool} {ids : List Nat}
    (sorted : ids.Pairwise fun left right => rank left ≤ rank right)
    (apart : ((ids.tail.zip ids).any fun pair => repeats pair.2 pair.1) = false)
    (exact : ∀ left ∈ ids, ∀ right ∈ ids, rank left = rank right → repeats left right = true) :
    ids.Pairwise fun left right => rank left < rank right := by
  induction ids with
  | nil => exact List.Pairwise.nil
  | cons first ids ih =>
      cases ids with
      | nil => exact List.pairwise_singleton _ _
      | cons second ids =>
          simp only [List.tail_cons, List.zip_cons_cons, List.any_cons, Bool.or_eq_false_iff] at apart
          have rest := ih sorted.of_cons apart.2 fun left leftIn right rightIn =>
            exact left (List.mem_cons_of_mem _ leftIn) right (List.mem_cons_of_mem _ rightIn)
          have differs : rank first ≠ rank second := by
            intro same
            have repeated := exact first List.mem_cons_self second
              (List.mem_cons_of_mem _ List.mem_cons_self) same
            rw [apart.1] at repeated
            cases repeated
          have less := Nat.lt_of_le_of_ne
            (List.rel_of_pairwise_cons sorted List.mem_cons_self) differs
          refine List.Pairwise.cons (fun id member => ?_) rest
          rcases List.mem_cons.mp member with rfl | later
          · exact less
          · exact Nat.lt_trans less (List.rel_of_pairwise_cons rest later)

/-- Ids whose neighbours differ in their trie keys are strictly sorted. -/
theorem strictly_sorted (inside : ∀ id ∈ ids, id < trieKeys.length)
    (passed : rejectTrieKeyCollisions trieKeys (sortBy (trieLessThan trieKeys) ids) = .ok ()) :
    (sortBy (trieLessThan trieKeys) ids).Pairwise fun left right =>
      trieLessThan trieKeys left right = true := by
  have members : ∀ id ∈ sortBy (trieLessThan trieKeys) ids, id < trieKeys.length :=
    fun id member => inside id ((List.mergeSort_perm _ _).mem_iff.mp member)
  unfold rejectTrieKeyCollisions at passed
  split at passed
  · cases passed
  · next distinct =>
      have strict := @ascends_of_apart (trieRank trieKeys)
        (fun left right => trieKeys[left]? == trieKeys[right]?) _ (sortBy_trie inside)
        (Bool.eq_false_iff.mpr distinct) (fun left leftIn right rightIn same =>
          beq_iff_eq.mpr ((trieRank_inj (members left leftIn) (members right rightIn)).mp same))
      refine (List.Pairwise.and_mem.mp strict).imp ?_
      intro left right related
      rw [trieLessThan_eq (members left related.1) (members right related.2.1), decide_eq_true_iff]
      exact related.2.2

/-- A rejected order holds two ids with one trie key. -/
theorem collision_of_rejected (unique : ids.Nodup) {error : InitError}
    (failed : rejectTrieKeyCollisions trieKeys (sortBy (trieLessThan trieKeys) ids) = .fail error) :
    error = .trieKeyCollision ∧
      ∃ left ∈ ids, ∃ right ∈ ids, left ≠ right ∧ trieKeys[left]? = trieKeys[right]? := by
  have permuted : (sortBy (trieLessThan trieKeys) ids).Perm ids := List.mergeSort_perm _ _
  unfold rejectTrieKeyCollisions at failed
  split at failed
  · next repeated =>
      cases failed
      obtain ⟨pair, member, same⟩ := List.any_eq_true.mp repeated
      obtain ⟨index, here⟩ := List.getElem?_of_mem member
      obtain ⟨later, earlier⟩ := List.getElem?_zip_eq_some.mp here
      rw [List.getElem?_tail] at later
      refine ⟨rfl, pair.2, permuted.mem_iff.mp (List.mem_of_getElem? earlier), pair.1,
        permuted.mem_iff.mp (List.mem_of_getElem? later), ?_, beq_iff_eq.mp same⟩
      intro equal
      rw [equal] at earlier
      obtain ⟨inside, held⟩ := List.getElem?_eq_some_iff.mp earlier
      obtain ⟨insideNext, heldNext⟩ := List.getElem?_eq_some_iff.mp later
      have places := ((permuted.nodup_iff.mpr unique).getElem_inj_iff).mp (held.trans heldNext.symm)
      omega
  · cases failed

/-- The ids of one range by trie key. -/
def trieWindow (trieKeys : List Hash) (range : Range) : List StorageId :=
  sortBy (trieLessThan trieKeys) (List.range' range.start range.len)

theorem trieWindow_perm (trieKeys : List Hash) (range : Range) :
    (trieWindow trieKeys range).Perm (List.range' range.start range.len) :=
  List.mergeSort_perm _ _

/-- One range is sorted where the ids before it are and those after it are in
raw order. -/
theorem sortRange_eq {plan : ClaimPlan} {sorted : List StorageId} {range : Range} {rest : Nat}
    (start : sorted.length = range.start)
    (order : plan.storageTrieOrder = sorted ++ List.range' range.start (range.len + rest)) :
    sortRange plan range =
      (rejectTrieKeyCollisions plan.storageTrieKeys (trieWindow plan.storageTrieKeys range)).bind
        fun _ => .ok { plan with
          storageTrieOrder := sorted ++ trieWindow plan.storageTrieKeys range ++
            List.range' range.stop rest } := by
  have split : plan.storageTrieOrder =
      sorted ++ (List.range' range.start range.len ++ List.range' range.stop rest) := by
    rw [order, Range.stop, List.range'_append_1]
  have before : plan.storageTrieOrder.take range.start = sorted := by
    rw [split, ← start, List.take_left]
  have window : (plan.storageTrieOrder.drop range.start).take range.len =
      List.range' range.start range.len := by
    have width : (List.range' range.start range.len).length = range.len := List.length_range'
    rw [split, ← start, List.drop_left, start]
    exact List.take_left' width
  have after : plan.storageTrieOrder.drop range.stop = List.range' range.stop rest := by
    rw [split, ← List.append_assoc]
    apply List.drop_left'
    rw [List.length_append, start, List.length_range', Range.stop]
  rw [sortRange, before, window, after]
  rfl

/-- Sorting range after range either sorts every window or stops at a window
with two equal trie keys. -/
theorem sortRanges_outcome {plan : ClaimPlan} {sorted : List StorageId}
    {accounts : List AccountChanges}
    (order : plan.storageTrieOrder = sorted ++
      List.range' sorted.length (accounts.flatMap AccountChanges.declared).length) :
    ((rangesFrom sorted.length accounts).foldlM sortRange plan = .ok { plan with
        storageTrieOrder := sorted ++
          (rangesFrom sorted.length accounts).flatMap (trieWindow plan.storageTrieKeys) } ∧
      ∀ range ∈ rangesFrom sorted.length accounts,
        rejectTrieKeyCollisions plan.storageTrieKeys (trieWindow plan.storageTrieKeys range) =
          .ok ()) ∨
    ∃ error, ∃ range ∈ rangesFrom sorted.length accounts,
      (rangesFrom sorted.length accounts).foldlM sortRange plan = .fail error ∧
        rejectTrieKeyCollisions plan.storageTrieKeys (trieWindow plan.storageTrieKeys range) =
          .fail error := by
  induction accounts generalizing plan sorted with
  | nil =>
      left
      simp only [rangesFrom, List.foldlM_nil, List.flatMap_nil, List.append_nil, List.not_mem_nil,
        false_implies, implies_true, and_true]
      simp only [List.flatMap_nil, List.length_nil, List.range'_zero, List.append_nil] at order
      rw [← order]
      rfl
  | cons account accounts ih =>
      have range : ∃ range : Range, range = ⟨sorted.length, account.declared.length⟩ := ⟨_, rfl⟩
      obtain ⟨range, rangeEq⟩ := range
      have step := @sortRange_eq plan sorted range
        (accounts.flatMap AccountChanges.declared).length (by rw [rangeEq])
        (by rw [order, rangeEq, List.flatMap_cons, List.length_append])
      rw [rangesFrom, ← rangeEq, List.foldlM_cons, step]
      cases checked : rejectTrieKeyCollisions plan.storageTrieKeys
          (trieWindow plan.storageTrieKeys range) with
      | illegal =>
          unfold rejectTrieKeyCollisions at checked
          split at checked <;> cases checked
      | fail error =>
          right
          exact ⟨error, range, List.mem_cons_self, rfl, checked⟩
      | ok _ =>
          have width : (sorted ++ trieWindow plan.storageTrieKeys range).length =
              sorted.length + account.declared.length := by
            rw [List.length_append, (trieWindow_perm _ _).length_eq, List.length_range', rangeEq]
          have later := @ih { plan with
              storageTrieOrder := sorted ++ trieWindow plan.storageTrieKeys range ++
                List.range' range.stop (accounts.flatMap AccountChanges.declared).length }
            (sorted ++ trieWindow plan.storageTrieKeys range)
            (by rw [width, rangeEq]; rfl)
          rw [width] at later
          rcases later with ⟨ran, passed⟩ | ⟨error, bad, member, ran, failed⟩
          · left
            constructor
            · refine Eq.trans ran ?_
              simp only [List.flatMap_cons, List.append_assoc]
            · intro other member
              rcases List.mem_cons.mp member with rfl | rest
              · exact checked
              · exact passed other rest
          · right
            exact ⟨error, bad, List.mem_cons_of_mem _ member, ran, failed⟩

/-! ## The finished plan -/

/-- What a plan of `claim` holds and answers. -/
structure ClaimPlan.Indexes (keccak256 : List UInt8 → Hash) (claim : List AccountChanges)
    (plan : ClaimPlan) : Prop where
  /-- Account ids are the positions of the list. -/
  accountCount : plan.accountCount = claim.length
  accountIdWord : ∀ target id, plan.accountIdWord target = some id ↔
    ∃ account, claim[id]? = some account ∧ AddressWord.fromAddress account.address = target
  accountTrieKeys : plan.accountTrieKeys =
    claim.map fun account => hashedAddressKey keccak256 account.address
  /-- The window of an account holds its declared slots in ascending order. -/
  storageWindow : ∀ id account, claim[id]? = some account →
    ∃ window, plan.storageWindow id = some window ∧ window.Pairwise (· < ·) ∧
      ∀ slot, slot ∈ window ↔
        (∃ change ∈ account.storageChanges, change.slot = slot) ∨ slot ∈ account.storageReads
  /-- Just the declared slots have an id, and it belongs to that account and slot. -/
  storageId : ∀ id account slot, claim[id]? = some account →
    ∃ found, plan.storageId id slot = some found ∧
      (found.isSome ↔
        (∃ change ∈ account.storageChanges, change.slot = slot) ∨ slot ∈ account.storageReads) ∧
      ∀ storage, found = some storage ↔
        plan.storageAccounts[storage]? = some id ∧ plan.storageSlots[storage]? = some slot
  storageAccounts : plan.storageAccounts.length = plan.storageCount ∧
    ∀ id ∈ plan.storageAccounts, id < claim.length
  storageTrieKeys : plan.storageTrieKeys = plan.storageSlots.map (hashedStorageKey keccak256)
  /-- The ranges follow one another and use up the ids. -/
  ranges : plan.accountStorageRanges = rangesFrom 0 claim ∧
    plan.storageCount = (claim.flatMap AccountChanges.declared).length
  accountTrieOrder : plan.accountTrieOrder.Perm (List.range claim.length) ∧
    plan.accountTrieOrder.Pairwise fun left right =>
      trieLessThan plan.accountTrieKeys left right = true
  storageTrieOrder : ∀ id range, plan.accountStorageRange id = some range →
    ∃ window, plan.storageTrieWindow id = some window ∧
      window.Perm (List.range' range.start range.len) ∧
      window.Pairwise fun left right => trieLessThan plan.storageTrieKeys left right = true

/-- The plan that the initialiser builds when no trie keys collide. -/
def planOf (keccak256 : List UInt8 → Hash) (claim : List AccountChanges) : ClaimPlan :=
  let filled := columns keccak256 claim
  { filled with
    accountTrieOrder := sortBy (trieLessThan filled.accountTrieKeys) (List.range claim.length)
    storageTrieOrder := (rangesFrom 0 claim).flatMap (trieWindow filled.storageTrieKeys) }

section Split

variable {claim : List AccountChanges} {id : Nat} {account : AccountChanges}

/-- The first storage id of an account. -/
def slotStart (claim : List AccountChanges) (id : Nat) : Nat :=
  ((claim.take id).flatMap AccountChanges.declared).length

theorem split_at (found : claim[id]? = some account) :
    claim = claim.take id ++ account :: claim.drop (id + 1) ∧ (claim.take id).length = id := by
  obtain ⟨inside, rfl⟩ := List.getElem?_eq_some_iff.mp found
  constructor
  · rw [← List.drop_eq_getElem_cons inside, List.take_append_drop]
  · exact List.length_take_of_le (Nat.le_of_lt inside)

theorem rangesFrom_at (found : claim[id]? = some account) :
    (rangesFrom 0 claim)[id]? = some ⟨slotStart claim id, account.declared.length⟩ := by
  obtain ⟨split, width⟩ := split_at found
  have before : (rangesFrom 0 (claim.take id)).length = id := by rw [rangesFrom_length, width]
  conv_lhs => rw [split, rangesFrom_append]
  rw [List.getElem?_append_right (by omega), before, Nat.sub_self, rangesFrom, Nat.zero_add]
  rfl

theorem slots_split (found : claim[id]? = some account) :
    ∃ before after, claim.flatMap AccountChanges.declared = before ++ (account.declared ++ after) ∧
      before.length = slotStart claim id := by
  obtain ⟨split, -⟩ := split_at found
  refine ⟨(claim.take id).flatMap AccountChanges.declared,
    (claim.drop (id + 1)).flatMap AccountChanges.declared, ?_, rfl⟩
  conv_lhs => rw [split, List.flatMap_append, List.flatMap_cons]

theorem slots_window (found : claim[id]? = some account) :
    ((claim.flatMap AccountChanges.declared).drop (slotStart claim id)).take
      account.declared.length = account.declared := by
  obtain ⟨before, after, split, width⟩ := slots_split found
  rw [split, ← width, List.drop_left, List.take_left]

theorem slots_at (found : claim[id]? = some account) {offset : Nat}
    (inside : offset < account.declared.length) :
    (claim.flatMap AccountChanges.declared)[slotStart claim id + offset]? =
      account.declared[offset]? := by
  obtain ⟨before, after, split, width⟩ := slots_split found
  rw [split, ← width, List.getElem?_append_right (Nat.le_add_right _ _), Nat.add_sub_cancel_left,
    List.getElem?_append_left inside]

/-- The owner column names an account just inside its range. -/
theorem owners_at (found : claim[id]? = some account) {storage : Nat} :
    (ownersFrom 0 claim)[storage]? = some id ↔
      slotStart claim id ≤ storage ∧ storage < slotStart claim id + account.declared.length := by
  obtain ⟨split, width⟩ := split_at found
  have owners : ownersFrom 0 claim = ownersFrom 0 (claim.take id) ++
      (List.replicate account.declared.length id ++ ownersFrom (id + 1) (claim.drop (id + 1))) := by
    conv_lhs => rw [split, ownersFrom_append, width, Nat.zero_add, ownersFrom]
  have start : (ownersFrom 0 (claim.take id)).length = slotStart claim id :=
    ownersFrom_length 0 (claim.take id)
  rw [owners]
  rcases Nat.lt_or_ge storage (slotStart claim id) with early | late
  · rw [List.getElem?_append_left (by omega)]
    constructor
    · intro here
      have bounds := mem_ownersFrom (List.mem_of_getElem? here)
      omega
    · omega
  · rw [List.getElem?_append_right (by omega), start]
    rcases Nat.lt_or_ge (storage - slotStart claim id) account.declared.length with inside | outside
    · rw [List.getElem?_append_left (by rwa [List.length_replicate]), List.getElem?_replicate,
        if_pos inside]
      simp only [true_iff]
      omega
    · rw [List.getElem?_append_right (by rwa [List.length_replicate]), List.length_replicate]
      constructor
      · intro here
        have bounds := mem_ownersFrom (List.mem_of_getElem? here)
        omega
      · omega

end Split

theorem mem_rangesFrom {start index : Nat}
    (found : (rangesFrom start accounts)[index]? = some range) : start ≤ range.start ∧
      range.stop ≤ start + (accounts.flatMap AccountChanges.declared).length := by
  induction accounts generalizing start index with
  | nil => cases found
  | cons account accounts ih =>
      rw [List.flatMap_cons, List.length_append]
      cases index with
      | zero =>
          cases found
          exact ⟨Nat.le_refl _, by simp only [Range.stop]; omega⟩
      | succ index =>
          have bounds := ih found
          omega

/-- The window of a range in the finished order is that range, sorted. -/
theorem trieWindows_at (trieKeys : List Hash) {start index : Nat}
    (found : (rangesFrom start accounts)[index]? = some range) :
    (((rangesFrom start accounts).flatMap (trieWindow trieKeys)).drop
      (range.start - start)).take range.len = trieWindow trieKeys range := by
  induction accounts generalizing start index with
  | nil => cases found
  | cons account accounts ih =>
      rw [rangesFrom, List.flatMap_cons]
      have width : (trieWindow trieKeys ⟨start, account.declared.length⟩).length =
          account.declared.length := by
        rw [(trieWindow_perm _ _).length_eq, List.length_range']
      cases index with
      | zero =>
          cases found
          rw [Nat.sub_self, List.drop_zero]
          exact List.take_left' width
      | succ index =>
          have later : (rangesFrom (start + account.declared.length) accounts)[index]? =
              some range := found
          have beyond := (mem_rangesFrom later).1
          have skipped : range.start - start = account.declared.length +
              (range.start - (start + account.declared.length)) := by omega
          rw [skipped, ← List.drop_drop, List.drop_left' width]
          exact ih later

section Finished

variable (keccak256 : List UInt8 → Hash) {claim : List AccountChanges}

theorem planOf_accountIdWord
    (ascends : claim.Pairwise fun left right =>
      (AddressWord.fromAddress left.address).value <
        (AddressWord.fromAddress right.address).value)
    (target : AddressWord) (id : AccountId) :
    (planOf keccak256 claim).accountIdWord target = some id ↔
      ∃ account, claim[id]? = some account ∧ AddressWord.fromAddress account.address = target := by
  have byValue : (fun item : AddressWord => target.order item) =
      fun item => compare target.value item.value :=
    funext fun item => AddressWord.order_eq_compare target item
  have words : ((planOf keccak256 claim).accountAddresses).Pairwise fun left right =>
      left.value < right.value := List.pairwise_map.mpr ascends
  rw [ClaimPlan.accountIdWord, byValue, Lib.binarySearch_compare_eq_some words]
  constructor
  · intro found
    obtain ⟨word, here, same⟩ := found
    obtain ⟨account, held, rfl⟩ := List.getElem?_map .. ▸ here |> Option.map_eq_some_iff.mp
    exact ⟨account, held, AddressWord.value_inj same⟩
  · intro found
    obtain ⟨account, held, rfl⟩ := found
    exact ⟨_, by rw [planOf, columns, List.getElem?_map, held]; rfl, rfl⟩

theorem planOf_storageId {id : Nat} (ordered : account.Ordered) (found : claim[id]? = some account)
    (slot : U256) : ∃ result, (planOf keccak256 claim).storageId id slot = some result ∧
      (result.isSome ↔ slot ∈ account.declared) ∧
      ∀ storage, result = some storage ↔
        (planOf keccak256 claim).storageAccounts[storage]? = some id ∧
          (planOf keccak256 claim).storageSlots[storage]? = some slot := by
  have range : (planOf keccak256 claim).accountStorageRange id =
      some ⟨slotStart claim id, account.declared.length⟩ := rangesFrom_at found
  have window : ((planOf keccak256 claim).storageSlots.drop (slotStart claim id)).take
      account.declared.length = account.declared := slots_window found
  have searched := @Lib.binarySearch_compare_eq_some U256 U256 _ (fun item => item) slot
    account.declared ordered.declared_ascends
  have answer : (planOf keccak256 claim).storageId id slot =
      some ((Lib.binarySearch (fun item => compare slot item) account.declared).map fun offset =>
        slotStart claim id + offset) := by
    rw [ClaimPlan.storageId, range]
    exact congrArg (fun items => some ((Lib.binarySearch (fun item => compare slot item) items).map
      fun offset => slotStart claim id + offset)) window
  refine ⟨_, answer, ?_, ?_⟩
  · rw [Option.isSome_map, Option.isSome_iff_exists, List.mem_iff_getElem?]
    apply exists_congr
    intro offset
    rw [searched]
    simp
  intro storage
  have owners : (planOf keccak256 claim).storageAccounts = ownersFrom 0 claim := rfl
  rw [Option.map_eq_some_iff, owners, owners_at found]
  constructor
  · intro located
    obtain ⟨offset, offsetFound, rfl⟩ := located
    obtain ⟨item, here, rfl⟩ := searched.mp offsetFound
    have inside := (List.getElem?_eq_some_iff.mp here).1
    exact ⟨⟨Nat.le_add_right _ _, by omega⟩, (slots_at found inside).trans here⟩
  · intro held
    obtain ⟨⟨lower, upper⟩, here⟩ := held
    refine ⟨storage - slotStart claim id, searched.mpr ⟨slot, ?_, rfl⟩, Nat.add_sub_cancel' lower⟩
    rw [← slots_at found (by omega), Nat.add_sub_cancel' lower]
    exact here

/-- The plan of an ascending list indexes it, once both orders passed their
collision checks. -/
theorem planOf_indexes
    (ascends : claim.Pairwise fun left right =>
      (AddressWord.fromAddress left.address).value <
        (AddressWord.fromAddress right.address).value)
    (ordered : ∀ account ∈ claim, account.Ordered)
    (accountsPassed : rejectTrieKeyCollisions (columns keccak256 claim).accountTrieKeys
      (sortBy (trieLessThan (columns keccak256 claim).accountTrieKeys)
        (List.range claim.length)) = .ok ())
    (rangesPassed : ∀ range ∈ rangesFrom 0 claim,
      rejectTrieKeyCollisions (columns keccak256 claim).storageTrieKeys
        (trieWindow (columns keccak256 claim).storageTrieKeys range) = .ok ()) :
    (planOf keccak256 claim).Indexes keccak256 claim where
  accountCount := List.length_map _
  accountIdWord := planOf_accountIdWord keccak256 ascends
  accountTrieKeys := rfl
  storageWindow := by
    intro id account found
    have range : (planOf keccak256 claim).accountStorageRange id =
        some ⟨slotStart claim id, account.declared.length⟩ := rangesFrom_at found
    refine ⟨account.declared, ?_, (ordered _ (List.mem_of_getElem? found)).declared_ascends,
      fun slot => AccountChanges.mem_declared⟩
    rw [ClaimPlan.storageWindow, range]
    exact congrArg some (slots_window found)
  storageId := by
    intro id account slot found
    obtain ⟨result, answer, declared, exact⟩ :=
      planOf_storageId keccak256 (ordered _ (List.mem_of_getElem? found)) found slot
    exact ⟨result, answer, declared.trans AccountChanges.mem_declared, exact⟩
  storageAccounts := by
    constructor
    · exact ownersFrom_length 0 claim
    · intro id member
      exact Nat.zero_add claim.length ▸ (mem_ownersFrom member).2
  storageTrieKeys := rfl
  ranges := ⟨rfl, rfl⟩
  accountTrieOrder := by
    constructor
    · exact List.mergeSort_perm _ _
    · apply strictly_sorted _ accountsPassed
      intro id member
      rw [columns, List.length_map]
      exact List.mem_range.mp member
  storageTrieOrder := by
    intro id range rangeEq
    have member := List.mem_of_getElem? rangeEq
    refine ⟨trieWindow (columns keccak256 claim).storageTrieKeys range, ?_, trieWindow_perm _ _, ?_⟩
    · rw [ClaimPlan.storageTrieWindow, rangeEq]
      have window := trieWindows_at (columns keccak256 claim).storageTrieKeys rangeEq
      rw [Nat.sub_zero] at window
      exact congrArg some window
    · apply strictly_sorted _ (rangesPassed range member)
      intro storage held
      have bounds := (mem_rangesFrom rangeEq).2
      have member := List.mem_range'_1.mp held
      rw [columns, List.length_map]
      rw [Range.stop] at bounds
      omega

end Finished

/-- Sorting the filled columns. -/
def sortColumns (keccak256 : List UInt8 → Hash) (claim : List AccountChanges) :
    Checked InitError ClaimPlan := do
  let plan ← sortAccounts (columns keccak256 claim)
  plan.accountStorageRanges.foldlM sortRange plan

theorem initAssumeValidated_sorts (keccak256 : List UInt8 → Hash)
    (granted : storageCountOf claim = .ok (claim.flatMap AccountChanges.declared).length)
    (ascends : claim.Pairwise fun left right => (AddressWord.fromAddress left.address).value <
      (AddressWord.fromAddress right.address).value) :
    initAssumeValidated keccak256 claim = sortColumns keccak256 claim := by
  have filled := @addAccounts_eq keccak256 _ [] claim (Nat.le_refl _) ascends
  have start : columns keccak256 [] = {} := rfl
  rw [start, List.nil_append] at filled
  have exact : assert ((columns keccak256 claim).storageSlots.length =
      (claim.flatMap AccountChanges.declared).length) = some () := assert_true rfl
  rw [initAssumeValidated, granted]
  simp only [Checked.ok_bind, filled, Checked.ofOption, exact]
  rfl

theorem accounts_collide (keccak256 : List UInt8 → Hash)
    (ascends : claim.Pairwise fun left right => (AddressWord.fromAddress left.address).value <
      (AddressWord.fromAddress right.address).value)
    (leftIn : left < claim.length) (rightIn : right < claim.length) (differs : left ≠ right)
    (same : (columns keccak256 claim).accountTrieKeys[left]? =
      (columns keccak256 claim).accountTrieKeys[right]?) :
    ∃ left ∈ claim, ∃ right ∈ claim, left.address ≠ right.address ∧
      hashedAddressKey keccak256 left.address = hashedAddressKey keccak256 right.address := by
  refine ⟨claim[left], List.getElem_mem leftIn, claim[right], List.getElem_mem rightIn, ?_, ?_⟩
  · intro equal
    have order := List.pairwise_iff_getElem.mp ascends
    rcases Nat.lt_or_gt_of_ne differs with before | after
    · have less := order left right leftIn rightIn before
      rw [equal] at less
      exact lt_irrefl _ less
    · have less := order right left rightIn leftIn after
      rw [equal] at less
      exact lt_irrefl _ less
  · simpa [columns, leftIn, rightIn] using same

theorem slots_collide (keccak256 : List UInt8 → Hash) (ordered : ∀ account ∈ claim, account.Ordered)
    (member : range ∈ rangesFrom 0 claim) (leftIn : left ∈ List.range' range.start range.len)
    (rightIn : right ∈ List.range' range.start range.len) (differs : left ≠ right)
    (same : (columns keccak256 claim).storageTrieKeys[left]? =
      (columns keccak256 claim).storageTrieKeys[right]?) :
    ∃ account ∈ claim, ∃ left ∈ account.declared, ∃ right ∈ account.declared,
      left ≠ right ∧ hashedStorageKey keccak256 left = hashedStorageKey keccak256 right := by
  obtain ⟨id, rangeAt⟩ := List.getElem?_of_mem member
  have idIn : id < claim.length := by
    rw [← rangesFrom_length 0 claim]
    exact (List.getElem?_eq_some_iff.mp rangeAt).1
  have found : claim[id]? = some claim[id] := List.getElem?_eq_getElem idIn
  have rangeEq := (rangesFrom_at found).symm.trans rangeAt
  cases rangeEq
  obtain ⟨leftLower, leftUpper⟩ := List.mem_range'_1.mp leftIn
  obtain ⟨rightLower, rightUpper⟩ := List.mem_range'_1.mp rightIn
  dsimp only at leftLower leftUpper rightLower rightUpper
  have leftHere : left - slotStart claim id < claim[id].declared.length := by omega
  have rightHere : right - slotStart claim id < claim[id].declared.length := by omega
  have leftAt := slots_at found leftHere
  have rightAt := slots_at found rightHere
  rw [Nat.add_sub_cancel' leftLower, List.getElem?_eq_getElem leftHere] at leftAt
  rw [Nat.add_sub_cancel' rightLower, List.getElem?_eq_getElem rightHere] at rightAt
  refine ⟨claim[id], List.getElem_mem idIn, _, List.getElem_mem leftHere, _,
    List.getElem_mem rightHere, ?_, ?_⟩
  · intro equal
    have unique : claim[id].declared.Nodup :=
      (ordered _ (List.getElem_mem idIn)).declared_ascends.imp ne_of_lt
    have places := unique.getElem_inj_iff.mp equal
    omega
  · rw [columns] at same
    dsimp only at same
    rw [List.getElem?_map, List.getElem?_map, leftAt, rightAt] at same
    exact Option.some.inj same

/-- The two outcomes of sorting the columns of an ascending list. -/
theorem sortColumns_indexes (keccak256 : List UInt8 → Hash)
    (ascends : claim.Pairwise fun left right => (AddressWord.fromAddress left.address).value <
      (AddressWord.fromAddress right.address).value)
    (ordered : ∀ account ∈ claim, account.Ordered) :
    (∃ plan, sortColumns keccak256 claim = .ok plan ∧ plan.Indexes keccak256 claim) ∨
    (sortColumns keccak256 claim = .fail .trieKeyCollision ∧
      ((∃ left ∈ claim, ∃ right ∈ claim, left.address ≠ right.address ∧
          hashedAddressKey keccak256 left.address = hashedAddressKey keccak256 right.address) ∨
        ∃ account ∈ claim, ∃ left ∈ account.declared, ∃ right ∈ account.declared,
          left ≠ right ∧ hashedStorageKey keccak256 left = hashedStorageKey keccak256 right)) := by
  let trieKeys := (columns keccak256 claim).accountTrieKeys
  have sorts : sortColumns keccak256 claim =
      (rejectTrieKeyCollisions trieKeys
        (sortBy (trieLessThan trieKeys) (List.range claim.length))).bind fun _ =>
          (rangesFrom 0 claim).foldlM sortRange { columns keccak256 claim with
            accountTrieOrder := sortBy (trieLessThan trieKeys) (List.range claim.length) } :=
    bind_assoc (m := Checked InitError) _ _ _
  cases checked : rejectTrieKeyCollisions trieKeys
      (sortBy (trieLessThan trieKeys) (List.range claim.length)) with
  | illegal =>
      unfold rejectTrieKeyCollisions at checked
      split at checked <;> cases checked
  | fail error =>
      right
      obtain ⟨rfl, left, leftIn, right, rightIn, differs, same⟩ :=
        collision_of_rejected List.nodup_range checked
      refine ⟨by rw [sorts, checked]; rfl, .inl ?_⟩
      exact accounts_collide keccak256 ascends (List.mem_range.mp leftIn) (List.mem_range.mp rightIn)
        differs same
  | ok _ =>
      have outcome := @sortRanges_outcome { columns keccak256 claim with
          accountTrieOrder := sortBy (trieLessThan trieKeys) (List.range claim.length) }
        [] claim List.range_eq_range'
      rcases outcome with ⟨ran, passed⟩ | ⟨error, range, member, ran, failed⟩
      · left
        refine ⟨planOf keccak256 claim, ?_, planOf_indexes keccak256 ascends ordered checked passed⟩
        rw [sorts, checked]
        exact ran
      · right
        obtain ⟨rfl, left, leftIn, right, rightIn, differs, same⟩ :=
          collision_of_rejected List.nodup_range' failed
        refine ⟨by rw [sorts, checked]; exact ran, .inr ?_⟩
        exact slots_collide keccak256 ordered member leftIn rightIn differs same

/-- What building a plan over `claim` may come to: a plan that indexes it, or one
of the two errors with its cause; only an overflow of the counts stops it
otherwise. -/
def InitOutcome (keccak256 : List UInt8 → Hash) (claim : List AccountChanges) :
    Checked InitError ClaimPlan → Prop
  | .ok plan => plan.Indexes keccak256 claim
  | .fail .resourceLimitExceeded =>
      claim.length > maxId ∨ (claim.flatMap AccountChanges.declared).length > maxId
  | .fail .trieKeyCollision =>
      (∃ left ∈ claim, ∃ right ∈ claim, left.address ≠ right.address ∧
        hashedAddressKey keccak256 left.address = hashedAddressKey keccak256 right.address) ∨
      ∃ account ∈ claim, ∃ left ∈ account.declared, ∃ right ∈ account.declared,
        left ≠ right ∧ hashedStorageKey keccak256 left = hashedStorageKey keccak256 right
  | .illegal => count claim = none

theorem initAssumeValidated_indexes (keccak256 : List UInt8 → Hash)
    (claim : List AccountChanges) (options : ValidationOptions)
    (validated : validate claim options = .ok ()) :
    InitOutcome keccak256 claim (initAssumeValidated keccak256 claim) := by
  have ascends := validate_ascends validated
  have ordered := validate_ordered validated
  cases counted : count claim with
  | none =>
      have stopped : initAssumeValidated keccak256 claim = .illegal := by
        rw [initAssumeValidated, storageCountOf, counted]
        rfl
      rw [stopped]
      exact counted
  | some counts =>
      have total := count_keys counted
      by_cases fits : counts.storageReadKeys + counts.storageWriteKeys ≤ usizeMax
      · by_cases small : claim.length > maxId ∨
            counts.storageReadKeys + counts.storageWriteKeys > maxId
        · have refused : storageCountOf claim = .fail .resourceLimitExceeded := by
            rw [storageCountOf, counted]
            simp only [Checked.ofOption, Checked.ok_bind, addUsize_eq fits, if_pos small]
          rw [initAssumeValidated, refused]
          rw [total] at small
          exact small
        · have granted : storageCountOf claim =
              .ok (claim.flatMap AccountChanges.declared).length := by
            rw [storageCountOf, counted]
            simp only [Checked.ofOption, Checked.ok_bind, addUsize_eq fits, total]
            exact if_neg (total ▸ small)
          rw [initAssumeValidated_sorts keccak256 granted ascends]
          rcases sortColumns_indexes keccak256 ascends ordered with built | failed
          · obtain ⟨plan, planEq, indexes⟩ := built
            rw [planEq]
            exact indexes
          · rw [failed.1]
            exact failed.2
      · have refused : storageCountOf claim = .fail .resourceLimitExceeded := by
          rw [storageCountOf, counted]
          simp only [Checked.ofOption, Checked.ok_bind, addUsize, if_neg fits]
        rw [initAssumeValidated, refused]
        right
        rw [← total]
        exact Nat.lt_of_le_of_lt (by decide) (Nat.lt_of_not_le fits)

/-- One account with a slot written and another one read. -/
def sampleClaim : List AccountChanges :=
  [⟨⟨List.replicate 20 1, length_ones⟩, [⟨9, [⟨1, 7⟩]⟩], [3], [], [], []⟩]

def sampleHash (bytes : List UInt8) : Hash :=
  ⟨(bytes ++ List.replicate 32 0).take 32, by simp⟩

theorem initAssumeValidated_indexes_sample :
    InitOutcome sampleHash sampleClaim (initAssumeValidated sampleHash sampleClaim) :=
  initAssumeValidated_indexes sampleHash sampleClaim { transactionCount := some 1 }
    (by decide +kernel)

end EvmZig.Bal
