import EvmZig.Bal.CanonicalLists

/-!
# Folding shards (`eth/bal/shard_fold.zig`)

Whatever order the shards come in, an account collects the same entries, and
the canonical list depends on the entries alone.  Shards with indices of their
own are always united; two that change one field at one index never are.
-/

set_option autoImplicit false

namespace EvmZig.Bal

open Zig

variable {field : AccountField} {list : List AccountChanges}

/-! ## Shards -/

/-- A transition with its index; its entries are unique. -/
structure ObservationShard where
  transition : LaneTransition
  blockAccessIndex : BlockAccessIndex
  accounts : (transition.accounts.map AccountObservation.address).Nodup
  slots : ∀ account ∈ transition.accounts, (account.storage.map StorageObservation.slot).Nodup

namespace ObservationShard

variable (shard : ObservationShard) (address : Address)

def Observes : Prop := ∃ account ∈ shard.transition.accounts, account.address = address

/-- The shard has a storage entry for the slot. -/
def Touches (slot : U256) : Prop :=
  ∃ account ∈ shard.transition.accounts, account.address = address ∧
    ∃ observed ∈ account.storage, observed.slot = slot

/-- The entry is not a read. -/
def Writes (slot value : U256) : Prop :=
  ∃ account ∈ shard.transition.accounts, account.address = address ∧
    ∃ observed ∈ account.storage, storageIsRead account.storageWiped observed.original
      observed.current = false ∧
      observed.slot = slot ∧ observed.current = value

def SetsBalance (value : U256) : Prop :=
  ∃ account ∈ shard.transition.accounts, account.address = address ∧
    ∃ balance ∈ account.balance, balance.original ≠ balance.current ∧ balance.current = value

def SetsNonce (value : U64) : Prop :=
  ∃ account ∈ shard.transition.accounts, account.address = address ∧
    ∃ nonce ∈ account.nonce, nonce.original ≠ nonce.current ∧ nonce.current = value

def SetsCode (code : Slice) : Prop :=
  ∃ account ∈ shard.transition.accounts, account.address = address ∧
    ∃ observed ∈ account.code, observed.originalHash ≠ observed.currentHash ∧ observed.currentCode = code

/-- The shard records a change of the field. -/
def Changes : AccountField → Prop
  | .storage slot => ∃ value, shard.Writes address slot value
  | .balance => ∃ value, shard.SetsBalance address value
  | .nonce => ∃ value, shard.SetsNonce address value
  | .code => ∃ code, shard.SetsCode address code

theorem Changes.observes {shard : ObservationShard} {address : Address}
    (changes : shard.Changes address field) : shard.Observes address := by
  cases field
  all_goals
    obtain ⟨value, account, member, here, -⟩ := changes
    exact ⟨account, member, here⟩

end ObservationShard

def ShardFold.appendShard (fold : ShardFold) (shard : ObservationShard) : Except FoldError ShardFold :=
  shard.transition.accounts.foldlM (fun fold account => do
    let appended := fold.appendObservation account shard.blockAccessIndex
    appended.2
    return appended.1) fold

/-- Shards appended one after the other, then finished. -/
def finishShards (shards : List ObservationShard) : Except FoldError (List AccountChanges) := do
  let fold ← shards.foldlM ShardFold.appendShard ShardFold.init
  fold.finish.2

/-! ## What an entry adds to its account -/

variable {shards others : List ObservationShard}

/-- An observation and its index. -/
abbrev Entry : Type := BlockAccessIndex × AccountObservation

namespace FoldAccount

def writes (entry : Entry) : List FoldStorageChange :=
  (entry.2.storage.filter fun slot => !storageIsRead entry.2.storageWiped slot.original slot.current).map
    fun slot => ⟨slot.slot, entry.1, slot.current⟩

def reads (entry : Entry) : List U256 :=
  (entry.2.storage.filter fun slot => storageIsRead entry.2.storageWiped slot.original slot.current).map
    StorageObservation.slot

def balances (entry : Entry) : List BalanceChange :=
  (entry.2.balance.toList.filter fun balance => balance.original ≠ balance.current).map
    fun balance => ⟨entry.1, balance.current⟩

def nonces (entry : Entry) : List NonceChange :=
  (entry.2.nonce.toList.filter fun nonce => nonce.original ≠ nonce.current).map
    fun nonce => ⟨entry.1, nonce.current⟩

def codes (entry : Entry) : List CodeChange :=
  (entry.2.code.toList.filter fun code => code.originalHash ≠ code.currentHash).map
    fun code => ⟨entry.1, code.currentCode⟩

theorem foldl_appendStorage (wiped : Bool) (index : BlockAccessIndex) (slots : List StorageObservation)
    (fold : FoldAccount) :
    slots.foldl (appendStorage wiped index) fold = { fold with
      storageChanges := fold.storageChanges ++
        (slots.filter fun slot => !storageIsRead wiped slot.original slot.current).map
          fun slot => ⟨slot.slot, index, slot.current⟩
      storageReads := fold.storageReads ++
        (slots.filter fun slot => storageIsRead wiped slot.original slot.current).map
          StorageObservation.slot } := by
  induction slots generalizing fold with
  | nil => simp
  | cons slot slots ih =>
      rw [List.foldl_cons, ih, appendStorage]
      cases read : storageIsRead wiped slot.original slot.current <;> simp [read]

theorem appendBalance_eq (fold : FoldAccount) (entry : Entry) :
    (entry.2.balance.elim fold fun balance => appendBalance entry.1 balance fold) =
      { fold with balanceChanges := fold.balanceChanges ++ balances entry } := by
  rw [balances]
  cases entry.2.balance with
  | none => simp
  | some balance => by_cases same : balance.original = balance.current <;> simp [appendBalance, same]

theorem appendNonce_eq (fold : FoldAccount) (entry : Entry) :
    (entry.2.nonce.elim fold fun nonce => appendNonce entry.1 nonce fold) =
      { fold with nonceChanges := fold.nonceChanges ++ nonces entry } := by
  rw [nonces]
  cases entry.2.nonce with
  | none => simp
  | some nonce => by_cases same : nonce.original = nonce.current <;> simp [appendNonce, same]

theorem appendCode_eq (fold : FoldAccount) (entry : Entry) :
    (entry.2.code.elim fold fun code => appendCode entry.1 code fold) =
      { fold with codeChanges := fold.codeChanges ++ codes entry } := by
  rw [codes]
  cases entry.2.code with
  | none => simp
  | some code => by_cases same : code.originalHash = code.currentHash <;> simp [appendCode, same]

theorem appendObservation_eq (fold : FoldAccount) (entry : Entry) :
    fold.appendObservation entry.2 entry.1 =
      ⟨fold.storageChanges ++ writes entry, fold.storageReads ++ reads entry,
        fold.balanceChanges ++ balances entry, fold.nonceChanges ++ nonces entry,
        fold.codeChanges ++ codes entry⟩ := by
  rw [appendObservation, foldl_appendStorage]
  rw [appendBalance_eq, appendNonce_eq, appendCode_eq]
  rfl

/-- The entries of an account, appended in their order. -/
def gathered (entries : List Entry) (fold : FoldAccount) : FoldAccount :=
  entries.foldl (fun fold entry => fold.appendObservation entry.2 entry.1) fold

theorem gathered_eq (entries : List Entry) (fold : FoldAccount) :
    gathered entries fold =
      ⟨fold.storageChanges ++ entries.flatMap writes, fold.storageReads ++ entries.flatMap reads,
        fold.balanceChanges ++ entries.flatMap balances, fold.nonceChanges ++ entries.flatMap nonces,
        fold.codeChanges ++ entries.flatMap codes⟩ := by
  induction entries generalizing fold with
  | nil => simp [gathered]
  | cons entry entries ih =>
      rw [gathered, List.foldl_cons, ← gathered, ih, appendObservation_eq]
      simp

end FoldAccount

/-! ## The accounts of the fold -/

/-- Entry by entry, what a shard brings. -/
def ObservationShard.entries (shard : ObservationShard) : List Entry :=
  shard.transition.accounts.map (shard.blockAccessIndex, ·)

/-- The entries of one account, over all shards. -/
def entriesAt (shards : List ObservationShard) (address : Address) : List Entry :=
  (shards.flatMap ObservationShard.entries).filter fun entry => entry.2.address = address

namespace ShardFold

def putEntry (fold : ShardFold) (entry : Entry) : ShardFold :=
  { fold with
    accounts := fold.accounts.put entry.2.address
      ((fold.accountFor entry.2.address).appendObservation entry.2 entry.1) }

theorem appendShard_eq {fold : ShardFold} (building : fold.lifecycle = .building)
    (shard : ObservationShard) :
    fold.appendShard shard = .ok (shard.entries.foldl putEntry fold) ∧
      (shard.entries.foldl putEntry fold).lifecycle = .building := by
  rw [appendShard, ObservationShard.entries, List.foldl_map]
  induction shard.transition.accounts generalizing fold with
  | nil => exact ⟨rfl, building⟩
  | cons account accounts ih =>
      have live : closed fold.lifecycle = none := by
        rw [building]
        rfl
      have appended : fold.appendObservation account shard.blockAccessIndex =
          (fold.putEntry (shard.blockAccessIndex, account), .ok ()) := by
        rw [appendObservation, live]
        rfl
      rw [List.foldlM_cons, appended]
      exact @ih (fold.putEntry (shard.blockAccessIndex, account)) building

theorem foldlM_appendShard {fold : ShardFold} (building : fold.lifecycle = .building)
    (shards : List ObservationShard) :
    shards.foldlM appendShard fold =
        .ok ((shards.flatMap ObservationShard.entries).foldl putEntry fold) ∧
      ((shards.flatMap ObservationShard.entries).foldl putEntry fold).lifecycle = .building := by
  induction shards generalizing fold with
  | nil => exact ⟨rfl, building⟩
  | cons shard shards ih =>
      obtain ⟨appended, still⟩ := appendShard_eq building shard
      rw [List.foldlM_cons, appended, List.flatMap_cons, List.foldl_append]
      exact ih still

/-- An account gathers its entries. -/
theorem accountFor_foldl (entries : List Entry) (fold : ShardFold) (address : Address) :
    (entries.foldl putEntry fold).accountFor address =
      FoldAccount.gathered (entries.filter fun entry => entry.2.address = address)
        (fold.accountFor address) := by
  induction entries generalizing fold with
  | nil => rfl
  | cons entry entries ih =>
      rw [List.foldl_cons, ih]
      by_cases here : entry.2.address = address
      · subst here
        rw [List.filter_cons_of_pos (by simp), FoldAccount.gathered, FoldAccount.gathered,
          List.foldl_cons]
        congr 1
        rw [putEntry, accountFor, Lib.Table.value_put_same, Option.getD_some]
      · rw [List.filter_cons_of_neg (by simpa using here)]
        congr 1
        rw [putEntry, accountFor, Lib.Table.value_put_other _ (Ne.symm here), accountFor]

/-- The accounts held are those observed. -/
theorem holds_foldl (entries : List Entry) (fold : ShardFold) (address : Address) :
    (∃ held, (entries.foldl putEntry fold).accounts.value address = some held) ↔
      (∃ held, fold.accounts.value address = some held) ∨ ∃ entry ∈ entries, entry.2.address =
      address := by
  induction entries generalizing fold with
  | nil => simp
  | cons entry entries ih =>
      rw [List.foldl_cons, ih, List.exists_mem_cons_iff, ← or_assoc]
      apply or_congr_left
      by_cases here : entry.2.address = address
      · subst here
        rw [putEntry, Lib.Table.value_put_same]
        simp
      · rw [putEntry, Lib.Table.value_put_other _ (Ne.symm here)]
        simp [here]

end ShardFold

/-- The addresses in canonical order. -/
def ShardFold.addresses (fold : ShardFold) : List Address := (Canonical.init fold).map Prod.fst

theorem ShardFold.addresses_ascend (fold : ShardFold) : fold.addresses.Pairwise fun left right =>
    (AddressWord.fromAddress left).value < (AddressWord.fromAddress right).value := by
  apply List.pairwise_map.mpr
  apply Lib.SortsBy.ascends accountLessThan_sorts
  have injective : Function.Injective fun address : Address => (AddressWord.fromAddress address).value :=
    fun _ _ same => AddressWord.fromAddress_inj (AddressWord.value_inj same)
  have keys := (List.nodup_map_iff injective).mpr fold.accounts.unique
  rw [List.map_map] at keys
  exact keys

theorem mem_rows_of_value {κ ρ : Type} [DecidableEq κ] {table : Lib.Table κ ρ} {key : κ} {held : ρ}
    (found : table.value key = some held) : (key, held) ∈ table.rows := by
  obtain ⟨index, keyEq, rowEq⟩ := Lib.Table.value_eq_some.mp found
  obtain ⟨entry, here, rfl⟩ := Option.map_eq_some_iff.mp keyEq
  obtain ⟨other, there, rfl⟩ := Option.map_eq_some_iff.mp rowEq
  obtain rfl := Option.some.inj (here.symm.trans there)
  exact List.mem_of_getElem? here

theorem ShardFold.mem_addresses {fold : ShardFold} {address : Address} :
    address ∈ fold.addresses ↔ ∃ held, fold.accounts.value address = some held := by
  rw [addresses, List.mem_map]
  constructor
  · rintro ⟨entry, member, rfl⟩
    exact ⟨entry.2, Lib.Table.value_of_mem ((List.mergeSort_perm _ _).mem_iff.mp member)⟩
  · rintro ⟨held, found⟩
    exact ⟨(address, held), (List.mergeSort_perm _ _).mem_iff.mpr (mem_rows_of_value found), rfl⟩

namespace Canonical

theorem toOwnedAccounts_ok {order : List (Address × FoldAccount)} :
    toOwnedAccounts order = .ok list ↔
      (∀ entry ∈ order, entry.2.Unique) ∧ list = order.map fun entry => entry.2.owned entry.1 := by
  induction order generalizing list with
  | nil => simp [toOwnedAccounts, pure, Except.pure, eq_comm]
  | cons entry order ih =>
      obtain ⟨address, fold⟩ := entry
      rw [toOwnedAccounts_cons]
      constructor
      · intro built
        obtain ⟨account, made, built⟩ := Except.bind_eq_ok.mp built
        obtain ⟨rest, others, built⟩ := Except.bind_eq_ok.mp built
        obtain ⟨unique, rfl⟩ := CanonicalAccount.init_ok.mp made
        obtain ⟨uniques, rfl⟩ := ih.mp others
        exact ⟨List.forall_mem_cons.mpr ⟨unique, uniques⟩, (Except.ok.inj built).symm⟩
      · rintro ⟨uniques, rfl⟩
        obtain ⟨unique, rest⟩ := List.forall_mem_cons.mp uniques
        rw [CanonicalAccount.init_ok.mpr ⟨unique, rfl⟩, ih.mpr ⟨rest, rfl⟩]
        rfl

end Canonical

theorem ShardFold.finish_ok {fold : ShardFold} (building : fold.lifecycle = .building) :
    fold.finish.2 = .ok list ↔
      (∀ address ∈ fold.addresses, (fold.accountFor address).Unique) ∧
        list = fold.addresses.map fun address => (fold.accountFor address).owned address := by
  have live : closed fold.lifecycle = none := by
    rw [building]
    rfl
  have finished : fold.finish.2 = Canonical.toOwnedAccounts (Canonical.init fold) := by
    rw [finish, live, Canonical.toOwnedDecoded]
    cases Canonical.toOwnedAccounts (Canonical.init fold) <;> rfl
  have held : ∀ entry ∈ Canonical.init fold, fold.accountFor entry.1 = entry.2 := by
    intro entry member
    rw [accountFor, Lib.Table.value_of_mem ((List.mergeSort_perm _ _).mem_iff.mp member),
      Option.getD_some]
  rw [finished, Canonical.toOwnedAccounts_ok, addresses, List.forall_mem_map, List.map_map]
  refine and_congr ?_ ?_
  · exact forall₂_congr fun entry member => by rw [held entry member]
  · have same : (Canonical.init fold).map (fun entry => entry.2.owned entry.1) =
        (Canonical.init fold).map
        ((fun address => (fold.accountFor address).owned address) ∘ Prod.fst) :=
      List.map_congr_left fun entry member => by rw [Function.comp_apply, held entry member]
    rw [same]

/-! ## Folding shards -/

/-- The addresses of a list of shards, in order. -/
structure IsAddressOrder (shards : List ObservationShard) (addresses : List Address) : Prop where
  ascends : addresses.Pairwise fun left right =>
    (AddressWord.fromAddress left).value < (AddressWord.fromAddress right).value
  observed : ∀ address, address ∈ addresses ↔ ∃ shard ∈ shards, shard.Observes address

theorem IsAddressOrder.eq {left right : List Address} (leftOrder : IsAddressOrder shards left)
    (rightOrder : IsAddressOrder others right) (perm : shards.Perm others) : left = right := by
  have unique : ∀ {addresses : List Address}, (addresses.Pairwise fun left right =>
      (AddressWord.fromAddress left).value < (AddressWord.fromAddress right).value) →
        addresses.Nodup := by
    intro addresses ascends
    apply ascends.imp
    intro left right less same
    rw [same] at less
    exact lt_irrefl _ less
  apply List.Perm.eq_of_pairwise _ leftOrder.ascends rightOrder.ascends
  · rw [List.perm_ext_iff_of_nodup (unique leftOrder.ascends) (unique rightOrder.ascends)]
    intro address
    rw [leftOrder.observed, rightOrder.observed]
    exact exists_congr fun shard => and_congr_left fun _ => perm.mem_iff
  · intro first second _ _ less more
    exact absurd less more.asymm

/-- What the fold holds for an address. -/
def folded (shards : List ObservationShard) (address : Address) : FoldAccount :=
  FoldAccount.gathered (entriesAt shards address) {}

theorem folded_eq (shards : List ObservationShard) (address : Address) :
    folded shards address =
      ⟨(entriesAt shards address).flatMap FoldAccount.writes,
        (entriesAt shards address).flatMap FoldAccount.reads,
        (entriesAt shards address).flatMap FoldAccount.balances,
        (entriesAt shards address).flatMap FoldAccount.nonces,
        (entriesAt shards address).flatMap FoldAccount.codes⟩ := by
  rw [folded, FoldAccount.gathered_eq]
  rfl

theorem mem_entries {entry : Entry} : entry ∈ shards.flatMap ObservationShard.entries ↔
      ∃ shard ∈ shards, entry.1 = shard.blockAccessIndex ∧ entry.2 ∈ shard.transition.accounts := by
  simp only [List.mem_flatMap, ObservationShard.entries, List.mem_map]
  refine exists_congr fun shard => and_congr_right fun _ => ?_
  constructor
  · rintro ⟨account, member, rfl⟩
    exact ⟨rfl, member⟩
  · rintro ⟨index, member⟩
    exact ⟨entry.2, member, Prod.ext index.symm rfl⟩

/-- The fold that is finished holds what the addresses gather. -/
theorem finishShards_fold (shards : List ObservationShard) : ∃ fold : ShardFold,
    fold.lifecycle = .building ∧ finishShards shards = fold.finish.2 ∧
      (∀ address, fold.accountFor address = folded shards address) ∧
      IsAddressOrder shards fold.addresses := by
  have starts : ShardFold.init.lifecycle = .building := rfl
  obtain ⟨appended, building⟩ := ShardFold.foldlM_appendShard starts shards
  refine ⟨_, building, ?_, fun address => ?_, ShardFold.addresses_ascend _, fun address => ?_⟩
  · rw [finishShards, appended]
    rfl
  · rw [ShardFold.accountFor_foldl]
    rfl
  · have empty : ¬∃ held, ShardFold.init.accounts.value address = some held := by
      rintro ⟨held, found⟩
      cases found
    rw [ShardFold.mem_addresses, ShardFold.holds_foldl, or_iff_right empty]
    constructor
    · rintro ⟨entry, member, here⟩
      obtain ⟨shard, inside, -, observed⟩ := mem_entries.mp member
      exact ⟨shard, inside, entry.2, observed, here⟩
    · rintro ⟨shard, inside, account, observed, here⟩
      exact ⟨(shard.blockAccessIndex, account), mem_entries.mpr ⟨shard, inside, rfl, observed⟩, here⟩

theorem finishShards_ok :
    finishShards shards = .ok list ↔ ∃ addresses, IsAddressOrder shards addresses ∧
      (∀ address ∈ addresses, (folded shards address).Unique) ∧
      list = addresses.map fun address => (folded shards address).owned address := by
  obtain ⟨fold, building, finished, holds, order⟩ := finishShards_fold shards
  rw [finished, ShardFold.finish_ok building]
  simp only [holds]
  constructor
  · intro built
    exact ⟨_, order, built⟩
  · rintro ⟨addresses, other, built⟩
    obtain rfl := other.eq order (List.Perm.refl shards)
    exact built

/-! ## Order independence -/

/-- Two accounts with the same entries. -/
structure FoldAccount.Alike (left right : FoldAccount) : Prop where
  storage : left.storageChanges.Perm right.storageChanges
  reads : left.storageReads.Perm right.storageReads
  balance : left.balanceChanges.Perm right.balanceChanges
  nonce : left.nonceChanges.Perm right.nonceChanges
  code : left.codeChanges.Perm right.codeChanges

namespace FoldAccount.Alike

variable {left right : FoldAccount}

theorem unique (alike : left.Alike right) (unique : left.Unique) : right.Unique where
  storage := (alike.storage.map _).nodup_iff.mp unique.storage
  balance := (alike.balance.map _).nodup_iff.mp unique.balance
  nonce := (alike.nonce.map _).nodup_iff.mp unique.nonce
  code := (alike.code.map _).nodup_iff.mp unique.code

/-- What is materialised depends on the entries alone. -/
theorem owned (alike : left.Alike right) (unique : left.Unique) (address : Address) :
    left.owned address = right.owned address := by
  have storage : sortBy storageChangeLessThan left.storageChanges =
      sortBy storageChangeLessThan right.storageChanges :=
    storageChange_sorts.congr alike.storage (Lib.apart_of_nodup unique.storage)
  have reads : sortBy u256LessThan left.storageReads = sortBy u256LessThan right.storageReads :=
    u256_sorts.congr alike.reads fun _ _ _ _ same => same
  have balance : sortBy balanceChangeLessThan left.balanceChanges =
      sortBy balanceChangeLessThan right.balanceChanges :=
    balanceChange_sorts.congr alike.balance (Lib.apart_of_nodup unique.balance)
  have nonce : sortBy nonceChangeLessThan left.nonceChanges =
      sortBy nonceChangeLessThan right.nonceChanges :=
    nonceChange_sorts.congr alike.nonce (Lib.apart_of_nodup unique.nonce)
  have code : sortBy codeChangeLessThan left.codeChanges = sortBy codeChangeLessThan right.codeChanges :=
    codeChange_sorts.congr alike.code (Lib.apart_of_nodup unique.code)
  simp only [FoldAccount.owned, canonical, CanonicalAccount.toOwnedAccount,
    CanonicalAccount.canonicalReads,
    sorted, storage, reads, balance, nonce, code]

end FoldAccount.Alike

theorem folded_alike (perm : shards.Perm others) (address : Address) :
    (folded shards address).Alike (folded others address) := by
  have entries : (entriesAt shards address).Perm (entriesAt others address) :=
    (perm.flatMap_right ObservationShard.entries).filter _
  rw [folded_eq, folded_eq]
  exact ⟨entries.flatMap_right _, entries.flatMap_right _, entries.flatMap_right _,
    entries.flatMap_right _, entries.flatMap_right _⟩

theorem finishShards_perm (perm : shards.Perm others) (built : finishShards shards = .ok list) :
    finishShards others = .ok list := by
  obtain ⟨addresses, order, unique, rfl⟩ := finishShards_ok.mp built
  refine finishShards_ok.mpr ⟨addresses, ⟨order.ascends, fun address => ?_⟩, ?_, ?_⟩
  · rw [order.observed]
    exact exists_congr fun shard => and_congr_left fun _ => perm.mem_iff
  · intro address member
    exact (folded_alike perm address).unique (unique address member)
  · exact List.map_congr_left fun address member =>
      (folded_alike perm address).owned (unique address member) address

/-! ## Contents -/

namespace FoldAccount

variable {fold : FoldAccount} {address : Address}

theorem mem_owned_storage (slot : U256) (change : StorageChange) :
    (∃ row ∈ (fold.owned address).storageChanges, row.slot = slot ∧ change ∈ row.changes) ↔
      ∃ entry ∈ fold.storageChanges, entry.slot = slot ∧ entry.change = change := by
  apply (mem_toOwnedStorageChanges (sortBy storageChangeLessThan fold.storageChanges) slot change).trans
  exact exists_congr fun entry => and_congr_left fun _ => (List.mergeSort_perm _ _).mem_iff

theorem mem_owned_balance (change : BalanceChange) :
    change ∈ (fold.owned address).balanceChanges ↔ change ∈ fold.balanceChanges :=
  (List.mergeSort_perm _ _).mem_iff

theorem mem_owned_nonce (change : NonceChange) :
    change ∈ (fold.owned address).nonceChanges ↔ change ∈ fold.nonceChanges :=
  (List.mergeSort_perm _ _).mem_iff

theorem mem_owned_code (change : CodeChange) :
    change ∈ (fold.owned address).codeChanges ↔ change ∈ fold.codeChanges :=
  (List.mergeSort_perm _ _).mem_iff

/-- The reads of the materialised account. -/
theorem owned_reads (fold : FoldAccount) (address : Address) :
    (∀ slot, slot ∈ (fold.owned address).storageReads ↔
      slot ∈ fold.storageReads ∧ ¬∃ change ∈ fold.storageChanges, change.slot = slot) ∧
    (fold.owned address).storageReads.Pairwise (· < ·) := by
  have slots : (sortBy storageChangeLessThan fold.storageChanges).Pairwise
      fun left right => left.slot ≤ right.slot :=
    (storageChange_sorts.sorted fold.storageChanges).imp FoldStorageChange.key_le
  have unseen : ∀ seen ∈ (none : Option U256), ∀ read ∈ sortBy u256LessThan fold.storageReads, seen
      ≤ read :=
    fun seen known => absurd known.symm (Option.some_ne_none seen)
  have lists := toOwnedStorageReads_lists slots (u256_sorts.sorted fold.storageReads) unseen
  refine ⟨fun slot => (lists.1 slot).trans ?_, lists.2⟩
  have read : slot ∈ fold.storageReads.mergeSort (fun left right => !u256LessThan right left) ↔
      slot ∈ fold.storageReads := (List.mergeSort_perm _ _).mem_iff
  have written : (∃ change ∈ sortBy storageChangeLessThan fold.storageChanges, change.slot = slot) ↔
      ∃ change ∈ fold.storageChanges, change.slot = slot :=
    exists_congr fun change => and_congr_left fun _ => (List.mergeSort_perm _ _).mem_iff
  rw [read, written]
  exact and_congr_right fun _ => and_iff_right (Option.some_ne_none slot).symm

theorem owned_canonical (unique : fold.Unique) (address : Address) : (fold.owned address).Canonical := by
  have ascends := toOwnedStorageChanges_ascends (storageChange_sorts.ascends unique.storage)
  obtain ⟨lists, strict⟩ := fold.owned_reads address
  refine ⟨⟨ascends.1, strict, ?_⟩, ?_, ?_, ?_, ?_⟩
  · intro row member listed
    obtain ⟨entry, found, same⟩ := slot_mem_toOwnedStorageChanges.mp ⟨row, member, rfl⟩
    exact ((lists row.slot).mp listed).2 ⟨entry, (List.mergeSort_perm _ _).mem_iff.mp found, same⟩
  · intro row member
    exact ⟨toOwnedStorageChanges_nonempty _ row member, ascends.2 row member⟩
  · exact balanceChange_sorts.ascends unique.balance
  · exact nonceChange_sorts.ascends unique.nonce
  · exact codeChange_sorts.ascends unique.code

end FoldAccount

section Folded

variable {shards : List ObservationShard} {address : Address}

/-- What an account gathers, shard by shard. -/
theorem mem_flatMap_entriesAt {β : Type} {adds : Entry → List β} {item : β} :
    item ∈ (entriesAt shards address).flatMap adds ↔ ∃ shard ∈ shards,
      ∃ account ∈ shard.transition.accounts, account.address = address ∧
        item ∈ adds (shard.blockAccessIndex, account) := by
  rw [List.mem_flatMap]
  simp only [entriesAt, List.mem_filter, mem_entries, decide_eq_true_eq]
  constructor
  · rintro ⟨⟨index, account⟩, ⟨⟨shard, inside, rfl, member⟩, here⟩, added⟩
    exact ⟨shard, inside, account, member, here, added⟩
  · rintro ⟨shard, inside, account, member, here, added⟩
    exact ⟨(shard.blockAccessIndex, account), ⟨⟨shard, inside, rfl, member⟩, here⟩, added⟩

theorem mem_folded_storage {change : FoldStorageChange} :
    change ∈ (folded shards address).storageChanges ↔ ∃ shard ∈ shards,
      shard.Writes address change.slot change.newValue ∧ shard.blockAccessIndex =
        change.blockAccessIndex := by
  rw [folded_eq, mem_flatMap_entriesAt]
  refine exists_congr fun shard => and_congr_right fun _ => ?_
  rw [ObservationShard.Writes]
  constructor
  · rintro ⟨account, member, here, added⟩
    obtain ⟨slot, kept, rfl⟩ := List.mem_map.mp added
    obtain ⟨observed, written⟩ := List.mem_filter.mp kept
    exact ⟨⟨account, member, here, slot, observed, Bool.not_eq_true' _ ▸ written, rfl, rfl⟩, rfl⟩
  · rintro ⟨⟨account, member, here, slot, observed, written, slotSame, valueSame⟩, index⟩
    refine ⟨account, member, here, List.mem_map.mpr ⟨slot, List.mem_filter.mpr ⟨observed, ?_⟩, ?_⟩⟩
    · rw [written]
      rfl
    · obtain ⟨changeSlot, changeIndex, changeValue⟩ := change
      cases slotSame
      cases valueSame
      cases index
      rfl

theorem mem_folded_reads {slot : U256} :
    slot ∈ (folded shards address).storageReads ∨
        (∃ change ∈ (folded shards address).storageChanges, change.slot = slot) ↔
      ∃ shard ∈ shards, shard.Touches address slot := by
  rw [folded_eq]
  simp only [mem_flatMap_entriesAt, ObservationShard.Touches]
  constructor
  · rintro (⟨shard, inside, account, member, here, added⟩ |
      ⟨change, ⟨shard, inside, account, member, here, added⟩, rfl⟩)
    · obtain ⟨observed, kept, rfl⟩ := List.mem_map.mp added
      exact ⟨shard, inside, account, member, here, observed, List.mem_of_mem_filter kept, rfl⟩
    · obtain ⟨observed, kept, rfl⟩ := List.mem_map.mp added
      exact ⟨shard, inside, account, member, here, observed, List.mem_of_mem_filter kept, rfl⟩
  · rintro ⟨shard, inside, account, member, here, observed, listed, rfl⟩
    cases read : storageIsRead account.storageWiped observed.original observed.current with
    | true =>
        refine .inl ⟨shard, inside, account, member, here, ?_⟩
        exact List.mem_map_of_mem (List.mem_filter.mpr ⟨listed, read⟩)
    | false =>
        refine .inr ⟨⟨observed.slot, shard.blockAccessIndex, observed.current⟩,
          ⟨shard, inside, account, member, here, ?_⟩, rfl⟩
        refine List.mem_map.mpr ⟨observed, List.mem_filter.mpr ⟨listed, ?_⟩, rfl⟩
        rw [read]
        rfl

/-- The entries of a field that an observation may hold one change of. -/
theorem mem_folded_field {α β γ : Type} {observed : AccountObservation → Option α}
    {differs : α → Prop} [DecidablePred differs] {post : α → β} {change : BlockAccessIndex → β → γ}
    (injective : Function.Injective2 change) (index : BlockAccessIndex) (value : β) :
    change index value ∈ (entriesAt shards address).flatMap (fun entry =>
        ((observed entry.2).toList.filter fun seen => differs seen).map
          fun seen => change entry.1 (post seen)) ↔
      ∃ shard ∈ shards, (∃ account ∈ shard.transition.accounts, account.address = address ∧
        ∃ seen ∈ observed account, differs seen ∧ post seen = value) ∧
          shard.blockAccessIndex = index := by
  rw [mem_flatMap_entriesAt]
  refine exists_congr fun shard => and_congr_right fun _ => ?_
  simp only [List.mem_map, List.mem_filter, Option.mem_toList, decide_eq_true_eq, injective.eq_iff]
  constructor
  · rintro ⟨account, member, here, seen, ⟨known, changed⟩, same, current⟩
    exact ⟨⟨account, member, here, seen, known, changed, current⟩, same⟩
  · rintro ⟨⟨account, member, here, seen, known, changed, current⟩, same⟩
    exact ⟨account, member, here, seen, ⟨known, changed⟩, same, current⟩

theorem mem_folded_balance {change : BalanceChange} :
    change ∈ (folded shards address).balanceChanges ↔ ∃ shard ∈ shards,
      shard.SetsBalance address change.postBalance ∧ shard.blockAccessIndex =
        change.blockAccessIndex := by
  rw [folded_eq]
  exact mem_folded_field (fun _ _ _ _ => BalanceChange.mk.inj) change.blockAccessIndex _

theorem mem_folded_nonce {change : NonceChange} :
    change ∈ (folded shards address).nonceChanges ↔ ∃ shard ∈ shards,
      shard.SetsNonce address change.newNonce ∧ shard.blockAccessIndex = change.blockAccessIndex := by
  rw [folded_eq]
  exact mem_folded_field (fun _ _ _ _ => NonceChange.mk.inj) change.blockAccessIndex _

theorem mem_folded_code {change : CodeChange} :
    change ∈ (folded shards address).codeChanges ↔ ∃ shard ∈ shards,
      shard.SetsCode address change.newCode ∧ shard.blockAccessIndex = change.blockAccessIndex := by
  rw [folded_eq]
  exact mem_folded_field (fun _ _ _ _ => CodeChange.mk.inj) change.blockAccessIndex _

theorem mem_folded_marks {index : BlockAccessIndex} :
    (field, index) ∈ (folded shards address).marks ↔ ∃ shard ∈ shards,
      shard.Changes address field ∧ shard.blockAccessIndex = index := by
  rw [FoldAccount.mem_marks]
  constructor
  · rintro (⟨change, member, rfl, rfl⟩ | ⟨change, member, rfl, rfl⟩ | ⟨change, member, rfl, rfl⟩ |
      ⟨change, member, rfl, rfl⟩)
    · obtain ⟨shard, inside, writes, same⟩ := mem_folded_storage.mp member
      exact ⟨shard, inside, ⟨_, writes⟩, same⟩
    · obtain ⟨shard, inside, sets, same⟩ := mem_folded_balance.mp member
      exact ⟨shard, inside, ⟨_, sets⟩, same⟩
    · obtain ⟨shard, inside, sets, same⟩ := mem_folded_nonce.mp member
      exact ⟨shard, inside, ⟨_, sets⟩, same⟩
    · obtain ⟨shard, inside, sets, same⟩ := mem_folded_code.mp member
      exact ⟨shard, inside, ⟨_, sets⟩, same⟩
  · rintro ⟨shard, inside, changes, rfl⟩
    cases field with
    | storage slot =>
        obtain ⟨value, writes⟩ := changes
        exact .inl ⟨⟨slot, _, value⟩, mem_folded_storage.mpr ⟨shard, inside, writes, rfl⟩, rfl, rfl⟩
    | balance =>
        obtain ⟨value, sets⟩ := changes
        exact .inr (.inl ⟨⟨_, value⟩, mem_folded_balance.mpr ⟨shard, inside, sets, rfl⟩, rfl, rfl⟩)
    | nonce =>
        obtain ⟨value, sets⟩ := changes
        exact .inr (.inr (.inl ⟨⟨_, value⟩, mem_folded_nonce.mpr ⟨shard, inside, sets, rfl⟩, rfl, rfl⟩))
    | code =>
        obtain ⟨value, sets⟩ := changes
        exact .inr (.inr (.inr ⟨⟨_, value⟩, mem_folded_code.mpr ⟨shard, inside, sets, rfl⟩, rfl, rfl⟩))

/-- The changes of a shard stand beside those of the rest. -/
theorem folded_marks_cons (shard : ObservationShard) :
    (folded (shard :: shards) address).marks.Perm
      ((folded [shard] address).marks ++ (folded shards address).marks) := by
  have split : entriesAt (shard :: shards) address = entriesAt [shard] address ++
      entriesAt shards address := by
    simp [entriesAt]
  rw [folded_eq, folded_eq, folded_eq, split, List.perm_iff_count]
  intro mark
  simp only [FoldAccount.marks, List.flatMap_append, List.map_append, List.count_append]
  omega

/-- Within a shard an account has one entry at most. -/
theorem entriesAt_single (shard : ObservationShard) (address : Address) :
    entriesAt [shard] address = [] ∨ ∃ account ∈ shard.transition.accounts,
      entriesAt [shard] address = [(shard.blockAccessIndex, account)] := by
  have listed : entriesAt [shard] address = (shard.transition.accounts.filter
      fun account => account.address = address).map (shard.blockAccessIndex, ·) := by
    rw [entriesAt, List.flatMap_singleton, ObservationShard.entries, List.filter_map]
    rfl
  have unique : ((shard.transition.accounts.filter fun account => account.address = address).map
      AccountObservation.address).Nodup := shard.accounts.sublist ((List.filter_sublist).map _)
  have here : ∀ account ∈ shard.transition.accounts.filter fun account => account.address = address,
      account ∈ shard.transition.accounts ∧ account.address = address := by
    intro account member
    obtain ⟨observed, same⟩ := List.mem_filter.mp member
    exact ⟨observed, of_decide_eq_true same⟩
  rw [listed]
  generalize shard.transition.accounts.filter (fun account => account.address = address) = found
    at unique here
  cases found with
  | nil => exact .inl rfl
  | cons first found =>
      cases found with
      | nil => exact .inr ⟨first, (here first List.mem_cons_self).1, rfl⟩
      | cons second found =>
          have firstHere := (here first List.mem_cons_self).2
          have secondHere := (here second (List.mem_cons_of_mem _ List.mem_cons_self)).2
          have differs := (List.nodup_cons.mp unique).1
          exact absurd (List.mem_cons.mpr (.inl (firstHere.trans secondHere.symm))) differs

theorem nodup_option {α β : Type} (observed : Option α) (keep : α → Bool) (change : α → β) :
    ((observed.toList.filter keep).map change).Nodup := by
  cases observed with
  | none => exact List.nodup_nil
  | some value => cases kept : keep value <;> simp [kept]

/-- One observation changes no field twice. -/
theorem unique_single (shard : ObservationShard)
    (address : Address) : (folded [shard] address).Unique := by
  rw [folded_eq]
  rcases entriesAt_single shard address with none | ⟨account, member, one⟩
  · rw [none]
    exact ⟨List.nodup_nil, List.nodup_nil, List.nodup_nil, List.nodup_nil⟩
  · rw [one]
    simp only [List.flatMap_singleton]
    refine ⟨?_, ?_, ?_, ?_⟩
    · have slots : ((FoldAccount.writes (shard.blockAccessIndex, account)).map
          FoldStorageChange.slot).Nodup := by
        rw [FoldAccount.writes, List.map_map]
        exact (shard.slots account member).sublist ((List.filter_sublist).map _)
      have keys : ((FoldAccount.writes (shard.blockAccessIndex, account)).map FoldStorageChange.key).map
          (fun key => (ofLex key).1) =
            (FoldAccount.writes (shard.blockAccessIndex, account)).map FoldStorageChange.slot := by
        rw [List.map_map]
        rfl
      exact List.Nodup.of_map (fun key => (ofLex key).1) (keys ▸ slots)
    · rw [FoldAccount.balances, List.map_map]
      exact nodup_option _ _ _
    · rw [FoldAccount.nonces, List.map_map]
      exact nodup_option _ _ _
    · rw [FoldAccount.codes, List.map_map]
      exact nodup_option _ _ _

/-- Shards with indices of their own change no field twice at one index. -/
theorem folded_unique (distinct : (shards.map ObservationShard.blockAccessIndex).Nodup)
    (address : Address) :
    (folded shards address).Unique := by
  rw [FoldAccount.unique_iff]
  induction shards with
  | nil => exact List.nodup_nil
  | cons shard shards ih =>
      obtain ⟨fresh, rest⟩ := List.nodup_cons.mp distinct
      rw [(folded_marks_cons shard).nodup_iff, List.nodup_append']
      refine ⟨(FoldAccount.unique_iff _).mp (unique_single shard address), ih rest, ?_⟩
      rintro ⟨field, index⟩ here later
      obtain ⟨same, single, -, sameIndex⟩ := mem_folded_marks.mp here
      obtain ⟨other, inside, -, otherIndex⟩ := mem_folded_marks.mp later
      rw [List.mem_singleton.mp single] at sameIndex
      exact fresh (List.mem_map.mpr ⟨other, inside, otherIndex.trans sameIndex.symm⟩)

/-- Two shards that change one field at one index. -/
theorem folded_not_unique {first second : ObservationShard}
    (firstChanges : first.Changes address field) (secondChanges : second.Changes address field)
    (same : first.blockAccessIndex = second.blockAccessIndex) :
    ¬(folded (first :: second :: shards) address).Unique := by
  intro unique
  rw [FoldAccount.unique_iff, (folded_marks_cons first).nodup_iff, List.nodup_append'] at unique
  have here : (field, second.blockAccessIndex) ∈ (folded [first] address).marks :=
    mem_folded_marks.mpr ⟨first, List.mem_singleton_self _, firstChanges, same⟩
  have later : (field, second.blockAccessIndex) ∈ (folded (second :: shards) address).marks :=
    mem_folded_marks.mpr ⟨second, List.mem_cons_self, secondChanges, rfl⟩
  exact unique.2.2 here later

end Folded

/-! ## The union of shards -/

/-- What the shards record, account by account, and nothing else. -/
structure Unites (shards : List ObservationShard) (list : List AccountChanges) : Prop where
  ascends : list.Pairwise fun left right => left.address.order right.address = .lt
  accounts : ∀ address, (∃ account ∈ list, account.address = address) ↔
    ∃ shard ∈ shards, shard.Observes address
  canonical : ∀ account ∈ list, account.Canonical
  storage : ∀ account ∈ list, ∀ slot index value,
    (∃ row ∈ account.storageChanges, row.slot = slot ∧ ⟨index, value⟩ ∈ row.changes) ↔
      ∃ shard ∈ shards, shard.Writes account.address slot value ∧ shard.blockAccessIndex = index
  reads : ∀ account ∈ list, ∀ slot, slot ∈ account.storageReads ↔
    (∃ shard ∈ shards, shard.Touches account.address slot) ∧
      ¬∃ shard ∈ shards, shard.Changes account.address (.storage slot)
  balances : ∀ account ∈ list, ∀ index value, ⟨index, value⟩ ∈ account.balanceChanges ↔
    ∃ shard ∈ shards, shard.SetsBalance account.address value ∧ shard.blockAccessIndex = index
  nonces : ∀ account ∈ list, ∀ index value, ⟨index, value⟩ ∈ account.nonceChanges ↔
    ∃ shard ∈ shards, shard.SetsNonce account.address value ∧ shard.blockAccessIndex = index
  codes : ∀ account ∈ list, ∀ index code, ⟨index, code⟩ ∈ account.codeChanges ↔
    ∃ shard ∈ shards, shard.SetsCode account.address code ∧ shard.blockAccessIndex = index

theorem order_lt_iff {left right : Address} : left.order right = .lt ↔
    (AddressWord.fromAddress left).value < (AddressWord.fromAddress right).value := by
  rw [Address.order_eq_compare]
  exact compare_lt_iff_lt

/-- Whatever finishes holds the union of its shards. -/
theorem finishShards_unites (built : finishShards shards = .ok list) : Unites shards list := by
  obtain ⟨addresses, order, unique, rfl⟩ := finishShards_ok.mp built
  have of : ∀ account ∈ addresses.map fun address => (folded shards address).owned address,
      ∃ address ∈ addresses, account = (folded shards address).owned address ∧ account.address =
        address := by
    intro account member
    obtain ⟨address, listed, rfl⟩ := List.mem_map.mp member
    exact ⟨address, listed, rfl, rfl⟩
  refine ⟨?_, fun address => ?_, ?_, ?_, ?_, ?_, ?_, ?_⟩
  · exact List.pairwise_map.mpr (order.ascends.imp fun less => order_lt_iff.mpr less)
  · rw [← order.observed]
    constructor
    · rintro ⟨account, member, rfl⟩
      obtain ⟨address, listed, -, rfl⟩ := of account member
      exact listed
    · intro listed
      exact ⟨_, List.mem_map_of_mem listed, rfl⟩
  · intro account member
    obtain ⟨address, listed, rfl, -⟩ := of account member
    exact FoldAccount.owned_canonical (unique address listed) address
  · intro account member slot index value
    obtain ⟨address, -, rfl, here⟩ := of account member
    rw [FoldAccount.mem_owned_storage, here]
    constructor
    · rintro ⟨entry, found, rfl, same⟩
      obtain ⟨sameIndex, sameValue⟩ := StorageChange.mk.inj same
      obtain ⟨shard, inside, writes, index⟩ := mem_folded_storage.mp found
      exact ⟨shard, inside, sameValue ▸ writes, index.trans sameIndex⟩
    · rintro ⟨shard, inside, writes, same⟩
      exact ⟨⟨slot, index, value⟩, mem_folded_storage.mpr ⟨shard, inside, writes, same⟩, rfl, rfl⟩
  · intro account member slot
    obtain ⟨address, -, rfl, here⟩ := of account member
    have written : (∃ change ∈ (folded shards address).storageChanges, change.slot = slot) ↔
        ∃ shard ∈ shards, shard.Changes address (.storage slot) := by
      constructor
      · rintro ⟨change, found, rfl⟩
        obtain ⟨shard, inside, writes, -⟩ := mem_folded_storage.mp found
        exact ⟨shard, inside, _, writes⟩
      · rintro ⟨shard, inside, value, writes⟩
        exact ⟨⟨slot, _, value⟩, mem_folded_storage.mpr ⟨shard, inside, writes, rfl⟩, rfl⟩
    rw [((folded shards address).owned_reads address).1, here, ← written, ← mem_folded_reads]
    apply and_congr_left
    intro clear
    rw [or_iff_left clear]
  · intro account member index value
    obtain ⟨address, -, rfl, here⟩ := of account member
    rw [FoldAccount.mem_owned_balance, mem_folded_balance, here]
  · intro account member index value
    obtain ⟨address, -, rfl, here⟩ := of account member
    rw [FoldAccount.mem_owned_nonce, mem_folded_nonce, here]
  · intro account member index code
    obtain ⟨address, -, rfl, here⟩ := of account member
    rw [FoldAccount.mem_owned_code, mem_folded_code, here]

/-- A union of shards whose indices are in range is a valid access list. -/
theorem Unites.validates (unites : Unites shards list) {options : ValidationOptions}
    (range : ∀ shard ∈ shards, validateRange options shard.blockAccessIndex = .ok ()) :
    validate list options = .ok () := by
  apply validate_ok (unites.ascends.imp fun less => order_lt_iff.mp less) unites.canonical
  intro account member index listed
  have found : ∃ shard ∈ shards, shard.blockAccessIndex = index := by
    simp only [AccountChanges.indices, List.mem_append, List.mem_flatMap, List.mem_map] at listed
    rcases listed with ⟨row, inRow, change, here, rfl⟩ | ⟨change, here, rfl⟩ | ⟨change, here, rfl⟩ |
      ⟨change, here, rfl⟩
    · obtain ⟨shard, inside, -, same⟩ :=
        (unites.storage account member row.slot _ change.newValue).mp ⟨row, inRow, rfl, here⟩
      exact ⟨shard, inside, same⟩
    · obtain ⟨shard, inside, -, same⟩ := (unites.balances account member _ change.postBalance).mp here
      exact ⟨shard, inside, same⟩
    · obtain ⟨shard, inside, -, same⟩ := (unites.nonces account member _ change.newNonce).mp here
      exact ⟨shard, inside, same⟩
    · obtain ⟨shard, inside, -, same⟩ := (unites.codes account member _ change.newCode).mp here
      exact ⟨shard, inside, same⟩
  obtain ⟨shard, inside, rfl⟩ := found
  exact range shard inside

/-- Shards of different indices unite, in whatever order they come, to one valid
list of what they record; two shards that change one field at one index do not. -/
theorem finishShards_canonical (shards : List ObservationShard) :
    ((shards.map ObservationShard.blockAccessIndex).Nodup → ∃ list, Unites shards list ∧
      (∀ others, shards.Perm others → finishShards others = .ok list) ∧
      ∀ options, (∀ shard ∈ shards, validateRange options shard.blockAccessIndex = .ok ()) →
        validate list options = .ok ()) ∧
    ∀ first second rest address field, shards.Perm (first :: second :: rest) →
      first.blockAccessIndex = second.blockAccessIndex → first.Changes address field →
      second.Changes address field → ∃ error, finishShards shards = .error error := by
  constructor
  · intro distinct
    obtain ⟨fold, -, -, -, order⟩ := finishShards_fold shards
    have built := finishShards_ok.mpr ⟨_, order, fun address _ => folded_unique distinct address, rfl⟩
    have unites := finishShards_unites built
    exact ⟨_, unites, fun others perm => finishShards_perm perm built, fun options => unites.validates⟩
  · intro first second rest address field perm same firstChanges secondChanges
    cases outcome : finishShards shards with
    | error error => exact ⟨error, rfl⟩
    | ok list =>
        obtain ⟨addresses, order, unique, -⟩ := finishShards_ok.mp (finishShards_perm perm outcome)
        refine absurd (unique address ?_) (folded_not_unique firstChanges secondChanges same)
        exact (order.observed address).mpr ⟨first, List.mem_cons_self, firstChanges.observes⟩

def endow (index : BlockAccessIndex) (value : U256) : ObservationShard where
  transition := { accounts := [{
    address := ⟨List.replicate 20 1, length_ones⟩
    storage := [⟨4, 0, value⟩, ⟨5, 3, 3⟩]
    balance := some ⟨0, value⟩ }] }
  blockAccessIndex := index
  accounts := List.nodup_singleton _
  slots account member := by
    obtain rfl := List.mem_singleton.mp member
    exact show ([4, 5] : List U256).Nodup by decide

/-- The later shard may come first; with one index for both there is no list. -/
theorem finishShards_canonical_endow :
    (∃ list, Unites [endow 2 9, endow 1 7] list ∧ finishShards [endow 1 7, endow 2 9] = .ok list ∧
      validate list {} = .ok ()) ∧
    ∃ error, finishShards [endow 1 7, endow 1 9] = .error error := by
  obtain ⟨list, unites, orders, valid⟩ := (finishShards_canonical [endow 2 9, endow 1 7]).1 (by decide)
  refine ⟨⟨list, unites, orders _ (List.Perm.swap _ _ _), valid {} fun _ _ => rfl⟩, ?_⟩
  apply (finishShards_canonical [endow 1 7, endow 1 9]).2 _ _ [] ⟨List.replicate 20 1,
    length_ones⟩ .balance
    (List.Perm.refl _) rfl
  · exact ⟨7, _, List.mem_singleton_self _, rfl, _, rfl, by decide, rfl⟩
  · exact ⟨9, _, List.mem_singleton_self _, rfl, _, rfl, by decide, rfl⟩

end EvmZig.Bal
