import EvmZig.Bal.Model
import EvmZig.Rlp.LawfulList
import Mathlib.Algebra.Group.Action.Defs

/-!
# The access-list codec

Every row codec is lawful, so a list has one encoding.  The sizing walk of the
memoised encoder yields the lengths of that encoding, the writing walk reads
the memo in the order it was written, and the finite decode limits cover every
list that lies in memory.
-/

set_option autoImplicit false

namespace EvmZig.Bal

open Zig Rlp

variable {fits : Prop} {slotCount : Nat} {after budget : Budget} {encoded : Slice}

/-! ## Laws of the row codecs -/

def uint32Law : LawfulCodec (.uint 32) := .uint 32 (by decide)

def uint64Law : LawfulCodec (.uint 64) := .uint 64 (by decide)

def uint256Law : LawfulCodec (.uint 256) := .uint 256 (by decide)

def storageChangeFields : LawfulFields (.cons (.uint 32) (.cons (.uint 256) .nil)) :=
  .cons uint32Law (.cons uint256Law .nil)

def storageChangeLaw : LawfulCodec storageChangeCodec :=
  .struct storageChangeFields (fun _ => rfl) (fun _ => rfl)

def balanceChangeLaw : LawfulCodec balanceChangeCodec :=
  .struct storageChangeFields (fun _ => rfl) (fun _ => rfl)

def nonceChangeLaw : LawfulCodec nonceChangeCodec :=
  .struct (.cons uint32Law (.cons uint64Law .nil)) (fun _ => rfl) (fun _ => rfl)

def codeChangeLaw : LawfulCodec codeChangeCodec :=
  .struct (.cons uint32Law (.cons .bytes .nil)) (fun _ => rfl) (fun _ => rfl)

def slotChangesFields :
    LawfulFields (.cons (.uint 256) (.cons (.listOf storageChangeCodec) .nil)) :=
  .cons uint256Law (.cons storageChangeLaw.listOf .nil)

def slotChangesLaw : LawfulCodec slotChangesCodec :=
  .struct slotChangesFields (fun _ => rfl) (fun _ => rfl)

theorem address_fits : 20 ≤ usizeMax := by decide

def addressLaw : LawfulCodec addressCodec := .fixedBytes 20 address_fits

def accountChangesFields : LawfulFields (.cons addressCodec (.cons (.listOf slotChangesCodec)
    (.cons (.listOf (.uint 256)) (.cons (.listOf balanceChangeCodec)
      (.cons (.listOf nonceChangeCodec) (.cons (.listOf codeChangeCodec) .nil)))))) :=
  .cons addressLaw (.cons slotChangesLaw.listOf (.cons uint256Law.listOf
    (.cons balanceChangeLaw.listOf (.cons nonceChangeLaw.listOf
      (.cons codeChangeLaw.listOf .nil)))))

def accountChangesLaw : LawfulCodec accountChangesCodec :=
  .struct accountChangesFields (fun _ => rfl) (fun _ => rfl)

def blockAccessListLaw : LawfulCodec blockAccessListCodec := accountChangesLaw.listOf

/-! ## Computations with one possible result -/

section Yields

variable {ε α β : Type}

/-- `run` succeeds exactly when `fits`, and then with `value`. -/
def Yields (run : Checked ε α) (value : α) (fits : Prop) : Prop :=
  ∀ result, run = .ok result ↔ result = value ∧ fits

theorem Yields.ok (value : α) : Yields (.ok value : Checked ε α) value True := by
  intro result
  simp [eq_comm]

theorem Yields.run {run : Checked ε α} {value : α} (yields : Yields run value fits) (holds : fits) :
    run = .ok value :=
  (yields value).mpr ⟨rfl, holds⟩

theorem Yields.weaken {run : Checked ε α} {value : α} {other : Prop}
    (yields : Yields run value fits) (same : fits ↔ other) : Yields run value other := by
  intro result
  rw [yields result, same]

/-- A step whose condition follows from that of the rest. -/
theorem Yields.bind {first : Checked ε α} {next : α → Checked ε β} {value : α} {result : β}
    {firstFits : Prop} (firstYields : Yields first value firstFits)
    (nextYields : firstFits → Yields (next value) result fits) (needed : fits → firstFits) :
    Yields (first >>= next) result fits := by
  intro outcome
  rw [Checked.bind_eq_ok]
  constructor
  · rintro ⟨middle, firstRun, nextRun⟩
    obtain ⟨rfl, holds⟩ := (firstYields middle).mp firstRun
    exact (nextYields holds outcome).mp nextRun
  · rintro ⟨rfl, holds⟩
    exact ⟨value, firstYields.run (needed holds), (nextYields (needed holds)).run holds⟩

theorem Yields.assert (condition : Prop) [Decidable condition] :
    Yields (liftM (Zig.assert condition) : Checked ε Unit) () condition := by
  intro result
  by_cases holds : condition
  · simp [Zig.assert, holds]
  · simp [Zig.assert, holds]

theorem Yields.addUsize (left right : Nat) :
    Yields (liftM (Zig.addUsize left right) : Checked ε Nat) (left + right)
      (left + right ≤ usizeMax) := by
  intro result
  by_cases fits : left + right ≤ usizeMax
  · simp [Zig.addUsize, fits, eq_comm]
  · simp [Zig.addUsize, fits]

theorem Yields.lengthResult (length : Nat) :
    Yields (lengthResult length) length (length ≤ usizeMax) :=
  fun _ => lengthResult_eq_ok

theorem Yields.encodedLen {codec : Codec α} (law : LawfulCodec codec) (value : α) :
    Yields (codec.encodedLen value) (law.encode value).length
      ((law.encode value).length ≤ usizeMax) := by
  rw [law.encodedLen_eq]
  exact Yields.lengthResult _

theorem Yields.listEncodedLen {payload : List UInt8} (fits : payload.length ≤ usizeMax) :
    Yields (listEncodedLen payload.length) (listItem payload).length
      ((listItem payload).length ≤ usizeMax) := by
  rw [listEncodedLen_eq fits]
  exact Yields.lengthResult _

/-- `left + try next`, trapping on overflow. -/
theorem Yields.addNext {left right : Nat} {next : Checked ε Nat}
    (yields : Yields next right (right ≤ usizeMax)) :
    Yields (do Zig.addUsize left (← next) : Checked ε Nat) (left + right)
      (left + right ≤ usizeMax) :=
  yields.bind (fun _ => Yields.addUsize left right) (by omega)

end Yields

/-! ## The sizing walk -/

theorem payloadLoop_yields {α : Type} {codec : Codec α} (law : LawfulCodec codec)
    {entryLen : α → Checked EncodeError Nat}
    (entries : ∀ row, Yields (entryLen row) (law.encode row).length
      ((law.encode row).length ≤ usizeMax)) (rows : List α) {payload : Nat}
    (fits : payload ≤ usizeMax) :
    Yields (payloadLoop entryLen rows payload) (payload + (joined law rows).length)
      (payload + (joined law rows).length ≤ usizeMax) := by
  induction rows generalizing payload with
  | nil => exact (Yields.ok payload).weaken (by simpa using fits)
  | cons row rows ih =>
      rw [joined_cons, List.length_append]
      refine Yields.bind (entries row) (fun rowFits => ?_) (by omega)
      refine Yields.bind (Yields.addUsize payload _) (fun sumFits => ?_) (by omega)
      rw [← Nat.add_assoc]
      exact ih sumFits

theorem changePayloadLen_yields {α : Type} {codec : Codec α} (law : LawfulCodec codec)
    (changeIndex : BlockAccessIndex) (value : α) :
    Yields (changePayloadLen codec changeIndex value)
      (uint32Law.encode changeIndex ++ (law.encode value ++ [])).length
      ((uint32Law.encode changeIndex ++ (law.encode value ++ [])).length ≤ usizeMax) := by
  rw [List.append_nil, List.length_append]
  refine Yields.bind (Yields.encodedLen uint32Law changeIndex) (fun indexFits => ?_) (by omega)
  exact (Yields.encodedLen law value).addNext

/-- The length of one change row, for each kind of change. -/
theorem changeLen_yields {α : Type} {codec : Codec α} (law : LawfulCodec codec)
    (changeIndex : BlockAccessIndex) (value : α) :
    Yields (do listEncodedLen (← changePayloadLen codec changeIndex value))
      (listItem (uint32Law.encode changeIndex ++ (law.encode value ++ []))).length
      ((listItem (uint32Law.encode changeIndex ++ (law.encode value ++ []))).length ≤ usizeMax) := by
  refine Yields.bind (changePayloadLen_yields law changeIndex value)
    (fun payloadFits => Yields.listEncodedLen payloadFits) (fun fits => ?_)
  exact Nat.le_trans (Nat.le_of_succ_le (itemLength_succ_le _)) fits

theorem storageChangeLen_yields (change : StorageChange) :
    Yields (storageChangeLen change) (storageChangeLaw.encode change).length
      ((storageChangeLaw.encode change).length ≤ usizeMax) :=
  changeLen_yields uint256Law change.blockAccessIndex change.newValue

theorem balanceChangeLen_yields (change : BalanceChange) :
    Yields (balanceChangeLen change) (balanceChangeLaw.encode change).length
      ((balanceChangeLaw.encode change).length ≤ usizeMax) :=
  changeLen_yields uint256Law change.blockAccessIndex change.postBalance

theorem nonceChangeLen_yields (change : NonceChange) :
    Yields (nonceChangeLen change) (nonceChangeLaw.encode change).length
      ((nonceChangeLaw.encode change).length ≤ usizeMax) :=
  changeLen_yields uint64Law change.blockAccessIndex change.newNonce

theorem codeChangeLen_yields (change : CodeChange) :
    Yields (codeChangeLen change) (codeChangeLaw.encode change).length
      ((codeChangeLaw.encode change).length ≤ usizeMax) :=
  changeLen_yields LawfulCodec.bytes change.blockAccessIndex change.newCode

/-- The fields of a slot row, joined. -/
def slotPayload (slot : SlotChanges) : List UInt8 :=
  uint256Law.encode slot.slot ++ (listItem (joined storageChangeLaw slot.changes) ++ [])

theorem slotChangesLaw_encode (slot : SlotChanges) :
    slotChangesLaw.encode slot = listItem (slotPayload slot) := rfl

/-- The memo entry of a slot. -/
def slotLensOf (slot : SlotChanges) : SlotLens :=
  ⟨(joined storageChangeLaw slot.changes).length, (slotPayload slot).length⟩

theorem sizeSlots_yields (slots : List SlotChanges) {payload : Nat} {slotLens : List SlotLens}
    (fits : payload ≤ usizeMax) (room : slotLens.length + slots.length ≤ slotCount) :
    Yields (sizeSlots slotCount slots payload slotLens)
      (payload + (joined slotChangesLaw slots).length, slotLens ++ slots.map slotLensOf)
      (payload + (joined slotChangesLaw slots).length ≤ usizeMax) := by
  induction slots generalizing payload slotLens with
  | nil =>
      rw [joined_nil, List.map_nil, List.append_nil]
      exact (Yields.ok _).weaken (by simpa using fits)
  | cons slot slots ih =>
      rw [List.length_cons] at room
      have payloadLen : (slotPayload slot).length = (uint256Law.encode slot.slot).length +
          (listItem (joined storageChangeLaw slot.changes)).length := by
        rw [slotPayload, List.append_nil, List.length_append]
      have changesShorter := itemLength_succ_le (joined storageChangeLaw slot.changes)
      have payloadShorter := itemLength_succ_le (slotPayload slot)
      rw [joined_cons, List.length_append, slotChangesLaw_encode]
      refine Yields.bind
        (payloadLoop_yields storageChangeLaw storageChangeLen_yields slot.changes (Nat.zero_le _))
        (fun changesFits => ?_) (by omega)
      rw [Nat.zero_add] at changesFits ⊢
      refine Yields.bind (Yields.encodedLen uint256Law slot.slot) (fun slotFits => ?_) (by omega)
      refine Yields.bind (Yields.listEncodedLen changesFits) (fun listFits => ?_) (by omega)
      refine Yields.bind (Yields.addUsize _ _) (fun payloadFits => ?_) (by omega)
      rw [← payloadLen] at payloadFits ⊢
      refine Yields.bind (Yields.assert _) (fun inside => ?_) (fun _ => by omega)
      refine Yields.bind (Yields.listEncodedLen payloadFits) (fun itemFits => ?_) (by omega)
      refine Yields.bind (Yields.addUsize _ _) (fun sumFits => ?_) (by omega)
      have rest := @ih _ (slotLens ++ [slotLensOf slot]) sumFits (by
        rw [List.length_append, List.length_singleton]
        omega)
      rw [List.append_assoc, Nat.add_assoc] at rest
      exact rest

/-- The fields of an account row, joined. -/
def accountPayload (account : AccountChanges) : List UInt8 :=
  addressLaw.encode account.address ++
    (listItem (joined slotChangesLaw account.storageChanges) ++
      (listItem (joined uint256Law account.storageReads) ++
        (listItem (joined balanceChangeLaw account.balanceChanges) ++
          (listItem (joined nonceChangeLaw account.nonceChanges) ++
            (listItem (joined codeChangeLaw account.codeChanges) ++ [])))))

theorem accountChangesLaw_encode (account : AccountChanges) :
    accountChangesLaw.encode account = listItem (accountPayload account) := rfl

theorem accountPayload_length (account : AccountChanges) :
    (accountPayload account).length = (addressLaw.encode account.address).length +
      (listItem (joined slotChangesLaw account.storageChanges)).length +
      (listItem (joined uint256Law account.storageReads)).length +
      (listItem (joined balanceChangeLaw account.balanceChanges)).length +
      (listItem (joined nonceChangeLaw account.nonceChanges)).length +
      (listItem (joined codeChangeLaw account.codeChanges)).length := by
  simp only [accountPayload, List.append_nil, List.length_append]
  omega

/-- The memo entry of an account. -/
def accountLensOf (account : AccountChanges) : AccountLens where
  storageChanges := (joined slotChangesLaw account.storageChanges).length
  storageReads := (joined uint256Law account.storageReads).length
  balanceChanges := (joined balanceChangeLaw account.balanceChanges).length
  nonceChanges := (joined nonceChangeLaw account.nonceChanges).length
  codeChanges := (joined codeChangeLaw account.codeChanges).length
  payload := (accountPayload account).length

theorem sizeAccount_yields (account : AccountChanges) {slotLens : List SlotLens}
    (room : slotLens.length + account.storageChanges.length ≤ slotCount) :
    Yields (sizeAccount slotCount account slotLens)
      (accountLensOf account, slotLens ++ account.storageChanges.map slotLensOf)
      ((accountPayload account).length ≤ usizeMax) := by
  have total := accountPayload_length account
  have slotsShorter := itemLength_succ_le (joined slotChangesLaw account.storageChanges)
  have readsShorter := itemLength_succ_le (joined uint256Law account.storageReads)
  have balancesShorter := itemLength_succ_le (joined balanceChangeLaw account.balanceChanges)
  have noncesShorter := itemLength_succ_le (joined nonceChangeLaw account.nonceChanges)
  have codesShorter := itemLength_succ_le (joined codeChangeLaw account.codeChanges)
  have slotsYield := sizeSlots_yields account.storageChanges (Nat.zero_le usizeMax) room
  have readsYield := payloadLoop_yields uint256Law (Yields.encodedLen uint256Law)
    account.storageReads (Nat.zero_le usizeMax)
  have balancesYield := payloadLoop_yields balanceChangeLaw balanceChangeLen_yields
    account.balanceChanges (Nat.zero_le usizeMax)
  have noncesYield := payloadLoop_yields nonceChangeLaw nonceChangeLen_yields
    account.nonceChanges (Nat.zero_le usizeMax)
  have codesYield := payloadLoop_yields codeChangeLaw codeChangeLen_yields
    account.codeChanges (Nat.zero_le usizeMax)
  rw [Nat.zero_add] at slotsYield readsYield balancesYield noncesYield codesYield
  refine Yields.bind slotsYield (fun slotsFit => ?_) (by omega)
  refine Yields.bind readsYield (fun readsFit => ?_) (by omega)
  refine Yields.bind balancesYield (fun balancesFit => ?_) (by omega)
  refine Yields.bind noncesYield (fun noncesFit => ?_) (by omega)
  refine Yields.bind codesYield (fun codesFit => ?_) (by omega)
  refine Yields.bind (Yields.encodedLen addressLaw account.address) (fun _ => ?_) (by omega)
  refine Yields.bind (Yields.listEncodedLen slotsFit) (fun _ => ?_) (by omega)
  refine Yields.bind (Yields.addUsize _ _) (fun _ => ?_) (by omega)
  refine Yields.bind (Yields.listEncodedLen readsFit) (fun _ => ?_) (by omega)
  refine Yields.bind (Yields.addUsize _ _) (fun _ => ?_) (by omega)
  refine Yields.bind (Yields.listEncodedLen balancesFit) (fun _ => ?_) (by omega)
  refine Yields.bind (Yields.addUsize _ _) (fun _ => ?_) (by omega)
  refine Yields.bind (Yields.listEncodedLen noncesFit) (fun _ => ?_) (by omega)
  refine Yields.bind (Yields.addUsize _ _) (fun _ => ?_) (by omega)
  refine Yields.bind (Yields.listEncodedLen codesFit) (fun _ => ?_) (by omega)
  refine Yields.bind (Yields.addUsize _ _) (fun payloadFits => ?_) (by omega)
  rw [← total] at payloadFits ⊢
  exact (Yields.ok _).weaken (by simpa using payloadFits)

/-- The slots of all accounts, in the order both walks visit them. -/
def allSlots (accounts : List AccountChanges) : List SlotChanges :=
  accounts.flatMap AccountChanges.storageChanges

theorem sizeAccounts_yields {slotCount : Nat} (accounts : List AccountChanges) {memo : Memo}
    (fits : memo.topPayload ≤ usizeMax)
    (room : memo.slotLens.length + (allSlots accounts).length ≤ slotCount) :
    Yields (sizeAccounts slotCount accounts memo)
      ⟨memo.accountLens ++ accounts.map accountLensOf,
        memo.slotLens ++ (allSlots accounts).map slotLensOf,
        memo.topPayload + (joined accountChangesLaw accounts).length⟩
      (memo.topPayload + (joined accountChangesLaw accounts).length ≤ usizeMax) := by
  induction accounts generalizing memo with
  | nil =>
      simp only [allSlots, List.flatMap_nil, List.map_nil, List.append_nil, joined_nil,
        List.length_nil, Nat.add_zero]
      exact (Yields.ok memo).weaken (by simpa using fits)
  | cons account accounts ih =>
      have shorter := itemLength_succ_le (accountPayload account)
      have slotsSplit : allSlots (account :: accounts) =
          account.storageChanges ++ allSlots accounts := rfl
      rw [slotsSplit, List.length_append] at room
      rw [joined_cons, List.length_append, accountChangesLaw_encode, slotsSplit]
      refine Yields.bind (sizeAccount_yields account (by omega)) (fun payloadFits => ?_) (by omega)
      refine Yields.bind (Yields.listEncodedLen payloadFits) (fun itemFits => ?_) (by omega)
      refine Yields.bind (Yields.addUsize _ _) (fun sumFits => ?_) (by omega)
      have rest := @ih ⟨memo.accountLens ++ [accountLensOf account],
        memo.slotLens ++ account.storageChanges.map slotLensOf,
        memo.topPayload + (listItem (accountPayload account)).length⟩ sumFits (by
          simp only [List.length_append, List.length_map]
          omega)
      simp only [List.append_assoc, Nat.add_assoc] at rest
      simpa only [List.map_append, List.map_cons, List.singleton_append] using rest

/-! ## The writing walk -/

theorem encodeEach_writes {α : Type} {codec : Codec α} (law : LawfulCodec codec)
    {encodeRow : α → Action Encoder EncodeError Unit}
    (row_writes : ∀ row, (law.encode row).length ≤ usizeMax →
      Writes (encodeRow row) (law.encode row)) (rows : List α)
    (fits : (joined law rows).length ≤ usizeMax) :
    Writes (encodeEach encodeRow rows) (joined law rows) := by
  induction rows with
  | nil => exact WritesTo.pure ()
  | cons row rows ih =>
      rw [joined_cons, List.length_append] at fits
      exact (row_writes row (by omega)).bind (ih (by omega))

theorem uint_writes {bits : Nat} (narrow : bits ≤ 256) (value : Fin (2 ^ bits)) :
    Writes (Encoder.uint bits value.val) ((LawfulCodec.uint bits narrow).encode value) :=
  Encoder.uint_writes value.isLt narrow

/-- One change row, for each kind of change. -/
theorem encodeChange_writes {α : Type} {codec : Codec α} (law : LawfulCodec codec)
    (changeIndex : BlockAccessIndex) (value : α)
    (value_writes : Writes (codec.encodeTo value) (law.encode value))
    (fits : (listItem (uint32Law.encode changeIndex ++ (law.encode value ++ []))).length ≤
      usizeMax) :
    Writes (do
        Encoder.listPrefix (← changePayloadLen codec changeIndex value)
        Encoder.uint 32 changeIndex.val
        codec.encodeTo value)
      (listItem (uint32Law.encode changeIndex ++ (law.encode value ++ []))) := by
  have shorter := itemLength_succ_le (uint32Law.encode changeIndex ++ (law.encode value ++ []))
  have payloadFits : (uint32Law.encode changeIndex ++ (law.encode value ++ [])).length ≤ usizeMax :=
    by omega
  refine WritesTo.checked ((changePayloadLen_yields law changeIndex value).run payloadFits) ?_
  rw [listItem]
  refine (Encoder.listPrefix_writes payloadFits).bind ?_
  rw [List.append_nil]
  exact (uint_writes _ changeIndex).bind value_writes

theorem encodeStorageChange_writes (change : StorageChange)
    (fits : (storageChangeLaw.encode change).length ≤ usizeMax) :
    Writes (encodeStorageChange change) (storageChangeLaw.encode change) :=
  encodeChange_writes uint256Law change.blockAccessIndex change.newValue (uint_writes _ _) fits

theorem encodeBalanceChange_writes (change : BalanceChange)
    (fits : (balanceChangeLaw.encode change).length ≤ usizeMax) :
    Writes (encodeBalanceChange change) (balanceChangeLaw.encode change) :=
  encodeChange_writes uint256Law change.blockAccessIndex change.postBalance (uint_writes _ _) fits

theorem encodeNonceChange_writes (change : NonceChange)
    (fits : (nonceChangeLaw.encode change).length ≤ usizeMax) :
    Writes (encodeNonceChange change) (nonceChangeLaw.encode change) :=
  encodeChange_writes uint64Law change.blockAccessIndex change.newNonce (uint_writes _ _) fits

theorem encodeCodeChange_writes (change : CodeChange)
    (fits : (codeChangeLaw.encode change).length ≤ usizeMax) :
    Writes (encodeCodeChange change) (codeChangeLaw.encode change) :=
  encodeChange_writes LawfulCodec.bytes change.blockAccessIndex change.newCode
    (Encoder.bytes_writes _) fits

/-- The memo holds the entries of `slots` from `slotIndex` on. -/
theorem encodeSlots_writes {slotLens before after : List SlotLens} (slots : List SlotChanges)
    (memo : slotLens = before ++ slots.map slotLensOf ++ after)
    (fits : (joined slotChangesLaw slots).length ≤ usizeMax) :
    WritesTo (encodeSlots slotLens slots before.length) (joined slotChangesLaw slots)
      (before.length + slots.length) := by
  induction slots generalizing before with
  | nil => exact WritesTo.pure _
  | cons slot slots ih =>
      have payloadShorter := itemLength_succ_le (slotPayload slot)
      have changesShorter := itemLength_succ_le (joined storageChangeLaw slot.changes)
      have payloadLen : (slotPayload slot).length = (uint256Law.encode slot.slot).length +
          (listItem (joined storageChangeLaw slot.changes)).length := by
        rw [slotPayload, List.append_nil, List.length_append]
      rw [joined_cons, List.length_append, slotChangesLaw_encode] at fits
      have entry : slotLens[before.length]? = some (slotLensOf slot) := by
        rw [memo]
        simp
      have rest := @ih (before ++ [slotLensOf slot]) (by simp [memo]) (by omega)
      rw [List.length_append, List.length_singleton, Nat.add_assoc, Nat.add_comm 1] at rest
      intro encoder room
      simp only [encodeSlots, entry, Action.bind_run, Action.liftM_some]
      have writes : WritesTo (do
          Encoder.listPrefix (slotPayload slot).length
          Encoder.uint 256 slot.slot.val
          Encoder.listPrefix (joined storageChangeLaw slot.changes).length
          encodeEach encodeStorageChange slot.changes
          encodeSlots slotLens slots (before.length + 1))
          (joined slotChangesLaw (slot :: slots)) (before.length + (slot :: slots).length) := by
        rw [joined_cons, slotChangesLaw_encode, listItem, List.append_assoc, List.length_cons]
        refine (Encoder.listPrefix_writes (by omega)).bind ?_
        rw [slotPayload, List.append_nil, List.append_assoc]
        refine (uint_writes _ slot.slot).bind ?_
        rw [listItem, List.append_assoc]
        refine (Encoder.listPrefix_writes (by omega)).bind ?_
        exact (encodeEach_writes storageChangeLaw encodeStorageChange_writes slot.changes
          (by omega)).bind rest
      exact writes encoder room

theorem encodeAccount_writes {slotLens before after : List SlotLens} (account : AccountChanges)
    (memo : slotLens = before ++ account.storageChanges.map slotLensOf ++ after)
    (fits : (listItem (accountPayload account)).length ≤ usizeMax) :
    WritesTo (encodeAccount slotLens account (accountLensOf account) before.length)
      (accountChangesLaw.encode account) (before.length + account.storageChanges.length) := by
  have shorter := itemLength_succ_le (accountPayload account)
  have total := accountPayload_length account
  have slotsShorter := itemLength_succ_le (joined slotChangesLaw account.storageChanges)
  have readsShorter := itemLength_succ_le (joined uint256Law account.storageReads)
  have balancesShorter := itemLength_succ_le (joined balanceChangeLaw account.balanceChanges)
  have noncesShorter := itemLength_succ_le (joined nonceChangeLaw account.nonceChanges)
  have codesShorter := itemLength_succ_le (joined codeChangeLaw account.codeChanges)
  rw [accountChangesLaw_encode, listItem]
  refine (Encoder.listPrefix_writes (by simp only [accountLensOf]; omega)).bind ?_
  rw [accountPayload]
  refine (Encoder.bytes_writes (account.address.slice (by decide))).bind ?_
  rw [listItem, List.append_assoc]
  refine (Encoder.listPrefix_writes (by simp only [accountLensOf]; omega)).bind ?_
  refine (encodeSlots_writes account.storageChanges memo (by omega)).bind ?_
  rw [listItem, List.append_assoc]
  refine (Encoder.listPrefix_writes (by simp only [accountLensOf]; omega)).bind ?_
  refine (encodeEach_writes uint256Law (fun slot _ => uint_writes _ slot) account.storageReads
    (by omega)).bind ?_
  rw [listItem, List.append_assoc]
  refine (Encoder.listPrefix_writes (by simp only [accountLensOf]; omega)).bind ?_
  refine (encodeEach_writes balanceChangeLaw encodeBalanceChange_writes account.balanceChanges
    (by omega)).bind ?_
  rw [listItem, List.append_assoc]
  refine (Encoder.listPrefix_writes (by simp only [accountLensOf]; omega)).bind ?_
  refine (encodeEach_writes nonceChangeLaw encodeNonceChange_writes account.nonceChanges
    (by omega)).bind ?_
  rw [listItem, List.append_assoc]
  refine (Encoder.listPrefix_writes (by simp only [accountLensOf]; omega)).bind ?_
  exact (encodeEach_writes codeChangeLaw encodeCodeChange_writes account.codeChanges
    (by omega)).bind (WritesTo.pure _)

theorem encodeAccounts_writes {slotLens before after : List SlotLens}
    (accounts : List AccountChanges)
    (memo : slotLens = before ++ (allSlots accounts).map slotLensOf ++ after)
    (fits : (joined accountChangesLaw accounts).length ≤ usizeMax) :
    WritesTo (encodeAccounts slotLens (accounts.zip (accounts.map accountLensOf)) before.length)
      (joined accountChangesLaw accounts) (before.length + (allSlots accounts).length) := by
  induction accounts generalizing before with
  | nil => exact WritesTo.pure _
  | cons account accounts ih =>
      have slotsSplit : allSlots (account :: accounts) =
          account.storageChanges ++ allSlots accounts := rfl
      rw [slotsSplit, List.map_append, ← List.append_assoc] at memo
      rw [joined_cons, List.length_append, accountChangesLaw_encode] at fits
      have first := encodeAccount_writes account
        (show slotLens = before ++ account.storageChanges.map slotLensOf ++
          ((allSlots accounts).map slotLensOf ++ after) by rw [memo, List.append_assoc]) (by omega)
      have rest := @ih (before ++ account.storageChanges.map slotLensOf) memo (by omega)
      rw [List.length_append, List.length_map] at rest
      rw [slotsSplit, List.length_append, ← Nat.add_assoc]
      exact first.bind rest

/-! ## Counts of a resident list -/

theorem foldl_updateMaxIndex (indices : List BlockAccessIndex) (counts : Counts) :
    ∃ index, indices.foldl updateMaxIndex counts = { counts with maxBlockAccessIndex := index } := by
  induction indices generalizing counts with
  | nil => exact ⟨_, rfl⟩
  | cons index indices ih =>
      have step : ∃ first, updateMaxIndex counts index =
          { counts with maxBlockAccessIndex := first } := by
        unfold updateMaxIndex
        split
        · split
          · exact ⟨_, rfl⟩
          · exact ⟨_, rfl⟩
        · exact ⟨_, rfl⟩
      obtain ⟨first, firstEq⟩ := step
      obtain ⟨last, lastEq⟩ := ih { counts with maxBlockAccessIndex := first }
      exact ⟨last, by rw [List.foldl_cons, firstEq, lastEq]⟩

theorem countSlots_run (slots : List SlotChanges) (counts : Counts)
    (fits : counts.storageWriteChanges + (slots.map fun slot => slot.changes.length).sum ≤
      usizeMax) :
    ∃ index, slots.foldlM countSlot counts = some { counts with
      storageWriteChanges :=
        counts.storageWriteChanges + (slots.map fun slot => slot.changes.length).sum
      maxBlockAccessIndex := index } := by
  induction slots generalizing counts with
  | nil => exact ⟨_, rfl⟩
  | cons slot slots ih =>
      rw [List.map_cons, List.sum_cons] at fits
      obtain ⟨first, firstEq⟩ := foldl_updateMaxIndex
        (slot.changes.map StorageChange.blockAccessIndex)
        { counts with storageWriteChanges := counts.storageWriteChanges + slot.changes.length }
      have run : countSlot counts slot = some { counts with
          storageWriteChanges := counts.storageWriteChanges + slot.changes.length
          maxBlockAccessIndex := first } := by
        simp only [countSlot, Zig.addUsize_eq (show counts.storageWriteChanges +
          slot.changes.length ≤ usizeMax by omega), Option.bind_eq_bind, Option.bind_some, firstEq]
        rfl
      obtain ⟨last, lastEq⟩ := ih { counts with
        storageWriteChanges := counts.storageWriteChanges + slot.changes.length
        maxBlockAccessIndex := first } (by simp only; omega)
      refine ⟨last, ?_⟩
      rw [List.foldlM_cons, run, Option.bind_eq_bind, Option.bind_some, lastEq, List.map_cons,
        List.sum_cons, Nat.add_assoc]

theorem countCodes_run (changes : List CodeChange) (counts : Counts)
    (fits : counts.codeBytes + (changes.map fun change => change.newCode.len).sum ≤ usizeMax) :
    ∃ index, changes.foldlM countCode counts = some { counts with
      codeBytes := counts.codeBytes + (changes.map fun change => change.newCode.len).sum
      maxBlockAccessIndex := index } := by
  induction changes generalizing counts with
  | nil => exact ⟨_, rfl⟩
  | cons change changes ih =>
      rw [List.map_cons, List.sum_cons] at fits
      obtain ⟨first, firstEq⟩ := foldl_updateMaxIndex [change.blockAccessIndex]
        { counts with codeBytes := counts.codeBytes + change.newCode.len }
      have run : countCode counts change = some { counts with
          codeBytes := counts.codeBytes + change.newCode.len
          maxBlockAccessIndex := first } := by
        simp only [countCode, Zig.addUsize_eq (show counts.codeBytes + change.newCode.len ≤
          usizeMax by omega), Option.bind_eq_bind, Option.bind_some]
        exact congrArg some firstEq
      obtain ⟨last, lastEq⟩ := ih { counts with
        codeBytes := counts.codeBytes + change.newCode.len
        maxBlockAccessIndex := first } (by simp only; omega)
      refine ⟨last, ?_⟩
      rw [List.foldlM_cons, run, Option.bind_eq_bind, Option.bind_some, lastEq, List.map_cons,
        List.sum_cons, Nat.add_assoc]

/-- All that the counters of one account add up to. -/
def Counts.total (counts : Counts) : Nat :=
  counts.storageReadKeys + counts.storageWriteKeys + counts.storageWriteChanges +
    counts.balanceChanges + counts.nonceChanges + counts.codeChanges + counts.codeBytes

theorem residentBytes_eq (account : AccountChanges) :
    account.residentBytes = 104 + (48 * account.storageChanges.length +
      48 * (account.storageChanges.map fun slot => slot.changes.length).sum) +
      32 * account.storageReads.length + 48 * account.balanceChanges.length +
      16 * account.nonceChanges.length + (24 * account.codeChanges.length +
        (account.codeChanges.map fun change => change.newCode.len).sum) := by
  simp only [AccountChanges.residentBytes, List.sum_map_add, List.sum_map_mul_left,
    List.map_const', List.sum_replicate, smul_eq_mul]
  rw [Nat.mul_comm _ slotChangesCodec.sizeOf, Nat.mul_comm _ codeChangeCodec.sizeOf]
  rfl

theorem countAccount_run (account : AccountChanges) (counts : Counts)
    (fits : counts.total + account.residentBytes ≤ usizeMax) :
    ∃ after, countAccount counts account = some after ∧
      after.storageWriteKeys = counts.storageWriteKeys + account.storageChanges.length ∧
      after.total ≤ counts.total + account.residentBytes := by
  rw [residentBytes_eq] at fits ⊢
  simp only [Counts.total] at fits ⊢
  have reads := Zig.addUsize_eq
    (show counts.storageReadKeys + account.storageReads.length ≤ usizeMax by omega)
  have writes := Zig.addUsize_eq
    (show counts.storageWriteKeys + account.storageChanges.length ≤ usizeMax by omega)
  have balances := Zig.addUsize_eq
    (show counts.balanceChanges + account.balanceChanges.length ≤ usizeMax by omega)
  have nonces := Zig.addUsize_eq
    (show counts.nonceChanges + account.nonceChanges.length ≤ usizeMax by omega)
  have codes := Zig.addUsize_eq
    (show counts.codeChanges + account.codeChanges.length ≤ usizeMax by omega)
  obtain ⟨slotIndex, slotsRun⟩ := countSlots_run account.storageChanges { counts with
    storageReadKeys := counts.storageReadKeys + account.storageReads.length
    storageWriteKeys := counts.storageWriteKeys + account.storageChanges.length }
    (by simp only; omega)
  simp only [countAccount, reads, writes, slotsRun, balances, Option.bind_eq_bind, Option.bind_some]
  -- The folds over the indices change the largest index only.
  rw [(foldl_updateMaxIndex (account.balanceChanges.map BalanceChange.blockAccessIndex) _).choose_spec]
  simp only [nonces, Option.bind_some]
  rw [(foldl_updateMaxIndex (account.nonceChanges.map NonceChange.blockAccessIndex) _).choose_spec]
  simp only [codes, Option.bind_some]
  rw [(countCodes_run account.codeChanges _ (by simp only; omega)).choose_spec]
  refine ⟨_, rfl, rfl, ?_⟩
  simp only
  omega

theorem count_run (accounts : List AccountChanges) (counts : Counts)
    (fits : counts.total + residentBytes accounts ≤ usizeMax) :
    ∃ after, accounts.foldlM countAccount counts = some after ∧
      after.storageWriteKeys = counts.storageWriteKeys + (allSlots accounts).length := by
  induction accounts generalizing counts with
  | nil => exact ⟨counts, rfl, rfl⟩
  | cons account accounts ih =>
      have split : residentBytes (account :: accounts) =
          account.residentBytes + residentBytes accounts := by
        simp [residentBytes]
      rw [split] at fits
      obtain ⟨middle, run, writeKeys, total⟩ := countAccount_run account counts (by omega)
      obtain ⟨after, rest, restKeys⟩ := ih middle (by omega)
      refine ⟨after, ?_, ?_⟩
      · rw [List.foldlM_cons, run]
        exact rest
      · have slotsSplit : allSlots (account :: accounts) =
            account.storageChanges ++ allSlots accounts := rfl
        rw [restKeys, writeKeys, slotsSplit, List.length_append, Nat.add_assoc]

/-- The memo of a resident list fits in memory. -/
theorem memoBytes_le (accounts : List AccountChanges) :
    accounts.length * accountLensSize + (allSlots accounts).length * slotLensSize ≤
      residentBytes accounts := by
  induction accounts with
  | nil => exact Nat.le_refl _
  | cons account accounts ih =>
      have split : residentBytes (account :: accounts) =
          account.residentBytes + residentBytes accounts := by
        simp [residentBytes]
      have slotsSplit : allSlots (account :: accounts) =
          account.storageChanges ++ allSlots accounts := rfl
      rw [split, slotsSplit, residentBytes_eq, List.length_append, List.length_cons]
      simp only [accountLensSize, slotLensSize] at ih ⊢
      omega

/-! ## The memoised encoder -/

/-- The memo that the sizing walk leaves behind. -/
def memoOf (accounts : List AccountChanges) : Memo where
  accountLens := accounts.map accountLensOf
  slotLens := (allSlots accounts).map slotLensOf
  topPayload := (joined accountChangesLaw accounts).length

theorem sizeAccounts_memo (accounts : List AccountChanges)
    (room : (allSlots accounts).length ≤ slotCount) :
    Yields (sizeAccounts slotCount accounts ⟨[], [], 0⟩) (memoOf accounts)
      ((joined accountChangesLaw accounts).length ≤ usizeMax) := by
  have sizes := @sizeAccounts_yields slotCount accounts ⟨[], [], 0⟩ (Nat.zero_le usizeMax)
    (by simpa using room)
  simp only [List.nil_append, Nat.zero_add] at sizes
  exact sizes

theorem encodeList_writes (accounts : List AccountChanges)
    (fits : (joined accountChangesLaw accounts).length ≤ usizeMax) :
    WritesTo (encodeList (memoOf accounts) accounts) (listItem (joined accountChangesLaw accounts))
      (allSlots accounts).length := by
  have rows := @encodeAccounts_writes (memoOf accounts).slotLens [] [] accounts
    (by simp [memoOf]) fits
  rw [List.length_nil, Nat.zero_add] at rows
  exact (Encoder.listPrefix_writes fits).bind rows

/-- The memoised encoder succeeds exactly when the encoding fits, and returns it. -/
theorem encodeAlloc_eq_ok (list : BlockAccessList) : encodeAlloc list.accounts = .ok encoded ↔
      encoded.bytes = blockAccessListLaw.encode list.accounts := by
  obtain ⟨accounts, resident⟩ := list
  obtain ⟨counts, countRun, writeKeys⟩ := count_run accounts { accounts := accounts.length } (by
    simpa [Counts.total] using resident)
  have memoBytes := memoBytes_le accounts
  have keys : counts.storageWriteKeys = (allSlots accounts).length := by simpa using writeKeys
  have accountMemo : mulUsize accounts.length accountLensSize =
      some (accounts.length * accountLensSize) := if_pos (by omega)
  have slotMemo : mulUsize counts.storageWriteKeys slotLensSize =
      some (counts.storageWriteKeys * slotLensSize) := if_pos (by rw [keys]; omega)
  have memoSum : addUsize (accounts.length * accountLensSize)
      (counts.storageWriteKeys * slotLensSize) = some _ := addUsize_eq (by rw [keys]; omega)
  have sizes := sizeAccounts_memo accounts (Nat.le_of_eq keys.symm)
  have shorter := itemLength_succ_le (joined accountChangesLaw accounts)
  have encodeEq : blockAccessListLaw.encode accounts =
      listItem (joined accountChangesLaw accounts) := rfl
  simp only [encodeAlloc, count, countRun, accountMemo, slotMemo, memoSum, Checked.liftM_some,
    Checked.ok_bind, encodeEq]
  by_cases payloadFits : (joined accountChangesLaw accounts).length ≤ usizeMax
  swap
  · -- the sizing walk traps or reports the overflow
    have encodedFits := encoded.fits
    constructor
    · intro run
      obtain ⟨memo, sized, -⟩ := Checked.bind_eq_ok.mp run
      exact absurd ((sizes memo).mp sized).2 payloadFits
    · intro same
      rw [same] at encodedFits
      omega
  have filled : (memoOf accounts).slotLens.length = counts.storageWriteKeys := by
    simp [memoOf, keys]
  have topPayload : (memoOf accounts).topPayload = (joined accountChangesLaw accounts).length := rfl
  simp only [sizes.run payloadFits, Checked.ok_bind, assert_true filled, Checked.liftM_some,
    topPayload, listEncodedLen_eq payloadFits]
  by_cases fits : (listItem (joined accountChangesLaw accounts)).length ≤ usizeMax
  · have walked := encodeList_writes accounts payloadFits (Encoder.init _ fits)
      (by simp [Encoder.init])
    have written : ((Encoder.init _ fits).advance (listItem (joined accountChangesLaw accounts))
        (by simp [Encoder.init])).written = listItem (joined accountChangesLaw accounts) := rfl
    have whole : assert True = some () := assert_true trivial
    simp only [lengthResult_fits fits, Checked.ok_bind, dif_pos fits, walked, written, whole,
      Checked.liftM_some, bufferSlice_eq fits, Checked.ok.injEq, Slice.ext_iff]
    exact eq_comm
  · have encodedFits := encoded.fits
    have overflow : encoded.bytes ≠ listItem (joined accountChangesLaw accounts) := by
      intro same
      rw [same] at encodedFits
      exact fits encodedFits
    simp [lengthResult, fits, overflow]

/-! ## Decoding -/

/-- An encoding of many items allocates at most one row per item. -/
def Slim {α : Type} {codec : Codec α} (law : LawfulCodec codec) : Prop :=
  ∀ value, (law.cost value).bytes + maxAggregateValueSize ≤
    maxAggregateValueSize * (law.cost value).items

def SlimFields {φ : Type} {fields : Fields φ} (law : LawfulFields fields) : Prop :=
  ∀ values, (law.cost values).bytes ≤ maxAggregateValueSize * (law.cost values).items

theorem maxAggregateValueSize_eq : maxAggregateValueSize = 104 := rfl

theorem SlimFields.nil : SlimFields LawfulFields.nil := fun _ => Nat.zero_le _

theorem SlimFields.cons {α φ : Type} {field : Codec α} {rest : Fields φ}
    {law : LawfulCodec field} {restLaw : LawfulFields rest} (slim : Slim law)
    (restSlim : SlimFields restLaw) : SlimFields (LawfulFields.cons law restLaw) := by
  intro values
  have first := slim values.1
  have others := restSlim values.2
  simp only [LawfulFields.cons, Cost.add_items, Cost.add_bytes]
  rw [Nat.mul_add]
  omega

theorem Slim.struct {α φ : Type} {fields : Fields φ} {law : LawfulFields fields} {sizeOf : Nat}
    {toFields : α → φ} {ofFields : φ → α} (slim : SlimFields law)
    (left : ∀ value, ofFields (toFields value) = value)
    (right : ∀ values, toFields (ofFields values) = values) :
    Slim (LawfulCodec.struct law left right : LawfulCodec (.struct sizeOf fields _ _)) := by
  intro value
  have inner := slim (toFields value)
  simp only [LawfulCodec.struct, Cost.add_items, Cost.add_bytes, Cost.item_items, Cost.item_bytes]
  rw [Nat.mul_add]
  omega

theorem Slim.listOf {α : Type} {codec : Codec α} {law : LawfulCodec codec} (slim : Slim law)
    (small : codec.sizeOf ≤ maxAggregateValueSize) : Slim law.listOf := by
  intro values
  have rows : codec.sizeOf * values.length + (costs law values).bytes ≤
      maxAggregateValueSize * (costs law values).items := by
    induction values with
    | nil => exact Nat.zero_le _
    | cons value values ih =>
        have first := slim value
        rw [costs_cons, Cost.add_items, Cost.add_bytes, List.length_cons, Nat.mul_succ, Nat.mul_add]
        omega
  simp only [LawfulCodec.listOf, Cost.add_items, Cost.add_bytes, Cost.item_items, Cost.item_bytes,
    Cost.allocation_items, Cost.allocation_bytes, Nat.zero_add]
  rw [Nat.mul_add]
  omega

theorem Slim.scalar {α : Type} {codec : Codec α} {law : LawfulCodec codec}
    (one : ∀ value, law.cost value = .item) : Slim law := by
  intro value
  rw [one value, Cost.item_items, Cost.item_bytes]
  omega

theorem storageChangeLaw_slim : Slim storageChangeLaw :=
  .struct (.cons (.scalar fun _ => rfl) (.cons (.scalar fun _ => rfl) .nil)) _ _

theorem balanceChangeLaw_slim : Slim balanceChangeLaw :=
  .struct (.cons (.scalar fun _ => rfl) (.cons (.scalar fun _ => rfl) .nil)) _ _

theorem nonceChangeLaw_slim : Slim nonceChangeLaw :=
  .struct (.cons (.scalar fun _ => rfl) (.cons (.scalar fun _ => rfl) .nil)) _ _

theorem codeChangeLaw_slim : Slim codeChangeLaw :=
  .struct (.cons (.scalar fun _ => rfl) (.cons (.scalar fun _ => rfl) .nil)) _ _

theorem slotChangesLaw_slim : Slim slotChangesLaw :=
  .struct (.cons (.scalar fun _ => rfl)
    (.cons (storageChangeLaw_slim.listOf (by decide)) .nil)) _ _

theorem accountChangesLaw_slim : Slim accountChangesLaw :=
  .struct (.cons (.scalar fun _ => rfl)
    (.cons (slotChangesLaw_slim.listOf (by decide))
      (.cons (Slim.listOf (.scalar fun _ => rfl) (by decide))
        (.cons (balanceChangeLaw_slim.listOf (by decide))
          (.cons (nonceChangeLaw_slim.listOf (by decide))
            (.cons (codeChangeLaw_slim.listOf (by decide)) .nil)))))) _ _

theorem blockAccessListLaw_slim : Slim blockAccessListLaw :=
  accountChangesLaw_slim.listOf (by decide)

/-- Bytes that `copyCodeBytes` allocates. -/
def codeBytes (accounts : List AccountChanges) : Nat :=
  (accounts.map fun account => (account.codeChanges.map fun change => change.newCode.len).sum).sum

theorem sum_le_joined {α : Type} {codec : Codec α} (law : LawfulCodec codec) {size : α → Nat}
    (covers : ∀ value, size value ≤ (law.encode value).length) (values : List α) :
    (values.map size).sum ≤ (joined law values).length := by
  induction values with
  | nil => exact Nat.le_refl _
  | cons value values ih =>
      have first := covers value
      rw [List.map_cons, List.sum_cons, joined_cons, List.length_append]
      omega

theorem bytesItem_length_ge (payload : List UInt8) : payload.length ≤ (bytesItem payload).length := by
  by_cases single : ∃ byte, payload = [byte] ∧ byte < 0x80
  · obtain ⟨byte, rfl, small⟩ := single
    rw [bytesItem_single small]
  · rw [bytesItem_eq fun byte only small => single ⟨byte, only, small⟩, List.length_append]
    omega

theorem codeBytes_le (accounts : List AccountChanges) :
    codeBytes accounts ≤ (blockAccessListLaw.encode accounts).length := by
  have codes : ∀ change : CodeChange, change.newCode.len ≤ (codeChangeLaw.encode change).length := by
    intro change
    have item := bytesItem_length_ge change.newCode.bytes
    have encodeEq : codeChangeLaw.encode change = listItem
        (uint32Law.encode change.blockAccessIndex ++ (bytesItem change.newCode.bytes ++ [])) := rfl
    have shorter := itemLength_succ_le
      (uint32Law.encode change.blockAccessIndex ++ (bytesItem change.newCode.bytes ++ []))
    rw [encodeEq]
    simp only [List.append_nil, List.length_append, Slice.len] at shorter item ⊢
    omega
  have rows : ∀ account : AccountChanges,
      (account.codeChanges.map fun change => change.newCode.len).sum ≤
        (accountChangesLaw.encode account).length := by
    intro account
    have total := accountPayload_length account
    have payloadShorter := itemLength_succ_le (accountPayload account)
    have codesShorter := itemLength_succ_le (joined codeChangeLaw account.codeChanges)
    have codesCovered := sum_le_joined codeChangeLaw codes account.codeChanges
    rw [accountChangesLaw_encode]
    omega
  have shorter := itemLength_succ_le (joined accountChangesLaw accounts)
  have covered := sum_le_joined accountChangesLaw rows accounts
  have encodeEq : blockAccessListLaw.encode accounts =
      listItem (joined accountChangesLaw accounts) := rfl
  rw [encodeEq, codeBytes]
  omega

theorem costs_bytes {α : Type} {codec : Codec α} {law : LawfulCodec codec} {size : α → Nat}
    (sizes : ∀ value, (law.cost value).bytes = size value) (values : List α) :
    (costs law values).bytes = (values.map size).sum := by
  induction values with
  | nil => rfl
  | cons value values ih =>
      rw [costs_cons, Cost.add_bytes, sizes, ih, List.map_cons, List.sum_cons]

theorem costs_bytes_zero {α : Type} {codec : Codec α} {law : LawfulCodec codec}
    (none : ∀ value, (law.cost value).bytes = 0) (values : List α) :
    (costs law values).bytes = 0 := by
  rw [costs_bytes none]
  simp

theorem slotCost_bytes (slot : SlotChanges) :
    (slotChangesLaw.cost slot).bytes = 48 * slot.changes.length := by
  have rows : (costs storageChangeLaw slot.changes).bytes = 0 :=
    costs_bytes_zero (fun _ => rfl) slot.changes
  change 0 + (0 + ((0 + (48 * slot.changes.length + (costs storageChangeLaw slot.changes).bytes)) +
    0)) = 48 * slot.changes.length
  omega

theorem accountCost_bytes (account : AccountChanges) :
    104 + (accountChangesLaw.cost account).bytes +
      (account.codeChanges.map fun change => change.newCode.len).sum = account.residentBytes := by
  have slots := costs_bytes slotCost_bytes account.storageChanges
  have reads : (costs uint256Law account.storageReads).bytes = 0 :=
    costs_bytes_zero (fun _ => rfl) _
  have balances : (costs balanceChangeLaw account.balanceChanges).bytes = 0 :=
    costs_bytes_zero (fun _ => rfl) _
  have nonces : (costs nonceChangeLaw account.nonceChanges).bytes = 0 :=
    costs_bytes_zero (fun _ => rfl) _
  have codes : (costs codeChangeLaw account.codeChanges).bytes = 0 :=
    costs_bytes_zero (fun _ => rfl) _
  have cost : (accountChangesLaw.cost account).bytes = 0 + (0 +
      ((0 + (48 * account.storageChanges.length +
          (costs slotChangesLaw account.storageChanges).bytes)) +
        ((0 + (32 * account.storageReads.length + (costs uint256Law account.storageReads).bytes)) +
          ((0 + (48 * account.balanceChanges.length +
              (costs balanceChangeLaw account.balanceChanges).bytes)) +
            ((0 + (16 * account.nonceChanges.length +
                (costs nonceChangeLaw account.nonceChanges).bytes)) +
              ((0 + (24 * account.codeChanges.length +
                (costs codeChangeLaw account.codeChanges).bytes)) + 0)))))) := rfl
  rw [List.sum_map_mul_left] at slots
  rw [residentBytes_eq, cost]
  omega

/-- A decode charges what the rows take in memory. -/
theorem residentBytes_cost (accounts : List AccountChanges) :
    (blockAccessListLaw.cost accounts).bytes + codeBytes accounts = residentBytes accounts := by
  have cost : (blockAccessListLaw.cost accounts).bytes =
      0 + (104 * accounts.length + (costs accountChangesLaw accounts).bytes) := rfl
  rw [cost, codeBytes, residentBytes]
  clear cost
  induction accounts with
  | nil => rfl
  | cons account accounts ih =>
      have row := accountCost_bytes account
      simp only [List.map_cons, List.sum_cons, List.length_cons, costs_cons, Cost.add_bytes]
      omega

theorem copyCodes_run (changes : List CodeChange) (budget : Budget)
    (room : budget.allocatedBytes + (changes.map fun change => change.newCode.len).sum ≤
      min budget.limits.maxAllocatedBytes usizeMax) :
    copyCodes changes budget =
      .ok (budget.charge (.allocation (changes.map fun change => change.newCode.len).sum)) := by
  induction changes generalizing budget with
  | nil => rfl
  | cons change changes ih =>
      rw [List.map_cons, List.sum_cons] at room ⊢
      have ensured := Budget.ensureAllocation_eq_ok.mpr
        (show budget.allocatedBytes + change.newCode.len ≤ _ by omega)
      have committed := Budget.commitAllocation_eq
        (show budget.allocatedBytes + change.newCode.len ≤ usizeMax by omega)
      have rest := ih (budget.charge (.allocation change.newCode.len)) (by
        simp only [Budget.charge, Cost.allocation_bytes]
        omega)
      rw [copyCodes, ensured, Checked.ok_bind, committed, Checked.liftM_some, Checked.ok_bind, rest,
        Budget.charge_charge]
      rfl

theorem copyCodes_sound {changes : List CodeChange} (run : copyCodes changes budget = .ok after) :
    budget.allocatedBytes + (changes.map fun change => change.newCode.len).sum ≤
      max budget.allocatedBytes usizeMax := by
  induction changes generalizing budget with
  | nil => exact le_max_left _ _
  | cons change changes ih =>
      rw [List.map_cons, List.sum_cons]
      obtain ⟨⟨⟩, ensured, run⟩ := Checked.bind_eq_ok.mp run
      have room := Budget.ensureAllocation_eq_ok.mp ensured
      rw [Budget.commitAllocation_eq (by omega), Checked.liftM_some, Checked.ok_bind] at run
      have rest := ih run
      simp only [Budget.charge, Cost.allocation_bytes] at rest
      omega

theorem copyCodeBytes_run (accounts : List AccountChanges) (budget : Budget)
    (room : budget.allocatedBytes + codeBytes accounts ≤
      min budget.limits.maxAllocatedBytes usizeMax) :
    copyCodeBytes accounts budget = .ok (budget.charge (.allocation (codeBytes accounts))) := by
  induction accounts generalizing budget with
  | nil => rfl
  | cons account accounts ih =>
      have split : codeBytes (account :: accounts) =
          (account.codeChanges.map fun change => change.newCode.len).sum + codeBytes accounts := by
        simp [codeBytes]
      rw [split] at room ⊢
      have rest := ih (budget.charge
        (.allocation (account.codeChanges.map fun change => change.newCode.len).sum)) (by
          simp only [Budget.charge, Cost.allocation_bytes]
          omega)
      rw [copyCodeBytes, copyCodes_run _ _ (by omega), Checked.ok_bind, rest, Budget.charge_charge]
      rfl

theorem copyCodes_charge {changes : List CodeChange} (run : copyCodes changes budget = .ok after) :
    after.allocatedBytes =
      budget.allocatedBytes + (changes.map fun change => change.newCode.len).sum := by
  induction changes generalizing budget with
  | nil =>
      cases run
      rfl
  | cons change changes ih =>
      obtain ⟨⟨⟩, ensured, run⟩ := Checked.bind_eq_ok.mp run
      have room := Budget.ensureAllocation_eq_ok.mp ensured
      rw [Budget.commitAllocation_eq (by omega), Checked.liftM_some, Checked.ok_bind] at run
      rw [ih run, List.map_cons, List.sum_cons]
      simp only [Budget.charge, Cost.allocation_bytes]
      omega

theorem copyCodeBytes_sound {accounts : List AccountChanges}
    (run : copyCodeBytes accounts budget = .ok after) :
    budget.allocatedBytes + codeBytes accounts ≤ max budget.allocatedBytes usizeMax := by
  induction accounts generalizing budget with
  | nil => exact le_max_left _ _
  | cons account accounts ih =>
      have split : codeBytes (account :: accounts) =
          (account.codeChanges.map fun change => change.newCode.len).sum + codeBytes accounts := by
        simp [codeBytes]
      obtain ⟨middle, firstRun, restRun⟩ := Checked.bind_eq_ok.mp run
      have first := copyCodes_sound firstRun
      have charged := copyCodes_charge firstRun
      have rest := ih restRun
      rw [split]
      omega

/-! ## The round trip -/

theorem decode_encode (list : BlockAccessList)
    (content : encoded.bytes = blockAccessListLaw.encode list.accounts) :
    decode encoded = .ok list.accounts := by
  have resident := list.resident
  have cost := residentBytes_cost list.accounts
  have slim := blockAccessListLaw_slim list.accounts
  have visits := blockAccessListLaw.visits_le list.accounts
  have codes := codeBytes_le list.accounts
  have encodedFits := encoded.fits
  rw [← content] at visits codes
  rw [maxAggregateValueSize_eq] at slim
  have limits : inputDecodeLimits encoded.len =
      ⟨6, encoded.bytes.length, min (encoded.bytes.length * 105) usizeMax⟩ := rfl
  have affords : (Budget.init (inputDecodeLimits encoded.len)).Affords 0
      (blockAccessListLaw.cost list.accounts) blockAccessListLaw.levels := by
    refine ⟨?_, ?_, .inr ?_⟩
    · simp only [Budget.init, limits]
      omega
    · simp only [Budget.init, limits]
      omega
    · simp only [Budget.init, limits]
      decide
  have run := decodeAllocWithBudgetAs_run blockAccessListLaw content affords
  have copied := copyCodeBytes_run list.accounts
    ((Budget.init (inputDecodeLimits encoded.len)).charge (blockAccessListLaw.cost list.accounts))
    (by
      simp only [Budget.charge, Budget.init, limits]
      omega)
  rw [decode, decodeWithBudget, run, Checked.ok_bind]
  simp only [copied, Checked.ok_bind, Checked.pure_eq]

theorem decode_sound {accounts : List AccountChanges} (run : decode encoded = .ok accounts) :
    residentBytes accounts ≤ usizeMax ∧ encoded.bytes = blockAccessListLaw.encode accounts := by
  obtain ⟨⟨decoded, last⟩, withBudget, run⟩ := Checked.bind_eq_ok.mp run
  cases run
  obtain ⟨⟨decoded, budget⟩, rowsRun, copyRun⟩ := Checked.bind_eq_ok.mp withBudget
  obtain ⟨after, copied, pairEq⟩ := Checked.bind_eq_ok.mp copyRun
  cases pairEq
  obtain ⟨content, charged, allocated⟩ := decodeAllocWithBudgetAs_sound blockAccessListLaw rowsRun
  have copies := copyCodeBytes_sound copied
  rw [charged] at copies
  simp only [Budget.charge, Budget.init, Nat.zero_add] at allocated copies
  refine ⟨?_, content⟩
  rw [← residentBytes_cost]
  omega

/-- The access-list codec round trips in both directions, and the memoised
encoder agrees with the reflection codec: on every list in memory, whether or
not `validate` accepts it, and on every byte string. -/
theorem blockAccessList_roundTrip :
    (∀ (list : BlockAccessList) (encoded : Slice), encodeAlloc list.accounts = .ok encoded →
      decode encoded = .ok list.accounts) ∧
    (∀ (encoded : Slice) (accounts : List AccountChanges), decode encoded = .ok accounts →
      encodeAlloc accounts = .ok encoded) ∧
    (∀ (list : BlockAccessList) (encoded : Slice),
      encodeAlloc list.accounts = .ok encoded ↔
        encodeAllocAs blockAccessListCodec list.accounts = .ok encoded) ∧
    (∀ (list : BlockAccessList) (len : Nat),
      blockAccessListCodec.encodedLen list.accounts = .ok len →
        ∃ encoded : Slice, encodeAlloc list.accounts = .ok encoded ∧ encoded.len = len) := by
  refine ⟨?_, ?_, ?_, ?_⟩
  · intro list encoded run
    exact decode_encode list ((encodeAlloc_eq_ok list).mp run)
  · intro encoded accounts run
    obtain ⟨resident, content⟩ := decode_sound run
    exact (encodeAlloc_eq_ok ⟨accounts, resident⟩).mpr content
  · intro list encoded
    rw [encodeAlloc_eq_ok, encodeAllocAs_eq_ok blockAccessListLaw]
  · intro list len run
    rw [blockAccessListLaw.encodedLen_eq] at run
    obtain ⟨rfl, fits⟩ := lengthResult_eq_ok.mp run
    exact ⟨⟨_, fits⟩, (encodeAlloc_eq_ok list).mpr rfl, rfl⟩

end EvmZig.Bal
