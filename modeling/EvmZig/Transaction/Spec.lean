import EvmZig.Transaction.Types

/-!
# Transaction and settlement rules of the forks (`src/spec.zig`, `src/eth/spec.zig`)

The parts of an exact specification that preparation, charging and settlement
read.  Every fork extends its predecessor, as in the source.
-/

set_option autoImplicit false

namespace EvmZig.Transaction

open Zig

structure IntrinsicGasOptions where
  authorizationCount : Nat := 0
  accessListCounts : AccessListCounts := {}
  isCreate : Bool := false
  value : U256 := 0
  isSelfTransfer : Bool := false
  createsAccount : Bool := false
  deriving DecidableEq

structure FloorGasInput where
  input : List UInt8
  options : IntrinsicGasOptions := {}

/-- Where a function of the specification returns an option, `none` is
`error.Overflow`. -/
structure TransactionSpec where
  activeKinds : List TxKind
  allowsContractCreation : TxKind → Bool
  requiresAuthorizationList : TxKind → Bool
  rejectsNonDelegatingSenderCode : TxKind → Bool
  isDelegationCode : List UInt8 → Bool
  blobSchedule : Option BlobSchedule
  maxInitcodeSize : Nat
  intrinsicBaseGas : IntrinsicGasOptions → Option Nat
  createIntrinsicGas : Nat
  calldataGas : List UInt8 → Option Nat
  accessListAddressGas : Nat
  storageKeyGas : Nat
  accessListDataGas : AccessListCounts → Option Nat
  initcodeWordGas : Nat
  authorizationIntrinsicGas : Nat
  /-- The inner option is the absence of a floor. -/
  floorGas : FloorGasInput → Option (Option Nat)
  regularGasCap : Option Nat
  intrinsicRegularGasLimit : Option Nat
  totalGasLimit : Option Nat

structure SettlementSpec where
  baseFeeActive : Bool
  gasRefundCapDivisor : Nat
  divisorPositive : 0 < gasRefundCapDivisor
  usesStateGasAccounting : Bool
  appliesCalldataFloorToBlockRegularGas : Bool
  touchesFeeRecipientOnZeroPayment : Bool

structure Spec where
  transaction : TransactionSpec
  settlement : SettlementSpec

/-! ## Constants -/

def gasPerBlob : Nat := 131072
def accessListAddressCost : Nat := 2400
def accessListStorageKeyCost : Nat := 1900
def accessListAddressDataGas : Nat := 1280
def accessListStorageKeyDataGas : Nat := 2048
def createTransactionGas : Nat := 32000
def initcodeWordCost : Nat := 2
def maxInitcodeSize : Nat := 49152
def transactionCost : Nat := 21000
def txDataZeroCost : Nat := 4
def txDataNonzeroCost : Nat := 68
def eip2028TxDataNonzeroCost : Nat := 16

namespace Eip7623
def totalCostFloorPerToken : Nat := 10
def tokensPerNonzeroByte : Nat := 4
end Eip7623

namespace Eip7702
def delegationDesignator : List UInt8 := [0xef, 0x01, 0x00]
def delegationCodeLen : Nat := 23
def perEmptyAccountCost : Nat := 25000
end Eip7702

namespace Eip7825
def maxTransactionGasLimit : Nat := 16777216
end Eip7825

namespace Eip7976
def floorCostPerNonzeroByte : Nat := 16 * Eip7623.tokensPerNonzeroByte
end Eip7976

namespace Eip8037
def maxTransactionGasLimit : Nat := 0xffffffff
def txBaseCost : Nat := 12000
def txValueCost : Nat := 6000
def regularPerAuthBaseCost : Nat := 7816
def maxInitcodeSize : Nat := 131072
end Eip8037

namespace Eip8038
def coldAccountAccessCost : Nat := 3000
def accountWriteCost : Nat := 9000
def createAccessCost : Nat := accountWriteCost + coldAccountAccessCost
def accessListAddressCost : Nat := 2900
def accessListStorageKeyCost : Nat := 2000
end Eip8038

/-! ## Semantics -/

namespace Semantics

def allowsContractCreation (kind : TxKind) : Bool :=
  kind = .legacy || kind = .accessList || kind = .dynamicFee

def requiresAuthorizationList (kind : TxKind) : Bool := kind = .setCode

def rejectsSenderCodeBeforeLondon (kind : TxKind) : Bool := kind = .setCode

def rejectsAllSenderCode (_ : TxKind) : Bool := true

def noDelegationCode (_ : List UInt8) : Bool := false

def eip7702DelegationCode (code : List UInt8) : Bool :=
  code.length = Eip7702.delegationCodeLen && code.take 3 = Eip7702.delegationDesignator

def legacyIntrinsicBase (_ : IntrinsicGasOptions) : Option Nat := some transactionCost

def amsterdamIntrinsicBase (options : IntrinsicGasOptions) : Option Nat := do
  let gas := Eip8037.txBaseCost
  let gas ←
    if options.isCreate then addChecked 64 gas Eip8038.createAccessCost
    else if !options.isSelfTransfer then addChecked 64 gas Eip8038.coldAccountAccessCost
    else some gas
  if options.value ≠ 0 ∧ !options.isCreate ∧ !options.isSelfTransfer then
    addChecked 64 gas Eip8037.txValueCost
  else some gas

def calldataCost (input : List UInt8) (nonzeroCost : Nat) : Option Nat :=
  input.foldlM (fun gas byte =>
    addChecked 64 gas (if byte = 0 then txDataZeroCost else nonzeroCost)) 0

def calldataBeforeIstanbul (input : List UInt8) : Option Nat :=
  calldataCost input txDataNonzeroCost

def calldataSinceIstanbul (input : List UInt8) : Option Nat :=
  calldataCost input eip2028TxDataNonzeroCost

def noAccessListData (_ : AccessListCounts) : Option Nat := some 0

def accessListDataCost (counts : AccessListCounts) : Option Nat := do
  let addressCount ← castChecked 64 counts.addresses
  let storageKeyCount ← castChecked 64 counts.storageKeys
  let addressCost ← mulChecked 64 addressCount accessListAddressDataGas
  let storageKeyCost ← mulChecked 64 storageKeyCount accessListStorageKeyDataGas
  addChecked 64 addressCost storageKeyCost

def noFloor (_ : FloorGasInput) : Option (Option Nat) := some none

def calldataTokenCount (input : List UInt8) : Option Nat := do
  let zeroCount := input.countP (· = 0)
  let total ← castChecked 64 input.length
  let nonzeroTokens ← mulChecked 64 (total - zeroCount) Eip7623.tokensPerNonzeroByte
  addChecked 64 zeroCount nonzeroTokens

def pragueFloor (input : FloorGasInput) : Option (Option Nat) := do
  let tokens ← calldataTokenCount input.input
  let dataCost ← mulChecked 64 tokens Eip7623.totalCostFloorPerToken
  let gas ← addChecked 64 transactionCost dataCost
  return some gas

def amsterdamFloor (input : FloorGasInput) : Option (Option Nat) := do
  let bytes ← castChecked 64 input.input.length
  let dataCost ← mulChecked 64 bytes Eip7976.floorCostPerNonzeroByte
  let base ← amsterdamIntrinsicBase input.options
  let gas ← addChecked 64 base dataCost
  let data ← accessListDataCost input.options.accessListCounts
  let gas ← addChecked 64 gas data
  return some gas

end Semantics

/-! ## Forks -/

def cancunBlobSchedule : BlobSchedule where
  target := 3
  max := 6
  maxPerTransaction := 6
  gasPerBlob := gasPerBlob
  baseFeeUpdateFraction := 3338477
  hashVersion := 0x01

def pragueBlobSchedule : BlobSchedule :=
  { cancunBlobSchedule with
    target := 6, max := 9, maxPerTransaction := 9, baseFeeUpdateFraction := 5007716 }

def osakaBlobSchedule : BlobSchedule := { pragueBlobSchedule with maxPerTransaction := 6 }

def amsterdamBlobSchedule : BlobSchedule :=
  { osakaBlobSchedule with target := 14, max := 21, baseFeeUpdateFraction := 11684671 }

def frontier : Spec where
  transaction :=
    { activeKinds := [.legacy]
      allowsContractCreation := Semantics.allowsContractCreation
      requiresAuthorizationList := Semantics.requiresAuthorizationList
      rejectsNonDelegatingSenderCode := Semantics.rejectsSenderCodeBeforeLondon
      isDelegationCode := Semantics.noDelegationCode
      blobSchedule := none
      maxInitcodeSize := usizeMax
      intrinsicBaseGas := Semantics.legacyIntrinsicBase
      createIntrinsicGas := 0
      calldataGas := Semantics.calldataBeforeIstanbul
      accessListAddressGas := accessListAddressCost
      storageKeyGas := accessListStorageKeyCost
      accessListDataGas := Semantics.noAccessListData
      initcodeWordGas := 0
      authorizationIntrinsicGas := 0
      floorGas := Semantics.noFloor
      regularGasCap := none
      intrinsicRegularGasLimit := none
      totalGasLimit := none }
  settlement :=
    { baseFeeActive := false
      gasRefundCapDivisor := 2
      divisorPositive := by decide
      usesStateGasAccounting := false
      appliesCalldataFloorToBlockRegularGas := false
      touchesFeeRecipientOnZeroPayment := true }

def homestead : Spec :=
  { frontier with
    transaction := { frontier.transaction with createIntrinsicGas := createTransactionGas } }

def spuriousDragon : Spec :=
  { homestead with
    settlement := { homestead.settlement with touchesFeeRecipientOnZeroPayment := false } }

def istanbul : Spec :=
  { spuriousDragon with
    transaction :=
      { spuriousDragon.transaction with calldataGas := Semantics.calldataSinceIstanbul } }

def berlin : Spec :=
  { istanbul with
    transaction := { istanbul.transaction with activeKinds := [.legacy, .accessList] } }

def london : Spec :=
  { berlin with
    transaction :=
      { berlin.transaction with
        activeKinds := [.legacy, .accessList, .dynamicFee]
        rejectsNonDelegatingSenderCode := Semantics.rejectsAllSenderCode }
    settlement :=
      { berlin.settlement with
        baseFeeActive := true, gasRefundCapDivisor := 5, divisorPositive := by decide } }

def shanghai : Spec :=
  { london with
    transaction :=
      { london.transaction with
        maxInitcodeSize := maxInitcodeSize, initcodeWordGas := initcodeWordCost } }

def cancun : Spec :=
  { shanghai with
    transaction :=
      { shanghai.transaction with
        activeKinds := [.legacy, .accessList, .dynamicFee, .blob]
        blobSchedule := some cancunBlobSchedule } }

def prague : Spec :=
  { cancun with
    transaction :=
      { cancun.transaction with
        activeKinds := [.legacy, .accessList, .dynamicFee, .blob, .setCode]
        isDelegationCode := Semantics.eip7702DelegationCode
        blobSchedule := some pragueBlobSchedule
        authorizationIntrinsicGas := Eip7702.perEmptyAccountCost
        floorGas := Semantics.pragueFloor } }

def osaka : Spec :=
  { prague with
    transaction :=
      { prague.transaction with
        blobSchedule := some osakaBlobSchedule
        regularGasCap := some Eip7825.maxTransactionGasLimit
        totalGasLimit := some Eip7825.maxTransactionGasLimit } }

def amsterdam : Spec where
  transaction :=
    { osaka.transaction with
      blobSchedule := some amsterdamBlobSchedule
      maxInitcodeSize := Eip8037.maxInitcodeSize
      intrinsicBaseGas := Semantics.amsterdamIntrinsicBase
      createIntrinsicGas := 0
      accessListAddressGas := Eip8038.accessListAddressCost
      storageKeyGas := Eip8038.accessListStorageKeyCost
      accessListDataGas := Semantics.accessListDataCost
      authorizationIntrinsicGas := Eip8037.regularPerAuthBaseCost
      floorGas := Semantics.amsterdamFloor
      intrinsicRegularGasLimit := some Eip7825.maxTransactionGasLimit
      totalGasLimit := some Eip8037.maxTransactionGasLimit }
  settlement :=
    { osaka.settlement with
      usesStateGasAccounting := true
      appliesCalldataFloorToBlockRegularGas := true }

inductive Revision where
  | frontier
  | frontierThawing
  | homestead
  | daoFork
  | tangerineWhistle
  | spuriousDragon
  | byzantium
  | constantinople
  | petersburg
  | istanbul
  | muirGlacier
  | berlin
  | london
  | arrowGlacier
  | grayGlacier
  | merge
  | shanghai
  | cancun
  | prague
  | osaka
  | amsterdam
  deriving DecidableEq, Repr

/-- `specAt`; forks that change none of these rules share a value. -/
def specAt : Revision → Spec
  | .frontier | .frontierThawing => Transaction.frontier
  | .homestead | .daoFork | .tangerineWhistle => Transaction.homestead
  | .spuriousDragon | .byzantium | .constantinople | .petersburg => Transaction.spuriousDragon
  | .istanbul | .muirGlacier => Transaction.istanbul
  | .berlin => Transaction.berlin
  | .london | .arrowGlacier | .grayGlacier | .merge => Transaction.london
  | .shanghai => Transaction.shanghai
  | .cancun => Transaction.cancun
  | .prague => Transaction.prague
  | .osaka => Transaction.osaka
  | .amsterdam => Transaction.amsterdam

/-- A specification that caps regular gas rejects what the cap cannot cover: it
limits the transaction, or what the transaction costs before it runs. -/
structure Spec.CapCovers (spec : Spec) : Prop where
  limited : ∀ {cap}, spec.transaction.regularGasCap = some cap →
    (∃ limit, spec.transaction.totalGasLimit = some limit ∧ limit ≤ cap) ∨
    ∃ limit, spec.transaction.intrinsicRegularGasLimit = some limit ∧ limit ≤ cap

theorem specAt_capCovers (revision : Revision) : (specAt revision).CapCovers := by
  constructor
  intro cap capped
  cases revision
  case osaka =>
    cases capped
    exact .inl ⟨_, rfl, le_rfl⟩
  case amsterdam =>
    cases capped
    exact .inr ⟨_, rfl, le_rfl⟩
  all_goals cases capped

end EvmZig.Transaction
