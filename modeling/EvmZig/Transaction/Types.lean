import EvmZig.Zig.Unsigned
import EvmZig.State.Types

/-!
# Transaction values (`src/transaction/types.zig`, `src/transaction/blob.zig`)

One transaction, its environment, and what preparation makes of them.  Encoded
fields keep the width of their type; derived gas and fees are naturals.
-/

set_option autoImplicit false

namespace EvmZig.Transaction

open Zig
open EvmZig.State (Account CodeHash)

inductive TxKind where
  | legacy
  | accessList
  | dynamicFee
  | blob
  | setCode
  deriving DecidableEq, Repr

inductive SenderCodeKind where
  | empty
  | delegation
  | nonDelegating
  deriving DecidableEq, Repr

structure AccessListCounts where
  addresses : Nat := 0
  storageKeys : Nat := 0
  deriving DecidableEq, Repr

structure AccessListEntry where
  address : Address
  storageKeys : List U256
  deriving DecidableEq

structure AuthorizationTuple where
  chainId : U256
  target : Address
  signer : Address
  nonce : U64
  yParity : U256
  legacyV : Option U256
  r : U256
  s : U256
  deriving DecidableEq

structure FeeFields where
  gasPrice : U256 := 0
  maxFeePerGas : Option U256 := none
  maxPriorityFeePerGas : Option U256 := none
  maxFeePerBlobGas : Option U256 := none
  deriving DecidableEq

structure Transaction where
  kind : TxKind := .legacy
  sender : Address
  chainId : Option U256 := none
  nonce : Option U256 := none
  gasLimit : U64
  /-- `to`. -/
  recipient : Option Address := none
  value : U256 := 0
  input : List UInt8 := []
  gasPrice : U256 := 0
  maxFeePerGas : Option U256 := none
  maxPriorityFeePerGas : Option U256 := none
  maxFeePerBlobGas : Option U256 := none
  blobHashes : List U256 := []
  accessList : List AccessListEntry := []
  authorizationList : List AuthorizationTuple := []
  authorizationCount : Option Nat := none
  deriving DecidableEq

structure TransactionView where
  kind : TxKind
  sender : Address
  chainId : Option U256
  nonce : Option U256
  gasLimit : U64
  recipient : Option Address
  value : U256
  input : List UInt8
  accessList : List AccessListEntry
  authorizationList : List AuthorizationTuple
  authorizationCount : Nat
  fee : FeeFields
  blobHashes : List U256
  deriving DecidableEq

def transactionView (tx : Transaction) : TransactionView where
  kind := tx.kind
  sender := tx.sender
  chainId := tx.chainId
  nonce := tx.nonce
  gasLimit := tx.gasLimit
  recipient := tx.recipient
  value := tx.value
  input := tx.input
  accessList := tx.accessList
  authorizationList := tx.authorizationList
  authorizationCount := tx.authorizationCount.getD tx.authorizationList.length
  fee :=
    { gasPrice := tx.gasPrice
      maxFeePerGas := tx.maxFeePerGas
      maxPriorityFeePerGas := tx.maxPriorityFeePerGas
      maxFeePerBlobGas := tx.maxFeePerBlobGas }
  blobHashes := tx.blobHashes

structure BlobParams where
  target : U64
  max : U64
  baseFeeUpdateFraction : U256
  deriving DecidableEq

/-- The blob schedule, as far as preparation reads it. -/
structure BlobSchedule where
  target : Nat
  max : Nat
  maxPerTransaction : Nat
  gasPerBlob : Nat
  baseFeeUpdateFraction : Nat
  hashVersion : Nat
  deriving DecidableEq, Repr

namespace BlobSchedule

def withParams (self : BlobSchedule) (params : BlobParams) : BlobSchedule :=
  { self with
    target := params.target
    max := params.max
    baseFeeUpdateFraction := params.baseFeeUpdateFraction }

def blobGasForSchedule (self : BlobSchedule) (blobCount : Nat) : Option Nat :=
  mulChecked 256 blobCount self.gasPerBlob

end BlobSchedule

def blobVersion (hash : U256) : Nat := hash.val >>> 248

/-- `blobGasForCount`, the same function in validation and in settlement. -/
def blobGasForCount (blobSchedule : Option BlobSchedule) (blobCount : Nat) : Option Nat :=
  if blobCount = 0 then some 0
  else do
    let schedule ← blobSchedule
    schedule.blobGasForSchedule blobCount

structure Env where
  chainId : U256 := 1
  coinbase : Address
  number : U64 := 0
  slotNumber : U64 := 0
  timestamp : U64 := 0
  gasLimit : U64 := 0
  prevRandao : U256 := 0
  baseFee : U256 := 0
  blobBaseFee : U256 := 0
  blobParams : Option BlobParams := none
  deriving DecidableEq

structure TransactionEnvironment where
  origin : Address
  gasPrice : Nat
  blobHashes : List U256
  deriving DecidableEq

structure BlockEnvironment where
  coinbase : Address
  number : U64
  slotNumber : U64
  timestamp : U64
  gasLimit : U64
  difficultyOrPrevRandao : U256
  baseFee : U256
  blobBaseFee : U256
  deriving DecidableEq

structure ExecutionContext where
  chainId : U256
  block : BlockEnvironment
  transaction : TransactionEnvironment
  deriving DecidableEq

def Env.executionContext (self : Env) (transaction : TransactionEnvironment) : ExecutionContext where
  chainId := self.chainId
  block :=
    { coinbase := self.coinbase
      number := self.number
      slotNumber := self.slotNumber
      timestamp := self.timestamp
      gasLimit := self.gasLimit
      difficultyOrPrevRandao := self.prevRandao
      baseFee := self.baseFee
      blobBaseFee := self.blobBaseFee }
  transaction := transaction

/-- `execution.Message.init` for a transaction without a salt. -/
inductive Message where
  | call (sender recipient : Address) (input : List UInt8) (value : U256)
  | create (sender recipient : Address) (initCode : List UInt8) (value : U256)
  deriving DecidableEq

def Message.sender : Message → Address
  | .call sender .. => sender
  | .create sender .. => sender

def effectiveGasPrice (env : Env) (view : TransactionView) : Nat :=
  match view.kind with
  | .legacy | .accessList => view.fee.gasPrice
  | .dynamicFee | .blob | .setCode =>
      match view.fee.maxFeePerGas with
      | none => view.fee.gasPrice
      | some maxFee =>
          let priorityFee : U256 := view.fee.maxPriorityFeePerGas.getD 0
          let cappedPriority := addSat 256 env.baseFee priorityFee
          min maxFee.val cappedPriority

structure BlockGas where
  total : Nat := 0
  regular : Nat := 0
  state : Nat := 0
  deriving DecidableEq, Repr

namespace BlockGas

def legacy (used : Nat) : BlockGas where
  total := used
  regular := used

def fromDimensions (regular state : Nat) : BlockGas where
  total := max regular state
  regular := regular
  state := state

end BlockGas

/-- `PreparationBlockProgress`. -/
structure BlockProgress where
  receiptGasUsed : Nat := 0
  blockGas : BlockGas := {}
  deriving DecidableEq, Repr

structure ExecutionGas where
  regularLeft : Nat
  reservoir : Nat
  deriving DecidableEq, Repr

structure TransactionScope where
  context : ExecutionContext
  accessList : List AccessListEntry
  authorizationList : List AuthorizationTuple
  authorizationCount : Nat
  deriving DecidableEq

end EvmZig.Transaction
