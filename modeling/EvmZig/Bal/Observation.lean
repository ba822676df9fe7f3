import EvmZig.State.Types
import EvmZig.Bal.ShardFold

/-!
# Account fields of an observation (`eth/bal/observation.zig`)

The access list is rebuilt from the records of a sealed attempt.  A record
gives the fields that its effect says were written.
-/

set_option autoImplicit false

namespace EvmZig.State

/-- `AccountEffect.any` of `src/state.zig`. -/
def AccountEffect.any (effect : AccountEffect) : Bool :=
  effect.balanceWritten || effect.nonceWritten || effect.codeWritten || effect.accountDeleted ||
    effect.createdContract || effect.selfdestruct || effect.storageWiped

/-- `AccountObservationRecord` of `src/state.zig`. -/
structure AccountObservationRecord where
  address : Address
  original : Option Account
  current : Option Account
  observation : AccountObservation
  effect : AccountEffect
  deriving DecidableEq

end EvmZig.State

namespace EvmZig.Bal

open EvmZig.State Zig

structure AccountFields where
  balance : Option ValueObservation := none
  nonce : Option NonceObservation := none
  code : Option CodeObservation := none
  storageWiped : Bool := false
  deriving DecidableEq

def accountOrZero (value : Option Account) : Account := value.getD {}

variable {code : CodeHash → Option Slice} {record : AccountObservationRecord} {fields : AccountFields}

end EvmZig.Bal
