import EvmZig.State.Capacity
import EvmZig.Execution.Conservation
import EvmZig.Transaction.Balance
import EvmZig.Transaction.Destruction
import EvmZig.Execution.Spawning
import EvmZig.State.OrderedMap
import EvmZig.State.SparseRuns
import EvmZig.Mpt.Cache
import EvmZig.Mpt.CompactPath
import EvmZig.Code.PreparedRuns
import EvmZig.Transaction.BlobFee
import EvmZig.Precompile.ModexpCalls
import EvmZig.Uint256.Modular
import EvmZig.Execution.NetMetering
import EvmZig.Execution.MemoryRuns
import EvmZig.Precompile.ModexpExact
import EvmZig.Bal.DecodeLimits
import EvmZig.Uint256.Exponentiation
import EvmZig.Mpt.Acyclic
import EvmZig.Stateless.BlockSize
import EvmZig.State.Touching
import EvmZig.Bal.ShardRuns
import EvmZig.Differential.Agreement
import EvmZig.Ssz.TreeExact
