/-
00-hello-world-counter: an `i64` counter that anyone may increment and
its owner may reset to any value (`contract.rs`, `state.rs`, `msg.rs`).

Storage is one item, `STATE`: the count and the owner, the instantiating
sender. The workspace builds with `overflow-checks = true`, so the
`count += 1` of `Increment` panics at `i64::MAX` and the transaction
fails; the count is an `Int64`. `STATE.update` cannot fail on the load,
which `instantiate` always saves. `set_contract_version` is left out; a
response is its messages, and no handler builds one.
-/
import NibiruWasm.Cosmwasm.Std

namespace NibiruWasm.Counter

open Cosmwasm

/-- The contract's `anyhow::Error`: a message, or the panic of the
checked `i64` addition. -/
inductive ContractError
  | anyhow (msg : String)
  | panic (msg : String)
  deriving DecidableEq, Repr

/-- `State`. -/
structure State where
  count : Int64
  owner : String
  deriving DecidableEq, Repr

/-- `InstantiateMsg`. -/
structure InstantiateMsg where
  count : Int64
  deriving DecidableEq, Repr

/-- `ExecuteMsg`. -/
inductive ExecuteMsg
  | increment
  | reset (count : Int64)
  deriving DecidableEq, Repr

/-- `QueryMsg`. -/
inductive QueryMsg
  | count
  deriving DecidableEq, Repr

/-- `instantiate`: the sender owns the counter. -/
def instantiate (info : MessageInfo) (msg : InstantiateMsg) : State :=
  { count := msg.count, owner := info.sender }

/-- `state.count += 1` on an `i64` with overflow checks. -/
def incrementCount (count : Int64) : Except ContractError Int64 :=
  if count = Int64.maxValue then .error (.panic "attempt to add with overflow")
  else .ok (count + 1)

/-- `execute`. -/
def execute (state : State) (_env : Env) (info : MessageInfo) :
    ExecuteMsg → Except ContractError (State × List CosmosMsg)
  | .increment => do
      let count ← incrementCount state.count
      pure ({ state with count }, [])
  | .reset count =>
      let owner := state.owner
      if info.sender ≠ owner then
        .error (.anyhow ("Unauthorized: only the owner (" ++ owner ++ ") can use reset"))
      else .ok ({ state with count }, [])

/-- `query`: `Count` answers the whole state. -/
def query (state : State) : QueryMsg → State
  | .count => state

/-- One transaction: its environment, its sender and funds, its message. -/
structure Tx where
  env : Env
  info : MessageInfo
  msg : ExecuteMsg

/-- A transaction as the chain runs it. -/
def step (state : State) (tx : Tx) : Except ContractError (State × List CosmosMsg) :=
  execute state tx.env tx.info tx.msg

end NibiruWasm.Counter
