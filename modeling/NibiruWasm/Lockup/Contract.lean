/-
lockup: coins locked for a number of blocks, unlocked on request, and
withdrawn to their owner once the unlock period is over (`state.rs`,
`contract.rs`, `error.rs`).

A lock's lifecycle is not stored: `Lock::state` derives it from the
`funds_withdrawn` flag, the `end_block` and the current height, with
`u64::MAX` (`NOT_UNLOCKING_BLOCK_IDENTIFIER`) as the end block of a
lock whose unlock has not started. `Lock` saves one lock per coin sent,
under the ids of `LOCKS_ID`; `InitiateUnlock` sets the end block to the
height plus the duration, with `u64`'s panicking `+`; `WithdrawFunds`
sends a matured lock's coin to its owner and marks it withdrawn. Neither
of the last two reads the sender.

Events are left out; a response is its messages. Every handler fails
as a whole, a panic included.
-/
import NibiruWasm.Cosmwasm.Std
import NibiruWasm.Chain.Store

namespace NibiruWasm.Lockup

open Cosmwasm Chain

/-- `NOT_UNLOCKING_BLOCK_IDENTIFIER`: `u64::MAX`, the end block of a lock
whose unlock has not started. -/
def notUnlockingBlockIdentifier : ℕ := Uint64.MAX

/-- `Lock`. -/
structure Lock where
  id : ℕ
  coin : Coin
  owner : String
  durationBlocks : ℕ
  startBlock : ℕ
  endBlock : ℕ
  fundsWithdrawn : Bool
  deriving DecidableEq, Repr

/-- `LockState`. -/
inductive LockState
  | fundedPreUnlock
  | unlocking
  | matured
  | withdrawn
  deriving DecidableEq, Repr

/-- `Lock::state` at the current height. -/
def Lock.state (self : Lock) (currentBlock : ℕ) : LockState :=
  if self.fundsWithdrawn then .withdrawn
  else if self.endBlock = notUnlockingBlockIdentifier then .fundedPreUnlock
  else if currentBlock ≥ self.endBlock then .matured
  else .unlocking

/-- `ContractError`, the variants the handlers return. -/
inductive ContractError
  | std (e : StdError)
  | invalidLockDuration
  | invalidCoins (msg : String)
  | notFound (id : ℕ)
  | alreadyUnlocking (id : ℕ)
  | fundsAlreadyWithdrawn (id : ℕ)
  | notMatured (id : ℕ)
  deriving DecidableEq, Repr

/-- `ContractError`'s `Display`. -/
def ContractError.display : ContractError → String
  | .std e => e.display
  | .invalidLockDuration => "invalid lock duration"
  | .invalidCoins msg => "invalid coins: " ++ msg
  | .notFound id => "lock not found: " ++ toString id
  | .alreadyUnlocking id => "already unlocking: " ++ toString id
  | .fundsAlreadyWithdrawn id => "funds already withdrawn: " ++ toString id
  | .notMatured id => "not matured: " ++ toString id

/-- Contract storage after `instantiate`: `LOCKS_ID` and the `locks()`
map by id. Its four indexes are functions of the stored locks
(`Lockup.Query`). -/
structure State where
  locksId : ℕ
  locks : Store ℕ Lock

/-- `instantiate`: `LOCKS_ID` at zero, no locks. -/
def instantiate : State := ⟨0, ∅⟩

/-- `ExecuteMsg`. -/
inductive ExecuteMsg
  | lock (blocks : ℕ)
  | initiateUnlock (id : ℕ)
  | withdrawFunds (id : ℕ)
  deriving DecidableEq, Repr

/-- The lock `locks.update` finds under `id`: `lock.ok_or(NotFound(id))`. -/
def loadLock (locks : Store ℕ Lock) (id : ℕ) : Except ContractError Lock :=
  match locks.lookup id with
  | some lock => .ok lock
  | none => .error (.notFound id)

variable (s : State) (env : Env) (info : MessageInfo)

/-- `execute_withdraw_funds`: a matured lock's coin goes to its owner. -/
def executeWithdrawFunds (id : ℕ) : Except ContractError (State × List CosmosMsg) := do
  let lock ← loadLock s.locks id
  match lock.state env.block.height with
  | .matured =>
      let txMsgs := [CosmosMsg.bank (.send lock.owner [lock.coin])]
      pure ({ s with locks := s.locks.insert id { lock with fundsWithdrawn := true } }, txMsgs)
  | .fundedPreUnlock | .unlocking => throw (.notMatured id)
  | .withdrawn => throw (.fundsAlreadyWithdrawn id)

/-- `execute_initiate_unlock`: a lock not yet unlocking gets its end
block, the height plus its duration. -/
def executeInitiateUnlock (id : ℕ) : Except ContractError (State × List CosmosMsg) := do
  let lock ← loadLock s.locks id
  match lock.state env.block.height with
  | .fundedPreUnlock => do
      let endBlock ← (addU64 env.block.height lock.durationBlocks).mapError .std
      pure ({ s with locks := s.locks.insert id { lock with endBlock } }, [])
  | .unlocking | .matured => throw (.alreadyUnlocking id)
  | .withdrawn => throw (.fundsAlreadyWithdrawn id)

/-- The loop of `execute_lock`: one lock per coin, each under the next
id of `LOCKS_ID`; a zero coin fails the whole message. -/
def lockCoins (owner : String) (blocks height : ℕ) : State → List Coin → Except ContractError State
  | s, [] => .ok s
  | s, coin :: rest =>
      if coin.amount = 0 then
        throw (.invalidCoins ("zero coins in denom: " ++ coin.denom))
      else do
        let id ← (addU64 s.locksId 1).mapError .std
        let lock : Lock := ⟨id, coin, owner, blocks, height, notUnlockingBlockIdentifier, false⟩
        lockCoins owner blocks height ⟨id, s.locks.insert id lock⟩ rest

/-- `execute_lock`: a positive duration and at least one coin. -/
def executeLock (blocks : ℕ) : Except ContractError (State × List CosmosMsg) :=
  if blocks = 0 then throw .invalidLockDuration
  else if info.funds.isEmpty then throw (.invalidCoins "no funds")
  else do
    let s' ← lockCoins info.sender blocks env.block.height s info.funds
    pure (s', [])

/-- `execute`. -/
def execute : ExecuteMsg → Except ContractError (State × List CosmosMsg)
  | .lock blocks => executeLock s env info blocks
  | .initiateUnlock id => executeInitiateUnlock s env id
  | .withdrawFunds id => executeWithdrawFunds s env id

/-- One execute message. -/
structure Tx where
  env : Env
  info : MessageInfo
  msg : ExecuteMsg

/-- A transaction as the chain runs it. -/
def step (s : State) (tx : Tx) : Except ContractError (State × List CosmosMsg) :=
  execute s tx.env tx.info tx.msg

end NibiruWasm.Lockup
