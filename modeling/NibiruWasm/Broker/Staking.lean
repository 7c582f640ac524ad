/-
broker-staking: broker-bank's storage and owner handlers, with staking
in place of `BankSend` (`contract.rs`, `msg.rs`).

An operator, or the owner, stakes the contract's funds over validators
by shares and claims the staking rewards, while the contract is not
halted; only the owner unstakes. The contract's delegations are what
the staking module answers during the transaction.
-/
import NibiruWasm.Broker.Bank

namespace NibiruWasm.BrokerStaking

open Cosmwasm CwUtils Ownable BrokerBank

/-- `StakeMsg`: a validator and its share of the amount. -/
structure StakeMsg where
  share : ℕ
  validator : String
  deriving DecidableEq, Repr

/-- `UnstakeMsg`: an amount to undelegate from a validator. -/
structure UnstakeMsg where
  amount : ℕ
  validator : String
  deriving DecidableEq, Repr

/-- `ExecuteMsg`, with nibiru-ownable's `UpdateOwnership`. -/
inductive ExecuteMsg
  | toggleHalt
  | withdraw (toAddr : Option String) (denoms : Finset String)
  | withdrawAll (toAddr : Option String)
  | claimRewards
  | unstake (unstakeMsgs : List UnstakeMsg)
  | stake (amount : ℕ) (stakeMsgs : List StakeMsg)
  | editOpers (action : OperAction)
  | updateOwnership (action : Action)

/-- `build_stake_message`. -/
def buildStakeMessage (amount : ℕ) (validator : String) : CosmosMsg :=
  .staking (.delegate validator ⟨"unibi", amount⟩)

/-- `build_unstakes_messages`. -/
def buildUnstakesMessages (amount : ℕ) (validator : String) : CosmosMsg :=
  .staking (.undelegate validator ⟨"unibi", amount⟩)

variable (s : State) (info : MessageInfo)

/-- `claim_rewards`: while not halted, an operator or the owner
withdraws the rewards of every delegation. -/
def claimRewards (delegations : List String) : Except ContractError (State × List CosmosMsg) := do
  assertNotHalted s.isHalted
  let _ ← Permissions.assertOperator s info.sender
  pure (s, delegations.map fun validator => .distribution (.withdrawDelegatorReward validator))

/-- The undelegations of `unstake`: one per nonzero amount. -/
def unstakeMessages : List UnstakeMsg → List CosmosMsg
  | [] => []
  | msg :: rest =>
      if msg.amount = 0 then unstakeMessages rest
      else buildUnstakesMessages msg.amount msg.validator :: unstakeMessages rest

/-- `unstake`: the owner undelegates. -/
def unstake (unstakeMsgs : List UnstakeMsg) : Except ContractError (State × List CosmosMsg) := do
  (assertOwner s.ownership info.sender).mapError .ownership
  pure (s, unstakeMessages unstakeMsgs)

/-- The delegations of `stake`: each validator's share of `amount`,
`amount * share / total_shares` in `Uint128`, skipped when it is zero. -/
def stakeMessages (amount totalShares : ℕ) : List StakeMsg → Except ContractError (List CosmosMsg)
  | [] => .ok []
  | stakeMsg :: rest => do
      let product ← (mul amount stakeMsg.share).mapError .std
      let amountToDelegate := product / totalShares
      let msgs ← stakeMessages amount totalShares rest
      if amountToDelegate = 0 then pure msgs
      else pure (buildStakeMessage amountToDelegate stakeMsg.validator :: msgs)

/-- `stake`: while not halted, an operator or the owner delegates
`amount` over validators by shares. -/
def stake (stakeMsgs : List StakeMsg) (amount : ℕ) :
    Except ContractError (State × List CosmosMsg) := do
  let _ ← Permissions.assertOperator s info.sender
  assertNotHalted s.isHalted
  let totalShares ← (sum (stakeMsgs.map fun m => m.share)).mapError .std
  if totalShares = 0 then throw (.std (.genericErr "total shares cannot be zero"))
  let messages ← stakeMessages amount totalShares stakeMsgs
  pure (s, messages)

/-- `execute`, given the contract's balances and delegations. -/
def execute (env : Env) (balances : List Coin) (delegations : List String) :
    ExecuteMsg → Except ContractError (State × List CosmosMsg)
  | .withdraw toAddr denoms => withdraw s info toAddr denoms balances
  | .stake amount stakeMsgs => stake s info stakeMsgs amount
  | .unstake unstakeMsgs => unstake s info unstakeMsgs
  | .toggleHalt => toggleHalt s info
  | .updateOwnership action => executeUpdateOwnership s env info action
  | .editOpers action => editOpers s info action
  | .withdrawAll toAddr => withdrawAll s info toAddr balances
  | .claimRewards => claimRewards s info delegations

/-- `instantiate`: the same storage as broker-bank's. -/
def instantiate (msg : InstantiateMsg) : State :=
  ⟨initializeOwner (some msg.owner), msg.toAddrs, msg.opers, false⟩

/-- One transaction, with the contract's balances and the validators it
delegates to at the time. -/
structure Tx where
  env : Env
  info : MessageInfo
  msg : ExecuteMsg
  balances : List Coin
  delegations : List String

/-- A transaction as the chain runs it. -/
def step (s : State) (tx : Tx) : Except ContractError (State × List CosmosMsg) :=
  execute s tx.info tx.env tx.balances tx.delegations tx.msg

end NibiruWasm.BrokerStaking
