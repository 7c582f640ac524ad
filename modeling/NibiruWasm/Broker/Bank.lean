/-
broker-bank: a contract that holds funds and pays them out on the
owner's and the operators' orders (`contract.rs`, `oper_perms.rs`,
`state.rs`).

The owner, kept by nibiru-ownable, withdraws funds, edits the operator
set and halts or resumes the operators. An operator, or the owner,
sends funds with `BankSend` to a recipient of the `TO_ADDRS` set fixed
at instantiation, while the contract is not halted.

The transaction log (`LOGS`) and the events are written and never read
by a handler, and are left out; a response is its messages. The
contract's balances are what the bank module answers during the
transaction. broker-staking reuses these storage items and handlers.
-/
import NibiruWasm.Ownable.Ownership
import Mathlib.Data.Finset.Basic

namespace NibiruWasm.BrokerBank

open Cosmwasm CwUtils Ownable

/-- `ContractError`, the variants the handlers raise. -/
inductive ContractError
  | std (e : StdError)
  | ownership (e : OwnershipError)
  | operationsHalted
  | toAddrNotAllowed (toAddr : String)
  | noOperatorPerms (addr : String)
  deriving DecidableEq

/-- `ContractError`'s `Display`. -/
def ContractError.display : ContractError → String
  | .std e => e.display
  | .ownership e => e.display
  | .operationsHalted => "operations are currently halted"
  | .toAddrNotAllowed toAddr => "recipient address is not whitelisted (to_addr: "
      ++ debugString toAddr ++ "). Query permissions for more info."
  | .noOperatorPerms addr => "insufficient permissions: address is not a contract operator ("
      ++ debugString addr ++ ")"

/-- Contract storage after `instantiate`: `OWNERSHIP`, `TO_ADDRS`,
`OPERATORS` and `IS_HALTED`. -/
structure State where
  ownership : Ownership
  toAddrs : Finset String
  operators : Finset String
  isHalted : Bool

/-- `Permissions`: the owner and the operators. -/
structure Permissions where
  owner : Option String
  operators : Finset String

/-- `Permissions::is_owner`. -/
def Permissions.isOwner (perms : Permissions) (addr : String) : Bool :=
  match perms.owner with
  | some owner => owner == addr
  | none => false

/-- `Permissions::is_operator`. -/
def Permissions.isOperator (perms : Permissions) (addr : String) : Bool :=
  decide (addr ∈ perms.operators)

/-- `Permissions::load`. -/
def Permissions.load (s : State) : Permissions :=
  ⟨s.ownership.owner, s.operators⟩

/-- `Permissions::assert_operator`: an operator or the owner. -/
def Permissions.assertOperator (s : State) (addr : String) : Except ContractError Permissions :=
  let perms := Permissions.load s
  if perms.isOperator addr || perms.isOwner addr then .ok perms
  else .error (.noOperatorPerms addr)

/-- `assert_not_halted`. -/
def assertNotHalted (isHalted : Bool) : Except ContractError Unit :=
  match isHalted with
  | true => .error .operationsHalted
  | false => .ok ()

/-- `InstantiateMsg`. -/
structure InstantiateMsg where
  owner : String
  toAddrs : Finset String
  opers : Finset String

/-- `instantiate`: the message's owner, recipients and operators, not
halted. -/
def instantiate (msg : InstantiateMsg) : State :=
  ⟨initializeOwner (some msg.owner), msg.toAddrs, msg.opers, false⟩

/-- `oper_perms::Action`. -/
inductive OperAction
  | addOper (address : String)
  | removeOper (address : String)
  deriving DecidableEq

/-- `ExecuteMsg`, with nibiru-ownable's `UpdateOwnership`. -/
inductive ExecuteMsg
  | bankSend (coins : List Coin) (toAddr : String)
  | toggleHalt
  | updateOwnership (action : Action)
  | editOpers (action : OperAction)
  | withdrawAll (toAddr : Option String)
  | withdraw (toAddr : Option String) (denoms : Finset String)

variable (s : State) (env : Env) (info : MessageInfo)

/-- `withdraw`: the owner takes the listed denoms of the contract's
balances, to itself by default. -/
def withdraw (toAddr : Option String) (denoms : Finset String) (balances : List Coin) :
    Except ContractError (State × List CosmosMsg) := do
  (assertOwner s.ownership info.sender).mapError .ownership
  let toAddr := toAddr.getD info.sender
  let balances := balances.filter fun coin => coin.denom ∈ denoms
  pure (s, [.bank (.send toAddr balances)])

/-- `withdraw_all`: the owner takes all the contract's balances. -/
def withdrawAll (toAddr : Option String) (balances : List Coin) :
    Except ContractError (State × List CosmosMsg) := do
  (assertOwner s.ownership info.sender).mapError .ownership
  let toAddr := toAddr.getD info.sender
  pure (s, [.bank (.send toAddr balances)])

/-- `edit_opers`: the owner adds or removes an operator. -/
def editOpers (action : OperAction) : Except ContractError (State × List CosmosMsg) := do
  (assertOwner s.ownership info.sender).mapError .ownership
  let perms := Permissions.load s
  match action with
  | .addOper address => pure ({ s with operators := insert address perms.operators }, [])
  | .removeOper address => pure ({ s with operators := perms.operators.erase address }, [])

/-- `toggle_halt`: the owner halts or resumes the operators. -/
def toggleHalt : Except ContractError (State × List CosmosMsg) := do
  (assertOwner s.ownership info.sender).mapError .ownership
  pure ({ s with isHalted := !s.isHalted }, [])

/-- `bank_send`: an operator or the owner sends coins to a listed
recipient while the contract is not halted. -/
def bankSend (coins : List Coin) (toAddr : String) : Except ContractError (State × List CosmosMsg) := do
  let _ ← Permissions.assertOperator s info.sender
  assertNotHalted s.isHalted
  if toAddr ∉ s.toAddrs then throw (.toAddrNotAllowed toAddr)
  pure (s, [.bank (.send toAddr coins)])

/-- `execute_update_ownership`. -/
def executeUpdateOwnership (action : Action) : Except ContractError (State × List CosmosMsg) := do
  let ownership ← (updateOwnership s.ownership env.block info.sender action).mapError .ownership
  pure ({ s with ownership }, [])

/-- `execute`, given the contract's balances. -/
def execute (balances : List Coin) : ExecuteMsg → Except ContractError (State × List CosmosMsg)
  | .bankSend coins toAddr => bankSend s info coins toAddr
  | .toggleHalt => toggleHalt s info
  | .updateOwnership action => executeUpdateOwnership s env info action
  | .editOpers action => editOpers s info action
  | .withdrawAll toAddr => withdrawAll s info toAddr balances
  | .withdraw toAddr denoms => withdraw s info toAddr denoms balances

/-- One transaction, with the contract's balances at the time. -/
structure Tx where
  env : Env
  info : MessageInfo
  msg : ExecuteMsg
  balances : List Coin

/-- A transaction as the chain runs it. -/
def step (s : State) (tx : Tx) : Except ContractError (State × List CosmosMsg) :=
  execute s tx.env tx.info tx.balances tx.msg

end NibiruWasm.BrokerBank
