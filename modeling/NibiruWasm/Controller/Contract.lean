/-
core-controller: a whitelist of members and one admin, meant to gate
x/perp and x/oracle admin calls (`contract.rs`, `state.rs`, `msgs.rs`).

Storage is one item, `WHITELIST`: the member set and the admin. Every
execute message first loads it into a `CanExecute`. The admin alone
edits it: `AddMember` and `RemoveMember` edit the set, `ChangeAdmin`
names a new admin and makes it a member. The four x/perp and x/oracle
messages are deprecated: they pass `check_member` and then reach
`todo!()`, a panic, so none of them ever commits.

The whitelist's `HashSet` is a `Finset`. `WHITELIST.load(..).unwrap()`
cannot fail after `instantiate`, which always saves the item. Events and
attributes are left out; a response is its messages, and no handler
builds one. `MarketParams`, which `CreateMarket` carries and nothing
reads, is left out with its field.
-/
import NibiruWasm.Cosmwasm.Decimal
import Mathlib.Data.Finset.Basic

namespace NibiruWasm.Controller

open Cosmwasm

/-- `Whitelist`. -/
structure Whitelist where
  members : Finset String
  admin : String
  deriving DecidableEq

/-- `Whitelist::is_admin`. -/
def Whitelist.isAdmin (self : Whitelist) (addr : String) : Bool := self.admin == addr

/-- `Whitelist::is_member`: the member set only, whoever the admin is. -/
def Whitelist.isMember (self : Whitelist) (addr : String) : Bool := decide (addr ∈ self.members)

/-- `InitMsg`. -/
structure InitMsg where
  admin : String
  deriving DecidableEq, Repr

/-- `instantiate`: the admin is the only member. -/
def instantiate (msg : InitMsg) : Whitelist :=
  { members := {msg.admin}, admin := msg.admin }

/-- `ExecuteMsg`. -/
inductive ExecuteMsg
  | setMarketEnabled (pair : String) (enabled : Bool)
  | withdrawPerpFund (amount : ℕ) (toAddr : String)
  | editOracleParams (votePeriod : Option ℕ) (voteThreshold rewardBand : Option Decimal)
      (whitelist : Option (List String)) (slashFraction : Option Decimal)
      (slashWindow : Option ℕ) (minValidPerWindow : Option Decimal)
      (twapLookbackWindow minVoters : Option ℕ) (validatorFeeRatio : Option Decimal)
  | createMarket (pair : String) (pegMult sqrtDepth : Decimal)
  | addMember (address : String)
  | removeMember (address : String)
  | changeAdmin (address : String)
  deriving DecidableEq

/-- `CanExecute`. -/
structure CanExecute where
  isAdmin : Bool
  isMember : Bool
  sender : String
  whitelist : Whitelist

/-- `can_execute`. -/
def canExecute (whitelist : Whitelist) (sender : String) : CanExecute :=
  { isAdmin := whitelist.isAdmin sender
    isMember := whitelist.isMember sender
    sender
    whitelist }

/-- `check_admin`. -/
def checkAdmin (can : CanExecute) : Except StdError Unit :=
  if can.isAdmin then .ok ()
  else .error (.genericErr ("unauthorized : sender " ++ can.sender ++ " is not an admin"))

/-- `check_member`. -/
def checkMember (can : CanExecute) : Except StdError Unit :=
  if can.isMember then .ok ()
  else .error (.genericErr ("unauthorized : sender " ++ can.sender ++ " is not a whitelist member"))

/-- The four deprecated arms: `check_member(check)?; todo!()`. -/
def executePerp (check : CanExecute) : Except StdError (Whitelist × List CosmosMsg) := do
  checkMember check
  throw (.panic "not yet implemented")

/-- `execute`. -/
def execute (stored : Whitelist) (_env : Env) (info : MessageInfo) :
    ExecuteMsg → Except StdError (Whitelist × List CosmosMsg)
  | .withdrawPerpFund _ _ => executePerp (canExecute stored info.sender)
  | .setMarketEnabled _ _ => executePerp (canExecute stored info.sender)
  | .createMarket _ _ _ => executePerp (canExecute stored info.sender)
  | .editOracleParams _ _ _ _ _ _ _ _ _ _ => executePerp (canExecute stored info.sender)
  | .addMember address => do
      let check := canExecute stored info.sender
      let whitelist := check.whitelist
      checkAdmin check
      pure ({ whitelist with members := insert address whitelist.members }, [])
  | .removeMember address => do
      let check := canExecute stored info.sender
      let whitelist := check.whitelist
      checkAdmin check
      pure ({ whitelist with members := whitelist.members.erase address }, [])
  | .changeAdmin address => do
      let check := canExecute stored info.sender
      let whitelist := check.whitelist
      checkAdmin check
      pure ({ admin := address, members := insert address whitelist.members }, [])

/-- `QueryMsg`. -/
inductive QueryMsg
  | isMember (address : String)
  | whitelist
  deriving DecidableEq, Repr

/-- What `query` answers: `IsMemberResponse` and `WhitelistResponse`. -/
inductive QueryResponse
  | isMember (isMember : Bool) (whitelist : Whitelist)
  | whitelist (whitelist : Whitelist)
  deriving DecidableEq

/-- `query`. -/
def query (stored : Whitelist) : QueryMsg → QueryResponse
  | .isMember address => .isMember (stored.isMember address) stored
  | .whitelist => .whitelist stored

/-- One transaction: its environment, its sender and funds, its message. -/
structure Tx where
  env : Env
  info : MessageInfo
  msg : ExecuteMsg

/-- A transaction as the chain runs it. -/
def step (stored : Whitelist) (tx : Tx) : Except StdError (Whitelist × List CosmosMsg) :=
  execute stored tx.env tx.info tx.msg

end NibiruWasm.Controller
