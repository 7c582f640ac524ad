/-
nibi-stargate: a contract that sends x/tokenfactory's messages in its
own name (`contract.rs`, `state.rs`, `msgs.rs`).

Every execute message becomes one Stargate message whose `sender` is
the contract's address. The contract never reads who sent the execute
message: that the contract is a denom's admin is x/tokenfactory's check,
outside it. `Mint` also counts what it mints in `TOKEN_SUPPLY`, keyed by
the subdenom, the third part of the denom split at `/`, as a `Uint256`
sum that panics on overflow; `Burn` does not subtract from it.

prost's protobuf encoding is a parameter. The source builds no events;
a response is its messages.
-/
import NibiruWasm.Cosmwasm.Std
import NibiruWasm.Chain.Store
import NibiruWasm.Text.Digits

namespace NibiruWasm.NibiStargate

open Cosmwasm Chain Text

/-- `ContractError`: `execute` only returns its `Std` variant. -/
inductive ContractError
  | std (e : StdError)
  deriving DecidableEq

/-- `ExecuteMsg`. -/
inductive ExecuteMsg
  | createDenom (subdenom : String)
  | mint (coin : Coin) (mintTo : String)
  | burn (coin : Coin) (burnFrom : String)
  | changeAdmin (denom newAdmin : String)
  deriving DecidableEq

/-- `cosmos.base.v1beta1.Coin`: the amount as its decimal text. -/
structure ProtoCoin where
  denom : String
  amount : String
  deriving DecidableEq

/-- A `cosmwasm_std::Coin` as the protobuf `Coin` (`amount.into()`). -/
def ProtoCoin.ofCoin (coin : Coin) : ProtoCoin :=
  ⟨coin.denom, String.ofList (render coin.amount)⟩

/-- x/tokenfactory's `MsgCreateDenom`, `MsgMint`, `MsgBurn` and
`MsgChangeAdmin`. -/
inductive TokenfactoryMsg
  | createDenom (sender subdenom : String)
  | mint (sender : String) (coin : Option ProtoCoin) (mintTo : String)
  | burn (sender : String) (coin : Option ProtoCoin) (burnFrom : String)
  | changeAdmin (sender denom newAdmin : String)
  deriving DecidableEq

/-- `Name::type_url`: `/nibiru.tokenfactory.v1.` and the message name. -/
def TokenfactoryMsg.typeUrl : TokenfactoryMsg → String
  | .createDenom .. => "/nibiru.tokenfactory.v1.MsgCreateDenom"
  | .mint .. => "/nibiru.tokenfactory.v1.MsgMint"
  | .burn .. => "/nibiru.tokenfactory.v1.MsgBurn"
  | .changeAdmin .. => "/nibiru.tokenfactory.v1.MsgChangeAdmin"

/-- The `sender` field of an x/tokenfactory message. -/
def TokenfactoryMsg.sender : TokenfactoryMsg → String
  | .createDenom sender _ | .mint sender _ _ | .burn sender _ _
  | .changeAdmin sender _ _ => sender

/-- `into_stargate_msg`, with prost's encoding. -/
def TokenfactoryMsg.intoStargateMsg (encode : TokenfactoryMsg → String)
    (msg : TokenfactoryMsg) : CosmosMsg :=
  .stargate msg.typeUrl (encode msg)

/-- Contract storage: `TOKEN_SUPPLY`, keyed by subdenom. -/
structure State where
  tokenSupply : Store String ℕ

/-- `instantiate`: it saves nothing. -/
def instantiate : State := ⟨∅⟩

variable (encode : TokenfactoryMsg → String)

/-- The `Mint` arm's storage update: the coin's amount added to the
subdenom's supply, which starts from the amount when there is none. -/
def addSupply (s : State) (supplyKey : String) (amount : ℕ) : Except ContractError State :=
  match s.tokenSupply.lookup supplyKey with
  | some supply => do
      let newSupply ← (addU256 supply amount).mapError .std
      pure ⟨s.tokenSupply.insert supplyKey newSupply⟩
  | none => pure ⟨s.tokenSupply.insert supplyKey amount⟩

/-- `execute`. -/
def execute (s : State) (env : Env) (_info : MessageInfo) :
    ExecuteMsg → Except ContractError (State × List CosmosMsg)
  | .createDenom subdenom =>
      let cosmosMsg := (TokenfactoryMsg.createDenom env.contractAddress subdenom).intoStargateMsg encode
      pure (s, [cosmosMsg])
  | .mint coin mintTo => do
      let cosmosMsg := (TokenfactoryMsg.mint env.contractAddress (some (.ofCoin coin)) mintTo).intoStargateMsg encode
      let denomParts := coin.denom.toList.splitOn '/'
      if denomParts.length ≠ 3 then
        throw (.std (.genericErr "invalid denom input"))
      let subdenom := String.ofList (denomParts.getD 2 [])
      let s' ← addSupply s subdenom coin.amount
      pure (s', [cosmosMsg])
  | .burn coin burnFrom =>
      let cosmosMsg := (TokenfactoryMsg.burn env.contractAddress (some (.ofCoin coin)) burnFrom).intoStargateMsg encode
      pure (s, [cosmosMsg])
  | .changeAdmin denom newAdmin =>
      let cosmosMsg := (TokenfactoryMsg.changeAdmin env.contractAddress denom newAdmin).intoStargateMsg encode
      pure (s, [cosmosMsg])

/-- One execute message. -/
structure Tx where
  env : Env
  info : MessageInfo
  msg : ExecuteMsg

/-- A transaction as the chain runs it. -/
def step (s : State) (tx : Tx) : Except ContractError (State × List CosmosMsg) :=
  execute encode s tx.env tx.info tx.msg

end NibiruWasm.NibiStargate
