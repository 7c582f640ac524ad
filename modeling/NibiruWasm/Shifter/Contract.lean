/-
core-shifter: a contract through which its owner and operators send
x/perp's admin calls, shifting a market's swap invariant or its peg
multiplier (`contract.rs`, `state.rs`, `msgs.rs`).

Every execute message loads the `Permissions` (nibiru-ownable's owner
and the `OPERATORS` set) into a `CanExecute`. The x/perp calls and the
operator edits all pass the same `check_perms_operator`, which admits
an operator as well as the owner; ownership moves by nibiru-ownable's
`update_ownership`.

The chain's services are parameters (`Services`): the `Api`'s address
check, prost's protobuf encoding of the Stargate messages, and
`Decimal`'s text functions for `SdkDec::from_str`. Events and
attributes are left out; a response is its messages.
-/
import NibiruWasm.Ownable.Ownership
import NibiruWasm.NibiruStd.Math
import Mathlib.Data.Finset.Basic

namespace NibiruWasm.Shifter

open Cosmwasm CwUtils Ownable NibiruStd Text

/-- `ContractError`. -/
inductive ContractError
  | std (e : StdError)
  | ownership (e : OwnershipError)
  | noOperatorPerms (sender : String)
  | mathError (e : MathError)
  deriving DecidableEq

/-- `ContractError`'s `Display`. -/
def ContractError.display : ContractError → String
  | .std e => e.display
  | .ownership e => e.display
  | .noOperatorPerms sender =>
      "insufficient permissions: sender is not a contract operator (" ++ debugString sender ++ ")"
  | .mathError e => e.display

/-- Contract storage: `OWNERSHIP` and `OPERATORS`. -/
structure State where
  ownership : Ownership
  operators : Finset String

/-- `Permissions`: the owner and the operators. -/
structure Permissions where
  owner : Option String
  operators : Finset String

/-- `Permissions::is_owner`. -/
def Permissions.isOwner (perms : Permissions) (addr : String) : Bool :=
  match perms.owner with
  | some owner => owner == addr
  | none => false

/-- `Permissions::is_operator`. -/
def Permissions.isOperator (perms : Permissions) (addr : String) : Bool :=
  decide (addr ∈ perms.operators)

/-- `Permissions::has`: an operator or the owner. -/
def Permissions.has (perms : Permissions) (addr : String) : Bool :=
  perms.isOperator addr || perms.isOwner addr

/-- `Permissions::load`. -/
def Permissions.load (s : State) : Permissions :=
  ⟨s.ownership.owner, s.operators⟩

/-- `instantiate_perms`: the owner, and no operators. -/
def instantiatePerms (owner : Option String) : State :=
  ⟨initializeOwner owner, ∅⟩

/-- `InitMsg`. -/
structure InitMsg where
  owner : String

/-- `instantiate`. -/
def instantiate (msg : InitMsg) : State :=
  instantiatePerms (some msg.owner)

/-- `operator_perms::Action`. -/
inductive OperAction
  | addOper (address : String)
  | removeOper (address : String)
  deriving DecidableEq

/-- `ExecuteMsg`, with nibiru-ownable's `UpdateOwnership`. -/
inductive ExecuteMsg
  | shiftSwapInvariant (pair : String) (newSwapInvariant : ℕ)
  | shiftPegMultiplier (pair : String) (newPegMult : String)
  | editOpers (action : OperAction)
  | updateOwnership (action : Action)

/-- x/perp's `MsgShiftSwapInvariant` and `MsgShiftPegMultiplier`. -/
inductive PerpMsg
  | shiftSwapInvariant (sender pair newSwapInvariant : String)
  | shiftPegMultiplier (sender pair newPegMult : String)
  deriving DecidableEq

/-- `type_url`: `/nibiru.perp.v2.` and the message name. -/
def PerpMsg.typeUrl : PerpMsg → String
  | .shiftSwapInvariant .. => "/nibiru.perp.v2.MsgShiftSwapInvariant"
  | .shiftPegMultiplier .. => "/nibiru.perp.v2.MsgShiftPegMultiplier"

/-- What the contract calls outside its storage: the address check,
the protobuf encoder and `Decimal`'s text functions. -/
structure Services where
  addrValidate : String → Except StdError String
  encode : PerpMsg → String
  decimalLib : DecimalLib

/-- `into_stargate_msg`. -/
def PerpMsg.intoStargateMsg (svc : Services) (msg : PerpMsg) : CosmosMsg :=
  .stargate msg.typeUrl (svc.encode msg)

/-- `CanExecute`: the sender's standing, computed once per message. -/
structure CanExecute where
  isOwner : Bool
  isOperator : Bool
  sender : String
  perms : Permissions

/-- `CanExecute::new`. -/
def CanExecute.new (s : State) (sender : String) : CanExecute :=
  let perms := Permissions.load s
  ⟨perms.isOwner sender, perms.isOperator sender, sender, perms⟩

/-- `CanExecute::check_perms_operator`: an operator or the owner. -/
def CanExecute.checkPermsOperator (check : CanExecute) : Except ContractError Unit :=
  match check.isOperator || check.isOwner with
  | true => .ok ()
  | false => .error (.noOperatorPerms check.sender)

variable (svc : Services) (s : State) (env : Env) (info : MessageInfo)

/-- The `EditOpers` arm, once the check has passed: the operator set
loaded into the permissions, with the address added or removed. -/
def editOpers (perms : Permissions) : OperAction → Except ContractError (State × List CosmosMsg)
  | .addOper address => do
      let addr ← (svc.addrValidate address).mapError .std
      pure ({ s with operators := insert addr perms.operators }, [])
  | .removeOper address => pure ({ s with operators := perms.operators.erase address }, [])

/-- `execute_update_ownership`. -/
def executeUpdateOwnership (action : Action) : Except OwnershipError (State × List CosmosMsg) := do
  let ownership ← updateOwnership s.ownership env.block info.sender action
  pure ({ s with ownership }, [])

/-- `execute`. -/
def execute (msg : ExecuteMsg) : Except ContractError (State × List CosmosMsg) :=
  let check := CanExecute.new s info.sender
  let perms := check.perms
  let contractAddr := env.contractAddress
  match msg with
  | .shiftSwapInvariant pair newSwapInvariant => do
      check.checkPermsOperator
      let cosmosMsg := (PerpMsg.shiftSwapInvariant contractAddr pair
        (String.ofList (render newSwapInvariant))).intoStargateMsg svc
      pure (s, [cosmosMsg])
  | .shiftPegMultiplier pair newPegMult => do
      check.checkPermsOperator
      let sdkDec ← (SdkDec.fromStr svc.decimalLib newPegMult.toList).mapError .mathError
      let cosmosMsg := (PerpMsg.shiftPegMultiplier contractAddr pair
        (String.ofList sdkDec.pbRepr)).intoStargateMsg svc
      pure (s, [cosmosMsg])
  | .editOpers action => do
      check.checkPermsOperator
      editOpers svc s perms action
  | .updateOwnership action => (executeUpdateOwnership s env info action).mapError .ownership

/-- One execute message. -/
structure Tx where
  env : Env
  info : MessageInfo
  msg : ExecuteMsg

/-- A transaction as the chain runs it. -/
def step (s : State) (tx : Tx) : Except ContractError (State × List CosmosMsg) :=
  execute svc s tx.env tx.info tx.msg

end NibiruWasm.Shifter
