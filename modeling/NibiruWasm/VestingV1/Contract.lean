/-
core-token-vesting (v1), storage and entry points (`state.rs`,
`contract.rs`).

Storage is one map, `VESTING_ACCOUNTS`, keyed by the owner's address
and the key `denom_to_key` gives the vested denom, so one address holds
at most one account per denom. A native deposit registers through
`RegisterVestingAccount` with exactly one coin attached; a cw20 deposit
through the token contract's `Receive` hook, the token being the
calling contract.

Every handler fails as a whole: `claim` loops over the listed denoms
and returns early on the first error, so a failed transaction leaves
storage as it was. Attributes are not modelled; a response is its
messages.
-/
import NibiruWasm.VestingV1.Msg
import NibiruWasm.Chain.Store

namespace NibiruWasm.VestingV1

open Cosmwasm Chain

/-- `VestingAccount`. -/
structure VestingAccount where
  masterAddress : Option String
  address : String
  vestingDenom : Denom
  vestingAmount : ℕ
  vestingSchedule : VestingSchedule
  claimedAmount : ℕ
  deriving DecidableEq, Repr

/-- `denom_to_key`. -/
def denomToKey : Denom → String
  | .cw20 addr => "cw20-" ++ addr
  | .native denom => "native-" ++ denom

/-- `VESTING_ACCOUNTS`, keyed by `(address, denom_to_key(denom))`. -/
abbrev Accounts := Store (String × String) VestingAccount

/-- `build_send_msg`: a bank send for a native denom, a cw20 `Transfer`
for a token. -/
def buildSendMsg (denom : Denom) (amount : ℕ) (toAddress : String) : CosmosMsg :=
  match denom with
  | .native denom => .bank (.send toAddress [⟨denom, amount⟩])
  | .cw20 contractAddr => .wasmExecute contractAddr (.transfer toAddress amount) []

-- =================================================== registration

/-- `register_vesting_account`: refuses a second account for the same
address and denom, checks the schedule against the deposit, and saves
an account with nothing claimed. -/
def registerVestingAccount (storage : Accounts) (blockTime : ℕ)
    (masterAddress : Option String) (address : String) (depositDenom : Denom)
    (depositAmount : ℕ) (vestingSchedule : VestingSchedule) :
    Except ContractError (Accounts × List CosmosMsg) := do
  let denomKey := denomToKey depositDenom
  if (storage.lookup (address, denomKey)).isSome then
    throw (.std (.genericErr "already exists"))
  (vestingSchedule.validate blockTime depositAmount).mapError .vesting
  pure (storage.insert (address, denomKey)
    { masterAddress, address, vestingDenom := depositDenom,
      vestingAmount := depositAmount, vestingSchedule, claimedAmount := 0 }, [])

/-- `receive_cw20`: the hook registers an account in the calling token. -/
def receiveCw20 (storage : Accounts) (env : Env) (info : MessageInfo)
    (cw20Msg : Cw20ReceiveMsg) : Except ContractError (Accounts × List CosmosMsg) :=
  match cw20Msg.msg with
  | some (.registerVestingAccount masterAddress address vestingSchedule) =>
      registerVestingAccount storage env.block.time masterAddress address
        (.cw20 info.sender) cw20Msg.amount vestingSchedule
  | none => .error (.std (.genericErr "invalid cw20 hook message"))

-- ================================================= deregistration

/-- `deregister_vesting_account`: only the master address may do it.
The account is removed; what has vested and is unclaimed goes to
`vested_token_recipient` (the account's address by default), what has
not vested to `left_vesting_token_recipient` (the sender by default). -/
def deregisterVestingAccount (storage : Accounts) (env : Env) (info : MessageInfo)
    (address : String) (denom : Denom)
    (vestedTokenRecipient leftVestingTokenRecipient : Option String) :
    Except ContractError (Accounts × List CosmosMsg) := do
  let denomKey := denomToKey denom
  let sender := info.sender
  match storage.lookup (address, denomKey) with
  | none => throw (.std (.genericErr
      ("vesting entry is not found for denom " ++ debugString denom.toJson)))
  | some account =>
      -- `master_address.is_none() || master_address.unwrap() != sender`
      if account.masterAddress ≠ some sender then
        throw (.std (.genericErr "unauthorized"))
      let storage := storage.erase (address, denomKey)
      let vestedAmount ←
        (account.vestingSchedule.vestedAmount env.block.time).mapError .std
      let claimedAmount := account.claimedAmount
      let claimableAmount ← (checkedSub vestedAmount claimedAmount).mapError .overflow
      let messages :=
        if claimableAmount ≠ 0 then
          [buildSendMsg account.vestingDenom claimableAmount
            (vestedTokenRecipient.getD address)]
        else []
      let leftVestingAmount ←
        (checkedSub account.vestingAmount vestedAmount).mapError .overflow
      let messages :=
        if leftVestingAmount ≠ 0 then
          messages ++ [buildSendMsg account.vestingDenom leftVestingAmount
            (leftVestingTokenRecipient.getD sender)]
        else messages
      pure (storage, messages)

-- ========================================================== claim

/-- The loop of `claim`: for each listed denom, pay the sender's account
what vested since its last claim, and remove the account once it is
fully claimed. The first failing denom fails the transaction. -/
def claimLoop (blockTime : ℕ) (sender recipient : String) :
    Accounts → List CosmosMsg → List Denom → Except ContractError (Accounts × List CosmosMsg)
  | storage, messages, [] => .ok (storage, messages)
  | storage, messages, denom :: rest =>
      let denomKey := denomToKey denom
      match storage.lookup (sender, denomKey) with
      | none => .error (.std (.genericErr
          ("vesting entry is not found for denom " ++ denom.toJson)))
      | some account => do
          let vestedAmount ←
            (account.vestingSchedule.vestedAmount blockTime).mapError .std
          let claimableAmount ←
            (checkedSub vestedAmount account.claimedAmount).mapError .overflow
          if claimableAmount = 0 then
            claimLoop blockTime sender recipient storage messages rest
          else
            let account := { account with claimedAmount := vestedAmount }
            let storage :=
              if account.claimedAmount = account.vestingAmount then
                storage.erase (sender, denomKey)
              else storage.insert (sender, denomKey) account
            claimLoop blockTime sender recipient storage
              (messages ++ [buildSendMsg account.vestingDenom claimableAmount recipient])
              rest

/-- `claim`: the payments go to `recipient`, the sender by default. -/
def claim (storage : Accounts) (env : Env) (info : MessageInfo) (denoms : List Denom)
    (recipient : Option String) : Except ContractError (Accounts × List CosmosMsg) :=
  claimLoop env.block.time info.sender (recipient.getD info.sender) storage [] denoms

-- ======================================================== execute

/-- `execute`. A native registration needs exactly one coin attached. -/
def execute (storage : Accounts) (env : Env) (info : MessageInfo) :
    ExecuteMsg → Except ContractError (Accounts × List CosmosMsg)
  | .receive msg => receiveCw20 storage env info msg
  | .registerVestingAccount address masterAddress vestingSchedule =>
      match info.funds with
      | [depositCoin] =>
          registerVestingAccount storage env.block.time masterAddress address
            (.native depositCoin.denom) depositCoin.amount vestingSchedule
      | _ => .error (.std (.genericErr "must deposit only one type of token"))
  | .deregisterVestingAccount address denom vestedTokenRecipient
      leftVestingTokenRecipient =>
      deregisterVestingAccount storage env info address denom vestedTokenRecipient
        leftVestingTokenRecipient
  | .claim denoms recipient => claim storage env info denoms recipient

/-- One transaction: its environment, its sender and funds, its message. -/
structure Tx where
  env : Env
  info : MessageInfo
  msg : ExecuteMsg

/-- A transaction as the chain runs it. `instantiate` stores nothing, so
a run starts from the empty map. -/
def step (storage : Accounts) (tx : Tx) : Except ContractError (Accounts × List CosmosMsg) :=
  execute storage tx.env tx.info tx.msg

end NibiruWasm.VestingV1
