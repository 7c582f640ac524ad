/-
core-token-vesting-v2, the entry points (`contract.rs`).

Each handler returns the new storage and the response, or fails; a
failed transaction is reverted by the chain, so on failure only the
error is returned.

The two batch handlers do not fail when one entry fails. They report
the entry in the response data and go on, keeping every storage write
made so far — including writes the failing entry made before it failed.
The per-entry helpers therefore thread storage (and the message buffer)
explicitly and return their `Result` beside it, as the source passes
`&mut` storage and `&mut` messages and returns early with `?`:

- `registerVestingAccount` fails before writing anything;
- `deregisterVestingAccount` removes the account first, and only then
  runs `vested_amount` and the checked subtraction, either of which may
  still fail.

A panic (the panicking `Uint128` operators) is not a `Result`: it
unwinds past the batch loop's `match` and aborts the transaction.
Attributes are not modelled (no modelled function reads them); the
response keeps its messages and its data.
-/
import NibiruWasm.VestingV2.State

namespace NibiruWasm.VestingV2

open Cosmwasm Chain

/-- The JSON payload `set_data` attaches to a batch response. -/
inductive ResponseData
  | rewardUsers (res : List RewardUserResponse)
  | deregisterVestingAccounts (res : List DeregisterUserResponse)
  deriving DecidableEq, Repr

/-- `Response`: the messages to dispatch and the response data. -/
structure Response where
  messages : List CosmosMsg
  data : Option ResponseData
  deriving DecidableEq, Repr

/-- `build_send_msg`. -/
def buildSendMsg (denom : String) (amount : ℕ) (toAddress : String) : CosmosMsg :=
  .bank (.send toAddress [⟨denom, amount⟩])

/-- `send_if_amount_is_not_zero`: push a send of `amount` unless it is
zero. -/
def sendIfAmountIsNotZero (messages : List CosmosMsg) (amount : ℕ)
    (denom recipient : String) : List CosmosMsg :=
  if amount ≠ 0 then messages ++ [buildSendMsg denom amount recipient]
  else messages

-- ==================================================== instantiate

/-- `instantiate`, with `deps.api.addr_validate` as `addrValidate`. -/
def instantiate (addrValidate : String → Except StdError Unit)
    (info : MessageInfo) (msg : InstantiateMsg) : Except StdError State :=
  match info.funds with
  | [coin] => do
      if coin.amount = 0 then throw (.genericErr "must deposit some token")
      if msg.managers.isEmpty then
        throw (.genericErr "managers cannot be empty")
      addrValidate msg.admin
      msg.managers.forM addrValidate
      pure { vestingAccounts := ∅
             unallocatedAmount := coin.amount
             denom := coin.denom
             whitelist := ⟨msg.managers.toFinset, msg.admin⟩ }
  | _ => .error (.genericErr "must deposit exactly one type of token")

-- ======================================================= withdraw

/-- `withdraw`: the admin takes up to `amount` out of the unallocated
pool. -/
def withdraw (s : State) (info : MessageInfo) (amount : ℕ) :
    Except ContractError (State × Response) := do
  if !s.whitelist.isAdmin info.sender then
    throw (.std (.genericErr "Unauthorized"))
  let recipient := info.sender
  let amountMax := min amount s.unallocatedAmount
  if amountMax = 0 then throw (.std (.genericErr "Nothing to withdraw"))
  let unallocatedAmount ← (sub s.unallocatedAmount amountMax).mapError .std
  pure ({ s with unallocatedAmount },
    ⟨[buildSendMsg s.denom amountMax recipient], none⟩)

-- =================================================== reward_users

/-- `register_vesting_account`: refuses an address that already has an
account, and otherwise saves a fresh one. Writes nothing on failure. -/
def registerVestingAccount (storage : Store String VestingAccount)
    (address : String) (vestingAmount cliffAmount : ℕ)
    (vestingSchedule : VestingSchedule) :
    Except ContractError (Store String VestingAccount) := do
  if (storage.lookup address).isSome then
    throw (.std (.genericErr
      ("User " ++ address ++ " already has a vesting account")))
  vestingSchedule.validate.mapError .vesting
  pure (storage.insert address
    { address, vestingAmount, cliffAmount, vestingSchedule, claimedAmount := 0 })

/-- The loop of `reward_users`. `req.validate()?` aborts the whole
transaction; a failed registration is reported and the loop goes on. -/
def rewardUsersLoop (vestingSchedule : VestingSchedule) :
    Store String VestingAccount → List RewardUserRequest →
      Except ContractError (Store String VestingAccount × List RewardUserResponse)
  | storage, [] => .ok (storage, [])
  | storage, req :: rest => do
      req.validate
      match registerVestingAccount storage req.userAddress req.vestingAmount
          req.cliffAmount vestingSchedule with
      | .ok storage' =>
          let r ← rewardUsersLoop vestingSchedule storage' rest
          pure (r.1, ⟨req.userAddress, true, ""⟩ :: r.2)
      | .error error =>
          let r ← rewardUsersLoop vestingSchedule storage rest
          pure (r.1, ⟨req.userAddress, false,
            "Failed to register vesting account: " ++ error.display⟩ :: r.2)

/-- `reward_users`. The whole requested total leaves the unallocated
pool, whatever the loop reports for each entry. -/
def rewardUsers (s : State) (info : MessageInfo)
    (rewards : List RewardUserRequest) (vestingSchedule : VestingSchedule) :
    Except ContractError (State × Response) := do
  if !(s.whitelist.isMember info.sender || s.whitelist.isAdmin info.sender) then
    throw (.std (.genericErr
      ("Sender " ++ info.sender ++ " is unauthorized to reward users.")))
  let unallocatedAmount := s.unallocatedAmount
  let totalRequested ←
    (sum (rewards.map fun req => req.vestingAmount)).mapError .std
  if totalRequested > unallocatedAmount then
    throw (.std (.genericErr
      ("Insufficient funds for all rewards. Contract has "
        ++ toString unallocatedAmount ++ " available but trying to allocate "
        ++ toString totalRequested)))
  vestingSchedule.validate.mapError .vesting
  let r ← rewardUsersLoop vestingSchedule s.vestingAccounts rewards
  let unallocatedAmount' ←
    (sub unallocatedAmount totalRequested).mapError .std
  pure ({ s with vestingAccounts := r.1, unallocatedAmount := unallocatedAmount' },
    ⟨[], some (.rewardUsers r.2)⟩)

-- ==================================== deregister_vesting_accounts

/-- `deregister_vesting_account`: the storage and the message buffer
after the call, and the call's `Result`. The account is removed before
`vested_amount` and the checked subtraction run, so the removal stays
when either fails; the unclaimed remainder goes to the admin only when
both succeed. -/
def deregisterVestingAccount (storage : Store String VestingAccount)
    (timestamp : ℕ) (address adminAddress denom : String)
    (messages : List CosmosMsg) :
    Store String VestingAccount × List CosmosMsg × Except ContractError Unit :=
  match storage.lookup address with
  | none =>
      (storage, messages, .error (.std (.genericErr
        ("User " ++ address ++ " does not have a vesting account."))))
  | some account =>
      let storage := storage.erase address
      match account.vestedAmount timestamp with
      | .error e => (storage, messages, .error (.std e))
      | .ok vestedAmount =>
          match checkedSub account.vestingAmount vestedAmount with
          | .error e => (storage, messages, .error (.overflow e))
          | .ok _leftVestingAmount =>
              match sub account.vestingAmount account.claimedAmount with
              | .error e => (storage, messages, .error (.std e))
              | .ok recoverableAmount =>
                  (storage, sendIfAmountIsNotZero messages recoverableAmount
                    denom adminAddress, .ok ())

/-- The loop of `deregister_vesting_accounts`: each entry's `Result` is
reported and the loop goes on with the storage and messages the entry
left behind; a panic aborts the transaction. -/
def deregisterVestingAccountsLoop (timestamp : ℕ) (adminAddress denom : String) :
    Store String VestingAccount → List CosmosMsg → List String →
      Except ContractError
        (Store String VestingAccount × List CosmosMsg × List DeregisterUserResponse)
  | storage, messages, [] => .ok (storage, messages, [])
  | storage, messages, address :: rest =>
      let call := deregisterVestingAccount storage timestamp address
        adminAddress denom messages
      match call.2.2 with
      | .ok () => do
          let r ← deregisterVestingAccountsLoop timestamp adminAddress denom
            call.1 call.2.1 rest
          pure (r.1, r.2.1, ⟨address, true, ""⟩ :: r.2.2)
      | .error error =>
          if error.isPanic then .error error
          else do
            let r ← deregisterVestingAccountsLoop timestamp adminAddress denom
              call.1 call.2.1 rest
            pure (r.1, r.2.1, ⟨address, false,
              "Failed to deregister vesting account: " ++ error.display⟩ :: r.2.2)

/-- `deregister_vesting_accounts`. -/
def deregisterVestingAccounts (s : State) (env : Env) (info : MessageInfo)
    (addresses : List String) : Except ContractError (State × Response) := do
  if !(s.whitelist.isMember info.sender || s.whitelist.isAdmin info.sender) then
    throw (.std (.genericErr ("Sender " ++ info.sender
      ++ " is not authorized to deregister vesting accounts.")))
  let r ← deregisterVestingAccountsLoop env.block.time s.whitelist.admin s.denom
    s.vestingAccounts [] addresses
  pure ({ s with vestingAccounts := r.1 },
    ⟨r.2.1, some (.deregisterVestingAccounts r.2.2)⟩)

-- ========================================================== claim

/-- `claim`: pay the sender what has vested and not been claimed; the
account is removed once everything is claimed. -/
def claim (s : State) (env : Env) (info : MessageInfo) :
    Except ContractError (State × Response) :=
  let recipient := info.sender
  match s.vestingAccounts.lookup recipient with
  | none => .error (.std (.genericErr
      ("vesting entry is not found for denom " ++ jsonString s.denom)))
  | some account => do
      let vestedAmount ← (account.vestedAmount env.block.time).mapError .std
      let claimableAmount ←
        (checkedSub vestedAmount account.claimedAmount).mapError .overflow
      if claimableAmount = 0 then
        throw (.std (.genericErr "nothing left to claim"))
      let account := { account with claimedAmount := vestedAmount }
      let vestingAccounts :=
        if account.claimedAmount = account.vestingAmount then
          s.vestingAccounts.erase recipient
        else s.vestingAccounts.insert recipient account
      pure ({ s with vestingAccounts },
        ⟨[buildSendMsg s.denom claimableAmount recipient], none⟩)

-- ======================================================== queries

/-- `vesting_account`: an address without an account gets an empty
list; otherwise its one vesting, with what has vested and what is left
to claim. -/
def vestingAccount (s : State) (env : Env) (address : String) :
    Except StdError VestingAccountResponse :=
  match s.vestingAccounts.lookup address with
  | none => .ok ⟨address, []⟩
  | some account => do
      let vestedAmount ← account.vestedAmount env.block.time
      let vestingScheduleQuery := fromVestingToQueryOutput account.vestingSchedule
        account.vestingAmount account.cliffAmount
      let claimableAmount ←
        (checkedSub vestedAmount account.claimedAmount).mapError .overflow
      pure ⟨address, [⟨some s.whitelist.admin, s.denom, account.vestingAmount,
        vestingScheduleQuery, vestedAmount, claimableAmount⟩]⟩

/-- `vesting_accounts`: one `vesting_account` per address, failing with
the first that fails. -/
def vestingAccounts (s : State) (env : Env) (addresses : List String) :
    Except StdError (List VestingAccountResponse) :=
  addresses.mapM (vestingAccount s env)

-- ======================================================== execute

/-- `execute`. -/
def execute (s : State) (env : Env) (info : MessageInfo) :
    ExecuteMsg → Except ContractError (State × Response)
  | .rewardUsers rewards vestingSchedule =>
      rewardUsers s info rewards vestingSchedule
  | .deregisterVestingAccounts addresses =>
      deregisterVestingAccounts s env info addresses
  | .claim => claim s env info
  | .withdraw amount => withdraw s info amount

/-- One transaction: its environment, its sender and funds, its message. -/
structure Tx where
  env : Env
  info : MessageInfo
  msg : ExecuteMsg

/-- A transaction as the chain runs it: the new storage and the
messages dispatched. -/
def step (s : State) (tx : Tx) : Except ContractError (State × List CosmosMsg) :=
  (execute s tx.env tx.info tx.msg).map fun r => (r.1, r.2.messages)

end NibiruWasm.VestingV2
