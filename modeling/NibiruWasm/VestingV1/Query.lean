/-
core-token-vesting (v1), the query (`contract.rs`, `query`).

`VestingAccount` lists the accounts of one address a page at a time: a
scan of `VESTING_ACCOUNTS` under the address prefix, up by the raw bytes
of the `denom_to_key` key, after the key of `start_after` when one is
given (`Bound::ExclusiveRaw`), of at most `limit` accounts
(`DEFAULT_LIMIT` by default, never above `MAX_LIMIT`). Each account is
answered with what has vested at the block and what of it is still to
claim; the first account whose `vested_amount` or whose `checked_sub`
fails fails the query with that error. The JSON encoding of the answer
is left out.
-/
import NibiruWasm.VestingV1.Contract
import NibiruWasm.Chain.Page

namespace NibiruWasm.VestingV1

open Cosmwasm Chain

/-- `VestingData`. -/
structure VestingData where
  masterAddress : Option String
  vestingDenom : Denom
  vestingAmount : ℕ
  vestedAmount : ℕ
  vestingSchedule : VestingSchedule
  claimableAmount : ℕ
  deriving DecidableEq, Repr

/-- `VestingAccountResponse`. -/
structure VestingAccountResponse where
  address : String
  vestings : List VestingData
  deriving DecidableEq, Repr

/-- `QueryMsg`. -/
inductive QueryMsg
  | vestingAccount (address : String) (startAfter : Option Denom) (limit : Option ℕ)
  deriving DecidableEq, Repr

/-- `MAX_LIMIT`. -/
def maxLimit : ℕ := 30

/-- `DEFAULT_LIMIT`. -/
def defaultLimit : ℕ := 10

/-- The body of the loop of `vesting_account`: one account as the query
answers it at a block time in seconds. -/
def vestingData (blockTime : ℕ) (account : VestingAccount) : Except StdError VestingData := do
  let vestedAmount ← account.vestingSchedule.vestedAmount blockTime
  let claimableAmount ← (checkedSub vestedAmount account.claimedAmount).mapError .overflow
  pure { masterAddress := account.masterAddress
         vestingDenom := account.vestingDenom
         vestingAmount := account.vestingAmount
         vestedAmount
         vestingSchedule := account.vestingSchedule
         claimableAmount }

/-- `vesting_account`. -/
def vestingAccount (storage : Accounts) (env : Env) (address : String)
    (minDenom : Option Denom) (limit : Option ℕ) : Except StdError VestingAccountResponse := do
  let page := (Store.range rawKey ((minDenom.map fun d => rawKey (denomToKey d)).map .exclusive)
    none .ascending (storage.under address)).take (pageLimit defaultLimit maxLimit limit)
  let vestings ← page.mapM fun item => vestingData env.block.time item.2
  pure ⟨address, vestings⟩

/-- `query`. -/
def query (storage : Accounts) (env : Env) : QueryMsg → Except StdError VestingAccountResponse
  | .vestingAccount address startAfter limit =>
      vestingAccount storage env address startAfter limit

end NibiruWasm.VestingV1
