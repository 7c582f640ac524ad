/-
core-token-vesting-v2, storage (`state.rs`).

The contract keeps four items: the accounts (`VESTING_ACCOUNTS`, keyed by
the user's address), the pool not yet promised to anyone
(`UNALLOCATED_AMOUNT`), the one denom it was funded in (`DENOM`) and the
admin with the managers (`WHITELIST`). `State` is storage after
`instantiate`, when all four exist, so the handlers' `load`s of the
three items cannot fail and are not modelled as fallible.

`vestedAmount` is the schedule every claim and deregistration reads:
nothing before the cliff, the cliff amount at it, everything from the
end on, and the rest released linearly in between through checked
`Uint128` arithmetic, which can overflow.
-/
import NibiruWasm.VestingV2.Msg
import NibiruWasm.Chain.Store
import Mathlib.Data.Finset.Basic

namespace NibiruWasm.VestingV2

open Cosmwasm Chain

/-- `Whitelist`: the admin and the managers (`members`). -/
structure Whitelist where
  members : Finset String
  admin : String
  deriving DecidableEq

/-- `Whitelist::is_admin`. -/
def Whitelist.isAdmin (self : Whitelist) (addr : String) : Bool :=
  self.admin == addr

/-- `Whitelist::is_member`. -/
def Whitelist.isMember (self : Whitelist) (addr : String) : Bool :=
  decide (addr ∈ self.members)

/-- `VestingAccount`. -/
structure VestingAccount where
  address : String
  vestingAmount : ℕ
  cliffAmount : ℕ
  vestingSchedule : VestingSchedule
  claimedAmount : ℕ
  deriving DecidableEq, Repr

/-- `VestingAccount::vested_amount` at a block time in seconds. The two
`u64` subtractions run only past the cliff and before the end, where
they cannot underflow; they are the panicking `sub` all the same. -/
def VestingAccount.vestedAmount (self : VestingAccount) (blockTime : ℕ) :
    Except StdError ℕ :=
  match self.vestingSchedule with
  | .linearVestingWithCliff _startTime endTime cliffTime =>
      if blockTime < cliffTime then .ok 0
      else if blockTime = cliffTime then .ok self.cliffAmount
      else if blockTime ≥ endTime then .ok self.vestingAmount
      else do
        let remainingToken ←
          (checkedSub self.vestingAmount self.cliffAmount).mapError .overflow
        let elapsed ← sub blockTime cliffTime
        let scaled ← (checkedMul remainingToken elapsed).mapError .overflow
        let span ← sub endTime cliffTime
        let vestedToken ← (checkedDiv scaled span).mapError .divideByZero
        add vestedToken self.cliffAmount

/-- Contract storage after `instantiate`. -/
structure State where
  vestingAccounts : Store String VestingAccount
  unallocatedAmount : ℕ
  denom : String
  whitelist : Whitelist

end NibiruWasm.VestingV2
