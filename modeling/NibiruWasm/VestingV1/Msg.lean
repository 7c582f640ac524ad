/-
core-token-vesting (v1), messages and schedules (`msg.rs`, `errors.rs`).

A vesting schedule carries its own vesting amount; registration checks
it against the deposit, so an account's schedule pays out exactly what
was deposited. `vested_amount` is computed from the schedule alone:

- `LinearVesting`: nothing up to the start, everything from the end on,
  and in between the share of the elapsed time, through checked
  `Uint128` arithmetic;
- `LinearVestingWithCliff`: nothing before the cliff, the cliff amount
  at it, everything from the end on, and in between the cliff amount
  plus the elapsed share of the rest.

The `u64` subtractions only run where they cannot underflow, but they
are the panicking operators all the same.
-/
import NibiruWasm.Cosmwasm.Std

namespace NibiruWasm.VestingV1

open Cosmwasm

-- ========================================================= errors

/-- `CliffError`. -/
inductive CliffError
  | zeroAmount
  | invalidTime (cliffTime blockTime : ℕ)
  | excessiveAmount (cliffAmount vestingAmount : ℕ)
  deriving DecidableEq, Repr

/-- `VestingError`. -/
inductive VestingError
  | zeroVestingAmount
  | invalidTimeRange (startTime endTime : ℕ)
  | cliff (e : CliffError)
  | mismatchedVestingAndDepositAmount (vestingAmount depositAmount : ℕ)
  deriving DecidableEq, Repr

/-- `ContractError`. -/
inductive ContractError
  | std (e : StdError)
  | vesting (e : VestingError)
  | cliff (e : CliffError)
  | overflow (e : OverflowError)
  deriving DecidableEq, Repr

-- ====================================================== schedules

/-- `VestingSchedule`; times are in seconds. -/
inductive VestingSchedule
  | linearVesting (startTime endTime vestingAmount : ℕ)
  | linearVestingWithCliff (startTime endTime vestingAmount cliffAmount cliffTime : ℕ)
  deriving DecidableEq, Repr

/-- `Cliff`. -/
structure Cliff where
  amount : ℕ
  time : ℕ

/-- `Cliff::ok`: a positive cliff amount, not above the vesting amount,
at a cliff time not before the block. -/
def Cliff.ok (self : Cliff) (blockTime vestingAmount : ℕ) : Except CliffError Unit :=
  if self.amount = 0 then .error .zeroAmount
  else if self.time < blockTime then .error (.invalidTime self.time blockTime)
  else if self.amount > vestingAmount then
    .error (.excessiveAmount self.amount vestingAmount)
  else .ok ()

/-- `VestingSchedule::vested_amount` at a block time in seconds. -/
def VestingSchedule.vestedAmount : VestingSchedule → ℕ → Except StdError ℕ
  | .linearVesting startTime endTime vestingAmount, blockTime =>
      if blockTime ≤ startTime then .ok 0
      else if blockTime ≥ endTime then .ok vestingAmount
      else do
        let elapsed ← sub blockTime startTime
        let scaled ← (checkedMul vestingAmount elapsed).mapError .overflow
        let span ← sub endTime startTime
        (checkedDiv scaled span).mapError .divideByZero
  | .linearVestingWithCliff _startTime endTime vestingAmount cliffAmount cliffTime,
      blockTime =>
      if blockTime < cliffTime then .ok 0
      else if blockTime = cliffTime then .ok cliffAmount
      else if blockTime ≥ endTime then .ok vestingAmount
      else do
        let remainingToken ←
          (checkedSub vestingAmount cliffAmount).mapError .overflow
        let elapsed ← sub blockTime cliffTime
        let scaled ← (checkedMul remainingToken elapsed).mapError .overflow
        let span ← sub endTime cliffTime
        let vestedToken ← (checkedDiv scaled span).mapError .divideByZero
        add vestedToken cliffAmount

/-- `VestingSchedule::validate` against the block time and the deposit. -/
def VestingSchedule.validate : VestingSchedule → ℕ → ℕ → Except VestingError Unit
  | .linearVesting startTime endTime vestingAmount, _blockTime, depositAmount =>
      if vestingAmount = 0 then .error .zeroVestingAmount
      else if endTime ≤ startTime then .error (.invalidTimeRange startTime endTime)
      else if vestingAmount ≠ depositAmount then
        .error (.mismatchedVestingAndDepositAmount vestingAmount depositAmount)
      else .ok ()
  | .linearVestingWithCliff startTime endTime vestingAmount cliffAmount cliffTime,
      blockTime, depositAmount =>
      if vestingAmount = 0 then .error .zeroVestingAmount
      else if endTime ≤ startTime then .error (.invalidTimeRange startTime endTime)
      else if vestingAmount ≠ depositAmount then
        .error (.mismatchedVestingAndDepositAmount vestingAmount depositAmount)
      else (Cliff.ok ⟨cliffAmount, cliffTime⟩ blockTime vestingAmount).mapError .cliff

/-- The schedule's own vesting amount. -/
def VestingSchedule.vestingAmount : VestingSchedule → ℕ
  | .linearVesting _ _ vestingAmount => vestingAmount
  | .linearVestingWithCliff _ _ vestingAmount _ _ => vestingAmount

-- ======================================================= messages

/-- `Cw20HookMsg`. -/
inductive Cw20HookMsg
  | registerVestingAccount (masterAddress : Option String) (address : String)
      (vestingSchedule : VestingSchedule)
  deriving DecidableEq, Repr

/-- `cw20::Cw20ReceiveMsg`; `msg` is the hook message its binary decodes
to, `none` where `from_json` fails. -/
structure Cw20ReceiveMsg where
  sender : String
  amount : ℕ
  msg : Option Cw20HookMsg
  deriving DecidableEq, Repr

/-- `ExecuteMsg`. -/
inductive ExecuteMsg
  | receive (msg : Cw20ReceiveMsg)
  | registerVestingAccount (address : String) (masterAddress : Option String)
      (vestingSchedule : VestingSchedule)
  | deregisterVestingAccount (address : String) (denom : Denom)
      (vestedTokenRecipient leftVestingTokenRecipient : Option String)
  | claim (denoms : List Denom) (recipient : Option String)
  deriving DecidableEq, Repr

end NibiruWasm.VestingV1
