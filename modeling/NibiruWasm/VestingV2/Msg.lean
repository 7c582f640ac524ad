/-
core-token-vesting-v2, messages and errors (`msg.rs`, `errors.rs`).

The campaign's admin funds the contract once at instantiation; managers
and the admin then reward users in batches under one shared schedule
(`RewardUsers`), deregister them in batches (`DeregisterVestingAccounts`),
users `Claim` what has vested, and the admin `Withdraw`s what no account
holds. The two validations here are the only checks a stored account
ever passed: the schedule's time order and the request's amounts.

Error texts are the `thiserror` attributes of `errors.rs`; the standard
errors print as `cosmwasm_std` prints them. The query outputs keep the
fields the queries fill; `vesting_denom` is always `Denom::Native`, so it
is kept as the native denom's name.
-/
import NibiruWasm.Cosmwasm.Std

namespace NibiruWasm.VestingV2

open Cosmwasm

-- ========================================================= errors

/-- `VestingError`. -/
inductive VestingError
  | zeroVestingAmount
  | invalidTimeRange (startTime cliffTime endTime : ℕ)
  | excessiveAmount (cliffAmount vestingAmount : ℕ)
  | mismatchedVestingAndDepositAmount (vestingAmount depositAmount : ℕ)
  deriving DecidableEq, Repr

/-- `ContractError`. -/
inductive ContractError
  | std (e : StdError)
  | vesting (e : VestingError)
  | overflow (e : OverflowError)
  deriving DecidableEq, Repr

/-- A panic is not an error value: no `match` on a `Result` catches it,
and it aborts the whole transaction. -/
def ContractError.isPanic : ContractError → Bool
  | .std (.panic _) => true
  | _ => false

/-- `VestingError`'s `Display`, from its `#[error]` attributes. -/
def VestingError.display : VestingError → String
  | .zeroVestingAmount => "vesting_amount is zero but should be greater than 0"
  | .invalidTimeRange startTime _ endTime =>
      "end_time (" ++ toString endTime ++ ") should be greater than start_time ("
        ++ toString startTime ++ ")"
  | .excessiveAmount cliffAmount vestingAmount =>
      "cliff_amount (" ++ toString cliffAmount
        ++ ") should be less than or equal to vesting_amount ("
        ++ toString vestingAmount ++ ")"
  | .mismatchedVestingAndDepositAmount vestingAmount depositAmount =>
      "vesting_amount (" ++ toString vestingAmount
        ++ ") should be equal to deposit_amount (" ++ toString depositAmount ++ ")"

/-- `ContractError`'s `Display`: every variant is `#[error(transparent)]`. -/
def ContractError.display : ContractError → String
  | .std e => e.display
  | .vesting e => e.display
  | .overflow e => StdError.display (.overflow e)

-- ======================================================= messages

/-- `InstantiateMsg`. -/
structure InstantiateMsg where
  admin : String
  managers : List String
  deriving DecidableEq, Repr

/-- `VestingSchedule`; times are in seconds. -/
inductive VestingSchedule
  | linearVestingWithCliff (startTime endTime cliffTime : ℕ)
  deriving DecidableEq, Repr

/-- `RewardUserRequest`. -/
structure RewardUserRequest where
  userAddress : String
  vestingAmount : ℕ
  cliffAmount : ℕ
  deriving DecidableEq, Repr

/-- `ExecuteMsg`. -/
inductive ExecuteMsg
  | rewardUsers (rewards : List RewardUserRequest)
      (vestingSchedule : VestingSchedule)
  | deregisterVestingAccounts (addresses : List String)
  | claim
  | withdraw (amount : ℕ)
  deriving DecidableEq, Repr

/-- `RewardUserResponse`: one entry of `RewardUsers`' response data. -/
structure RewardUserResponse where
  userAddress : String
  success : Bool
  errorMsg : String
  deriving DecidableEq, Repr

/-- `DeregisterUserResponse`: one entry of `DeregisterVestingAccounts`'
response data. -/
structure DeregisterUserResponse where
  userAddress : String
  success : Bool
  errorMsg : String
  deriving DecidableEq, Repr

/-- `VestingScheduleQueryOutput`. -/
inductive VestingScheduleQueryOutput
  | linearVestingWithCliff (startTime endTime cliffTime vestingAmount
      cliffAmount : ℕ)
  deriving DecidableEq, Repr

/-- `from_vesting_to_query_output`. -/
def fromVestingToQueryOutput (vesting : VestingSchedule)
    (vestingAmount cliffAmount : ℕ) : VestingScheduleQueryOutput :=
  match vesting with
  | .linearVestingWithCliff startTime endTime cliffTime =>
      .linearVestingWithCliff startTime endTime cliffTime vestingAmount cliffAmount

structure VestingData where
  masterAddress : Option String
  vestingDenom : String
  vestingAmount : ℕ
  vestingSchedule : VestingScheduleQueryOutput
  vestedAmount : ℕ
  claimableAmount : ℕ
  deriving DecidableEq, Repr

structure VestingAccountResponse where
  address : String
  vestings : List VestingData
  deriving DecidableEq, Repr

-- ==================================================== validation

/-- `RewardUserRequest::validate`. -/
def RewardUserRequest.validate (self : RewardUserRequest) :
    Except ContractError Unit :=
  if self.vestingAmount = 0 then .error (.vesting .zeroVestingAmount)
  else if self.cliffAmount > self.vestingAmount then
    .error (.vesting (.excessiveAmount self.cliffAmount self.vestingAmount))
  else .ok ()

/-- `VestingSchedule::validate`. -/
def VestingSchedule.validate : VestingSchedule → Except VestingError Unit
  | .linearVestingWithCliff startTime endTime cliffTime =>
      if endTime ≤ startTime then
        .error (.invalidTimeRange startTime cliffTime endTime)
      else if cliffTime < startTime then
        .error (.invalidTimeRange startTime cliffTime endTime)
      else if cliffTime > endTime then
        .error (.invalidTimeRange startTime cliffTime endTime)
      else .ok ()

/-- What `RewardUserRequest::validate` accepts. -/
theorem RewardUserRequest.validate_eq_ok {r : RewardUserRequest} :
    r.validate = .ok () ↔ 0 < r.vestingAmount ∧ r.cliffAmount ≤ r.vestingAmount := by
  unfold RewardUserRequest.validate
  by_cases h0 : r.vestingAmount = 0
  · simp [h0]
  · by_cases hc : r.cliffAmount > r.vestingAmount
    · simp [h0, hc]
    · simp only [h0, hc, if_false]
      simp only [gt_iff_lt, Nat.not_lt] at hc
      simp [Nat.pos_of_ne_zero h0, hc]

/-- What `VestingSchedule::validate` accepts: a non-empty period with
the cliff inside it. -/
theorem VestingSchedule.validate_eq_ok {startTime endTime cliffTime : ℕ} :
    (VestingSchedule.linearVestingWithCliff startTime endTime cliffTime).validate
        = .ok ()
      ↔ startTime < endTime ∧ startTime ≤ cliffTime ∧ cliffTime ≤ endTime := by
  simp only [VestingSchedule.validate]
  split_ifs <;> simp <;> omega

end NibiruWasm.VestingV2
