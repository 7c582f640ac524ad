/-
The part of `cosmwasm_std` the contracts lean on: `Uint128` arithmetic,
the standard error, coins, and the messages a response can carry.

# Amounts

A `Uint128` is a natural number below `2^128`. Its arithmetic comes in
two kinds and the contracts use both:

- `checked_*` returns an error value (`OverflowError`,
  `DivideByZeroError`) that the caller propagates with `?`;
- the operators `+`, `-` and `Sum` panic on overflow, and a panic aborts
  the transaction exactly as an error does. They are modelled as
  functions into `Except StdError` whose failure is `StdError.panic`.

Amounts are `Nat`s: a value a contract stores was produced by one of
these operations, so it stays below `2^128` by construction.

# Messages

A response carries `CosmosMsg`s. Only the variants the contracts build
are modelled; a cw20 `WasmMsg::Execute` carries its `Cw20ExecuteMsg` as
the structured message its JSON binary encodes.
-/
import Mathlib

namespace NibiruWasm.Cosmwasm

-- ======================================================== Uint128

/-- The largest `Uint128`. -/
def Uint128.MAX : ℕ := 2 ^ 128 - 1

/-- The arithmetic operation an `OverflowError` names. -/
inductive OverflowOperation
  | add | sub | mul
  deriving DecidableEq, Repr

/-- `cosmwasm_std::OverflowError`. -/
structure OverflowError where
  operation : OverflowOperation
  operand1 : ℕ
  operand2 : ℕ
  deriving DecidableEq, Repr

/-- `cosmwasm_std::DivideByZeroError`. -/
structure DivideByZeroError where
  operand : ℕ
  deriving DecidableEq, Repr

/-- `cosmwasm_std::StdError`, with `panic` for a Rust panic: the chain
reverts a panicking transaction as it reverts a failed one. -/
inductive StdError
  | genericErr (msg : String)
  | overflow (source : OverflowError)
  | divideByZero (source : DivideByZeroError)
  | notFound (kind : String)
  | panic (msg : String)
  deriving DecidableEq, Repr

/-- `Uint128::checked_add`. -/
def checkedAdd (a b : ℕ) : Except OverflowError ℕ :=
  if a + b ≤ Uint128.MAX then .ok (a + b) else .error ⟨.add, a, b⟩

/-- `Uint128::checked_sub`. -/
def checkedSub (a b : ℕ) : Except OverflowError ℕ :=
  if b ≤ a then .ok (a - b) else .error ⟨.sub, a, b⟩

/-- `Uint128::checked_mul`. -/
def checkedMul (a b : ℕ) : Except OverflowError ℕ :=
  if a * b ≤ Uint128.MAX then .ok (a * b) else .error ⟨.mul, a, b⟩

/-- `Uint128::checked_div`: the floor of the quotient. -/
def checkedDiv (a b : ℕ) : Except DivideByZeroError ℕ :=
  if b = 0 then .error ⟨a⟩ else .ok (a / b)

/-- `Uint128 + Uint128`: panics on overflow. -/
def add (a b : ℕ) : Except StdError ℕ :=
  if a + b ≤ Uint128.MAX then .ok (a + b)
  else .error (.panic "attempt to add with overflow")

/-- `Uint128 - Uint128`: panics on underflow. -/
def sub (a b : ℕ) : Except StdError ℕ :=
  if b ≤ a then .ok (a - b)
  else .error (.panic "attempt to subtract with overflow")

/-- `Uint128 * Uint128`: panics on overflow. -/
def mul (a b : ℕ) : Except StdError ℕ :=
  if a * b ≤ Uint128.MAX then .ok (a * b)
  else .error (.panic "attempt to multiply with overflow")

/-- The largest `u64`. -/
def Uint64.MAX : ℕ := 2 ^ 64 - 1

/-- `u64 + u64`, built with overflow checks: panics on overflow. -/
def addU64 (a b : ℕ) : Except StdError ℕ :=
  if a + b ≤ Uint64.MAX then .ok (a + b)
  else .error (.panic "attempt to add with overflow")

/-- `u64 * u64`, built with overflow checks: panics on overflow. -/
def mulU64 (a b : ℕ) : Except StdError ℕ :=
  if a * b ≤ Uint64.MAX then .ok (a * b)
  else .error (.panic "attempt to multiply with overflow")

/-- `CheckedMultiplyRatioError`. -/
inductive CheckedMultiplyRatioError
  | divideByZero
  | overflow
  deriving DecidableEq, Repr

/-- `CheckedMultiplyRatioError`'s `Debug`. -/
def CheckedMultiplyRatioError.debug : CheckedMultiplyRatioError → String
  | .divideByZero => "DivideByZero"
  | .overflow => "Overflow"

/-- `Uint128::checked_multiply_ratio`: the floor of `a * numerator /
denominator`, computed in `Uint256`, when the denominator is not zero and
the result fits. -/
def checkedMultiplyRatio (a numerator denominator : ℕ) : Except CheckedMultiplyRatioError ℕ :=
  if denominator = 0 then .error .divideByZero
  else if a * numerator / denominator ≤ Uint128.MAX then .ok (a * numerator / denominator)
  else .error .overflow

/-- The largest `Uint256`. -/
def Uint256.MAX : ℕ := 2 ^ 256 - 1

/-- `Uint256 + Uint256`: panics on overflow. -/
def addU256 (a b : ℕ) : Except StdError ℕ :=
  if a + b ≤ Uint256.MAX then .ok (a + b)
  else .error (.panic "attempt to add with overflow")

/-- `Iterator::sum` of `Uint128`s: a left fold of `+` from zero, so it
panics as soon as a partial sum overflows. -/
def sum : List ℕ → Except StdError ℕ :=
  go 0
where
  go (acc : ℕ) : List ℕ → Except StdError ℕ
    | [] => .ok acc
    | a :: as => do go (← add acc a) as

/-- A `Uint128` is below `2^128`. -/
theorem le_MAX_iff {n : ℕ} : n ≤ Uint128.MAX ↔ n < 2 ^ 128 := by
  unfold Uint128.MAX
  omega

@[simp] theorem checkedAdd_eq_ok {a b c : ℕ} :
    checkedAdd a b = .ok c ↔ a + b ≤ Uint128.MAX ∧ c = a + b := by
  unfold checkedAdd
  by_cases h : a + b ≤ Uint128.MAX <;> simp [h, eq_comm]

@[simp] theorem checkedSub_eq_ok {a b c : ℕ} :
    checkedSub a b = .ok c ↔ b ≤ a ∧ c = a - b := by
  unfold checkedSub
  by_cases h : b ≤ a <;> simp [h, eq_comm]

theorem checkedSub_of_le {a b : ℕ} (h : b ≤ a) :
    checkedSub a b = .ok (a - b) := by
  simp [checkedSub, h]

@[simp] theorem checkedMul_eq_ok {a b c : ℕ} :
    checkedMul a b = .ok c ↔ a * b ≤ Uint128.MAX ∧ c = a * b := by
  unfold checkedMul
  by_cases h : a * b ≤ Uint128.MAX <;> simp [h, eq_comm]

@[simp] theorem checkedDiv_eq_ok {a b c : ℕ} :
    checkedDiv a b = .ok c ↔ b ≠ 0 ∧ c = a / b := by
  unfold checkedDiv
  by_cases h : b = 0 <;> simp [h, eq_comm]

@[simp] theorem add_eq_ok {a b c : ℕ} :
    add a b = .ok c ↔ a + b ≤ Uint128.MAX ∧ c = a + b := by
  unfold add
  by_cases h : a + b ≤ Uint128.MAX <;> simp [h, eq_comm]

@[simp] theorem sub_eq_ok {a b c : ℕ} :
    sub a b = .ok c ↔ b ≤ a ∧ c = a - b := by
  unfold sub
  by_cases h : b ≤ a <;> simp [h, eq_comm]

@[simp] theorem mul_eq_ok {a b c : ℕ} :
    mul a b = .ok c ↔ a * b ≤ Uint128.MAX ∧ c = a * b := by
  unfold mul
  by_cases h : a * b ≤ Uint128.MAX <;> simp [h, eq_comm]

@[simp] theorem addU64_eq_ok {a b c : ℕ} :
    addU64 a b = .ok c ↔ a + b ≤ Uint64.MAX ∧ c = a + b := by
  unfold addU64
  by_cases h : a + b ≤ Uint64.MAX <;> simp [h, eq_comm]

@[simp] theorem mulU64_eq_ok {a b c : ℕ} :
    mulU64 a b = .ok c ↔ a * b ≤ Uint64.MAX ∧ c = a * b := by
  unfold mulU64
  by_cases h : a * b ≤ Uint64.MAX <;> simp [h, eq_comm]

@[simp] theorem addU256_eq_ok {a b c : ℕ} :
    addU256 a b = .ok c ↔ a + b ≤ Uint256.MAX ∧ c = a + b := by
  unfold addU256
  by_cases h : a + b ≤ Uint256.MAX <;> simp [h, eq_comm]

/-- Partial sums only grow, so the fold panics exactly when the whole
sum does not fit. -/
theorem sum_go_eq {acc : ℕ} (hacc : acc ≤ Uint128.MAX) : ∀ l : List ℕ,
    sum.go acc l
      = if acc + l.sum ≤ Uint128.MAX then .ok (acc + l.sum)
        else .error (.panic "attempt to add with overflow")
  | [] => by simp [sum.go, hacc]
  | a :: l => by
      by_cases ha : acc + a ≤ Uint128.MAX
      · have ih := sum_go_eq ha l
        simp only [sum.go, add, ha, if_true, bind, Except.bind]
        rw [ih, List.sum_cons, Nat.add_assoc]
      · have hover : ¬acc + (a :: l).sum ≤ Uint128.MAX := by
          rw [List.sum_cons]
          omega
        simp only [sum.go, add, ha, if_false, bind, Except.bind, hover]

/-- `Sum` of `Uint128`s is the plain sum when it fits, and panics when it
does not. -/
theorem sum_eq (l : List ℕ) :
    sum l
      = if l.sum ≤ Uint128.MAX then .ok l.sum
        else .error (.panic "attempt to add with overflow") := by
  have h := sum_go_eq (Nat.zero_le Uint128.MAX) l
  simpa [sum] using h

@[simp] theorem sum_eq_ok {l : List ℕ} {c : ℕ} :
    sum l = .ok c ↔ l.sum ≤ Uint128.MAX ∧ c = l.sum := by
  rw [sum_eq]
  by_cases h : l.sum ≤ Uint128.MAX <;> simp [h, eq_comm]

/-- A linear share `R·x/d` of `R` with `x ≤ d` is at most `R`: the
vested part of a schedule, `checked_mul` then `checked_div`, never
exceeds what it vests. -/
theorem share_le {R x d : ℕ} (hx : x ≤ d) : R * x / d ≤ R :=
  Nat.div_le_of_le_mul (by
    rw [Nat.mul_comm d]
    exact Nat.mul_le_mul_left R hx)

/-- A linear share grows with the elapsed time. -/
theorem share_mono {R x x' d : ℕ} (hx : x ≤ x') :
    R * x / d ≤ R * x' / d :=
  Nat.div_le_div_right (Nat.mul_le_mul_left R hx)

-- ========================================================= coins

/-- `cosmwasm_std::Coin`. -/
structure Coin where
  denom : String
  amount : ℕ
  deriving DecidableEq, Repr

/-- `cosmwasm_std::BankMsg`. -/
inductive BankMsg
  | send (toAddress : String) (amount : List Coin)
  deriving DecidableEq, Repr

/-- `cw20::Cw20ExecuteMsg`, the variant the contracts send. -/
inductive Cw20ExecuteMsg
  | transfer (recipient : String) (amount : ℕ)
  deriving DecidableEq, Repr

/-- `cw20::Denom`: a native denom or a cw20 contract. -/
inductive Denom
  | native (denom : String)
  | cw20 (addr : String)
  deriving DecidableEq, Repr

/-- `cosmwasm_std::StakingMsg`. -/
inductive StakingMsg
  | delegate (validator : String) (amount : Coin)
  | undelegate (validator : String) (amount : Coin)
  deriving DecidableEq, Repr

/-- `cosmwasm_std::DistributionMsg`, the variant the contracts send. -/
inductive DistributionMsg
  | withdrawDelegatorReward (validator : String)
  deriving DecidableEq, Repr

/-- `cosmwasm_std::CosmosMsg`, the variants the contracts build. -/
inductive CosmosMsg
  | bank (msg : BankMsg)
  | wasmExecute (contractAddr : String) (msg : Cw20ExecuteMsg)
      (funds : List Coin)
  | staking (msg : StakingMsg)
  | distribution (msg : DistributionMsg)
  | stargate (typeUrl : String) (value : String)
  deriving DecidableEq, Repr

-- ================================================= the environment

/-- `cosmwasm_std::BlockInfo`; `time` is `Timestamp::seconds`. -/
structure BlockInfo where
  height : ℕ
  time : ℕ
  deriving DecidableEq, Repr

/-- Blocks in chain order: a later block has neither a lower height nor
an earlier time. -/
instance : Preorder BlockInfo where
  le b b' := b.height ≤ b'.height ∧ b.time ≤ b'.time
  le_refl b := ⟨le_rfl, le_rfl⟩
  le_trans _ _ _ h h' := ⟨Nat.le_trans h.1 h'.1, Nat.le_trans h.2 h'.2⟩

instance (b b' : BlockInfo) : Decidable (b ≤ b') :=
  inferInstanceAs (Decidable (b.height ≤ b'.height ∧ b.time ≤ b'.time))

/-- `cosmwasm_std::Timestamp`: nanoseconds since the epoch, a `u64`.
Timestamps compare by their nanoseconds. -/
structure Timestamp where
  nanos : ℕ
  nanos_lt : nanos < 2 ^ 64
  deriving DecidableEq

/-- `Timestamp::seconds`. -/
def Timestamp.seconds (t : Timestamp) : ℕ := t.nanos / 1000000000

/-- The seconds of a timestamp fit in a `Uint128`. -/
theorem Timestamp.seconds_lt (t : Timestamp) : t.seconds < 2 ^ 128 :=
  calc t.seconds ≤ t.nanos := Nat.div_le_self _ _
    _ < 2 ^ 64 := t.nanos_lt
    _ < 2 ^ 128 := Nat.pow_lt_pow_right (by decide) (by decide)

/-- `cosmwasm_std::Env`. -/
structure Env where
  block : BlockInfo
  contractAddress : String
  deriving DecidableEq, Repr

/-- `cosmwasm_std::MessageInfo`. -/
structure MessageInfo where
  sender : String
  funds : List Coin
  deriving DecidableEq, Repr

/-- How `OverflowError`'s operation prints. -/
def OverflowOperation.display : OverflowOperation → String
  | .add => "Add"
  | .sub => "Sub"
  | .mul => "Mul"

/-- `StdError`'s `Display`. -/
def StdError.display : StdError → String
  | .genericErr msg => "Generic error: " ++ msg
  | .overflow e => "Overflow: Cannot " ++ e.operation.display ++ " with "
      ++ toString e.operand1 ++ " and " ++ toString e.operand2
  | .divideByZero e => "Divide by zero: Cannot divide "
      ++ toString e.operand ++ " by zero"
  | .notFound kind => kind ++ " not found"
  | .panic msg => msg

/-- The JSON text `serde_json::to_string` gives a string that needs no
escaping, as denoms and addresses do not. -/
def jsonString (s : String) : String := "\"" ++ s ++ "\""

/-- The JSON `serde_json::to_string` gives a `Denom` (externally tagged,
snake case), for a denom or an address that needs no escaping. -/
def Denom.toJson : Denom → String
  | .native denom => "\x7b\"native\":" ++ jsonString denom ++ "\x7d"
  | .cw20 addr => "\x7b\"cw20\":" ++ jsonString addr ++ "\x7d"

/-- Rust's `{:?}` of a string of printable characters: quoted, with
quotes and backslashes escaped. -/
def debugString (s : String) : String :=
  "\"" ++ String.ofList (s.toList.flatMap fun c =>
    if c = '"' ∨ c = '\\' then ['\\', c] else [c]) ++ "\""

end NibiruWasm.Cosmwasm
