/-
How broker-staking's `stake` splits its amount over validators.

`stake` gives each validator `amount * share / total_shares` and skips
the parts that are zero. The product is `Uint128`'s panicking
multiplication, taken before the division. When every product fits,
`stake` sends exactly the nonzero parts (`stakeMessages_eq_ok`), and the
parts sum to at most the amount and to more than the amount minus the
number of validators (`splitSum_le`, `lt_splitSum_add_length`): each
floor loses less than one. A product past `Uint128::MAX` fails the whole
transaction, although the part it would delegate fits
(`stake_product_overflow`).
-/
import NibiruWasm.Broker.Staking
import NibiruWasm.Chain.Except
import Mathlib.Algebra.BigOperators.Ring.List
import Mathlib.Algebra.Ring.Nat

namespace NibiruWasm.BrokerStaking

open Cosmwasm Chain Ownable BrokerBank

/-- A validator's part of `amount`: `amount * share / total_shares`. -/
def splitAmount (amount totalShares : ℕ) (m : StakeMsg) : ℕ := amount * m.share / totalShares

/-- The delegations the split means: each nonzero part, to its
validator, in the order of the request. -/
def delegations (amount totalShares : ℕ) (stakeMsgs : List StakeMsg) : List CosmosMsg :=
  stakeMsgs.filterMap fun m =>
    if splitAmount amount totalShares m = 0 then none
    else some (buildStakeMessage (splitAmount amount totalShares m) m.validator)

/-- The amount a message delegates. -/
def delegatedAmount : CosmosMsg → ℕ
  | .staking (.delegate _ coin) => coin.amount
  | _ => 0

-- ======================================================= the loop

theorem delegations_cons (amount totalShares : ℕ) (m : StakeMsg) (rest : List StakeMsg) :
    delegations amount totalShares (m :: rest)
      = if splitAmount amount totalShares m = 0 then delegations amount totalShares rest
        else buildStakeMessage (splitAmount amount totalShares m) m.validator
          :: delegations amount totalShares rest := by
  by_cases hz : splitAmount amount totalShares m = 0 <;> simp [delegations, hz]

/-- When every product fits, the loop of `stake` sends the nonzero
parts. -/
theorem stakeMessages_of_fits {amount totalShares : ℕ} :
    ∀ {stakeMsgs : List StakeMsg}, (∀ m ∈ stakeMsgs, amount * m.share ≤ Uint128.MAX) →
      stakeMessages amount totalShares stakeMsgs = .ok (delegations amount totalShares stakeMsgs)
  | [], _ => rfl
  | m :: rest, hfit => by
      rw [List.forall_mem_cons] at hfit
      have hmul : mul amount m.share = .ok (amount * m.share) := mul_eq_ok.mpr ⟨hfit.1, rfl⟩
      rw [stakeMessages, hmul, mapError_ok, ok_bind, stakeMessages_of_fits hfit.2, ok_bind,
        delegations_cons, splitAmount]
      split <;> rfl

/-- A committed loop had every product fit. -/
theorem fits_of_stakeMessages {amount totalShares : ℕ} {ms : List CosmosMsg} :
    ∀ {stakeMsgs : List StakeMsg}, stakeMessages amount totalShares stakeMsgs = .ok ms →
      ∀ m ∈ stakeMsgs, amount * m.share ≤ Uint128.MAX
  | [], _ => by simp
  | m :: rest, h => by
      simp only [stakeMessages, bind_eq_ok, mapError_eq_ok, mul_eq_ok] at h
      obtain ⟨p, ⟨hp, -⟩, msgs, hmsgs, -⟩ := h
      exact List.forall_mem_cons.mpr ⟨hp, fits_of_stakeMessages hmsgs⟩

/-- The loop of `stake` commits exactly when every product fits, and
then sends the nonzero parts. -/
theorem stakeMessages_eq_ok {amount totalShares : ℕ} {ms : List CosmosMsg}
    {stakeMsgs : List StakeMsg} :
    stakeMessages amount totalShares stakeMsgs = .ok ms ↔
      (∀ m ∈ stakeMsgs, amount * m.share ≤ Uint128.MAX)
        ∧ ms = delegations amount totalShares stakeMsgs := by
  constructor
  · intro h
    have hfit := fits_of_stakeMessages h
    rw [stakeMessages_of_fits hfit, Except.ok.injEq] at h
    exact ⟨hfit, h.symm⟩
  · rintro ⟨hfit, rfl⟩
    exact stakeMessages_of_fits hfit

/-- The delegations send the sum of the parts: a skipped part is zero. -/
theorem delegatedAmount_delegations (amount totalShares : ℕ) :
    ∀ stakeMsgs : List StakeMsg,
      ((delegations amount totalShares stakeMsgs).map delegatedAmount).sum
        = (stakeMsgs.map (splitAmount amount totalShares)).sum
  | [] => rfl
  | m :: rest => by
      have ih := delegatedAmount_delegations amount totalShares rest
      rw [delegations_cons]
      by_cases hz : splitAmount amount totalShares m = 0
      · rw [if_pos hz, ih]
        simp [hz]
      · rw [if_neg hz, List.map_cons, List.sum_cons, ih]
        simp [delegatedAmount, buildStakeMessage]

-- ==================================================== the rounding

/-- Floors of quotients by one divisor, times the divisor, stay within
the sum of the dividends. -/
theorem sum_div_mul_le (d : ℕ) : ∀ l : List ℕ, (l.map (· / d)).sum * d ≤ l.sum
  | [] => by simp
  | x :: l => by
      have ih := sum_div_mul_le d l
      have hx := Nat.div_mul_le_self x d
      simp only [List.map_cons, List.sum_cons, Nat.add_mul]
      omega

/-- Each floor loses less than the divisor, so the floors plus one per
dividend, times the divisor, exceed the sum. -/
theorem sum_lt_sum_div_add_length_mul {d : ℕ} (hd : 0 < d) :
    ∀ l : List ℕ, l ≠ [] → l.sum < ((l.map (· / d)).sum + l.length) * d
  | [x], _ => by
      have hx := Nat.lt_div_mul_add (a := x) hd
      simp only [List.map_cons, List.map_nil, List.sum_cons, List.sum_nil, List.length_singleton]
      rw [Nat.add_zero, Nat.add_zero, Nat.add_mul, Nat.one_mul]
      exact hx
  | x :: y :: l, _ => by
      have ih := sum_lt_sum_div_add_length_mul hd (y :: l) (List.cons_ne_nil y l)
      have hx := Nat.lt_div_mul_add (a := x) hd
      simp only [List.map_cons, List.sum_cons, List.length_cons] at ih ⊢
      simp only [Nat.add_mul, Nat.one_mul] at ih hx ⊢
      omega

variable {amount : ℕ} {stakeMsgs : List StakeMsg}

/-- The parts of `amount` sum to at most `amount`. -/
theorem splitSum_le (htot : 0 < (stakeMsgs.map StakeMsg.share).sum) :
    (stakeMsgs.map (splitAmount amount (stakeMsgs.map StakeMsg.share).sum)).sum ≤ amount := by
  set T := (stakeMsgs.map StakeMsg.share).sum
  have hprod : (stakeMsgs.map fun m => amount * m.share).sum = amount * T := by
    exact List.sum_map_mul_left stakeMsgs StakeMsg.share amount
  have hle := sum_div_mul_le T (stakeMsgs.map fun m => amount * m.share)
  rw [List.map_map, hprod] at hle
  exact Nat.le_of_mul_le_mul_right hle htot

/-- Rounding loses less than one unit per validator. -/
theorem lt_splitSum_add_length (htot : 0 < (stakeMsgs.map StakeMsg.share).sum) :
    amount < (stakeMsgs.map (splitAmount amount (stakeMsgs.map StakeMsg.share).sum)).sum
      + stakeMsgs.length := by
  set T := (stakeMsgs.map StakeMsg.share).sum
  have hne : stakeMsgs ≠ [] := by
    rintro rfl
    simp [T] at htot
  have hprod : (stakeMsgs.map fun m => amount * m.share).sum = amount * T := by
    exact List.sum_map_mul_left stakeMsgs StakeMsg.share amount
  have hlt := sum_lt_sum_div_add_length_mul htot (stakeMsgs.map fun m => amount * m.share)
    (by simpa using hne)
  rw [List.map_map, hprod, List.length_map] at hlt
  exact Nat.lt_of_mul_lt_mul_right hlt

-- ===================================================== the overflow

/-- The owner of a fresh broker-staking, not halted, stakes `2^127` over
one validator with share 2: the part is `2^127`, which fits, but the
product `2^128` does not, and `stake` panics. -/
theorem stake_product_overflow :
    (instantiate ⟨"owner", ∅, ∅⟩).isHalted = false
      ∧ (instantiate ⟨"owner", ∅, ∅⟩).ownership.owner = some "owner"
      ∧ 2 ^ 127 ≤ Uint128.MAX ∧ 2 ≤ Uint128.MAX
      ∧ splitAmount (2 ^ 127) 2 ⟨2, "val"⟩ = 2 ^ 127
      ∧ stake (instantiate ⟨"owner", ∅, ∅⟩) ⟨"owner", []⟩ [⟨2, "val"⟩] (2 ^ 127)
        = .error (.std (.panic "attempt to multiply with overflow")) :=
  ⟨rfl, rfl, by decide, by decide, by decide, rfl⟩

end NibiruWasm.BrokerStaking
