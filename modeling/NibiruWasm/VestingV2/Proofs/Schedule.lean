/-
What `vested_amount` returns, region by region, and the two facts the
invariants rest on.

# The regions

For a schedule `linearVestingWithCliff s e c`, `vestedAmount` branches
on the block time `t`:

- `t < c`: zero (`vestedAmount_of_lt_cliff`);
- `t = c`: the cliff amount, even when the cliff is the end
  (`vestedAmount_at_cliff`);
- `c < t`, `e ≤ t`: everything (`vestedAmount_of_end_le`);
- `c < t < e`: the cliff amount plus the floor of the linear share of
  the rest, unless the product overflows `Uint128`
  (`vestedAmount_between`, `vestedAmount_between_eq`,
  `vestedAmount_between_overflow`).

# What follows

With the cliff amount at most the vesting amount — what
`RewardUserRequest::validate` checks — every value `vestedAmount`
returns is at most the vesting amount (`vestedAmount_le`) and the
values it returns never decrease in time (`vestedAmount_mono`). Both are
about successful calls only: an overflowing product has no value.

Against the schedule the contract is meant to follow, `referenceVested`:
once the largest product fits, `vestedAmount` is the reference at every
block time but the cliff when the cliff is the end, and inside the
period a product that does not fit is an overflow
(`vestedAmount_reference_or_overflow`).
-/
import NibiruWasm.VestingV2.State
import NibiruWasm.Chain.Except

namespace NibiruWasm.VestingV2

open Cosmwasm Chain

variable {a : VestingAccount} {s e c t v : ℕ}

-- ======================================================== regions

theorem vestedAmount_of_lt_cliff
    (hs : a.vestingSchedule = .linearVestingWithCliff s e c) (h : t < c) :
    a.vestedAmount t = .ok 0 := by
  simp [VestingAccount.vestedAmount, hs, h]

theorem vestedAmount_at_cliff
    (hs : a.vestingSchedule = .linearVestingWithCliff s e c) :
    a.vestedAmount c = .ok a.cliffAmount := by
  simp [VestingAccount.vestedAmount, hs]

theorem vestedAmount_of_end_le
    (hs : a.vestingSchedule = .linearVestingWithCliff s e c)
    (hc : c < t) (he : e ≤ t) :
    a.vestedAmount t = .ok a.vestingAmount := by
  have h1 : ¬t < c := by omega
  have h2 : t ≠ c := by omega
  simp [VestingAccount.vestedAmount, hs, h1, h2, he]

/-- Strictly inside the period the checked arithmetic runs: the
subtraction and the product both succeeded, and the value is the cliff
amount plus the floor of the linear share. -/
theorem vestedAmount_between
    (hs : a.vestingSchedule = .linearVestingWithCliff s e c)
    (hc : c < t) (he : t < e) (hv : a.vestedAmount t = .ok v) :
    a.cliffAmount ≤ a.vestingAmount
      ∧ (a.vestingAmount - a.cliffAmount) * (t - c) ≤ Uint128.MAX
      ∧ v = (a.vestingAmount - a.cliffAmount) * (t - c) / (e - c)
          + a.cliffAmount := by
  have h1 : ¬t < c := by omega
  have h2 : t ≠ c := by omega
  have h3 : ¬e ≤ t := by omega
  simp only [VestingAccount.vestedAmount, hs, h1, h2, ge_iff_le, h3,
    if_false, bind_eq_ok, mapError_eq_ok, checkedSub_eq_ok, sub_eq_ok,
    checkedMul_eq_ok, checkedDiv_eq_ok, add_eq_ok] at hv
  obtain ⟨r, ⟨hcl, rfl⟩, el, ⟨-, rfl⟩, p, ⟨hp, rfl⟩, sp, ⟨-, rfl⟩, q,
    ⟨-, rfl⟩, -, rfl⟩ := hv
  exact ⟨hcl, hp, rfl⟩

/-- Inside the period, with the cliff amount at most the vesting amount
and the product in range, the call succeeds. -/
theorem vestedAmount_between_eq
    (hs : a.vestingSchedule = .linearVestingWithCliff s e c)
    (hc : c < t) (he : t < e) (hcl : a.cliffAmount ≤ a.vestingAmount)
    (hfit : a.vestingAmount ≤ Uint128.MAX)
    (hm : (a.vestingAmount - a.cliffAmount) * (t - c) ≤ Uint128.MAX) :
    a.vestedAmount t
      = .ok ((a.vestingAmount - a.cliffAmount) * (t - c) / (e - c)
          + a.cliffAmount) := by
  have h1 : ¬t < c := by omega
  have h2 : t ≠ c := by omega
  have h3 : ¬e ≤ t := by omega
  have hshare : (a.vestingAmount - a.cliffAmount) * (t - c) / (e - c)
      ≤ a.vestingAmount - a.cliffAmount := share_le (by omega)
  have hadd : (a.vestingAmount - a.cliffAmount) * (t - c) / (e - c)
      + a.cliffAmount ≤ Uint128.MAX := by omega
  simp [VestingAccount.vestedAmount, hs, h1, h2, h3, checkedSub, sub,
    checkedMul, checkedDiv, add, hcl, hm, hadd, bind, Except.bind,
    Except.mapError, Nat.le_of_lt hc, Nat.le_of_lt (Nat.lt_trans hc he),
    Nat.sub_ne_zero_of_lt (Nat.lt_trans hc he)]

/-- Inside the period, a product past `Uint128::MAX` makes the call fail
with the multiplication's overflow. -/
theorem vestedAmount_between_overflow
    (hs : a.vestingSchedule = .linearVestingWithCliff s e c)
    (hc : c < t) (he : t < e) (hcl : a.cliffAmount ≤ a.vestingAmount)
    (hm : Uint128.MAX < (a.vestingAmount - a.cliffAmount) * (t - c)) :
    a.vestedAmount t
      = .error (.overflow ⟨.mul, a.vestingAmount - a.cliffAmount, t - c⟩) := by
  have h1 : ¬t < c := by omega
  have h2 : t ≠ c := by omega
  have h3 : ¬e ≤ t := by omega
  have hm' : ¬(a.vestingAmount - a.cliffAmount) * (t - c) ≤ Uint128.MAX := by
    omega
  simp [VestingAccount.vestedAmount, hs, h1, h2, h3, checkedSub, sub,
    checkedMul, hcl, hm', bind, Except.bind, Except.mapError,
    Nat.le_of_lt hc]

-- ================================================ bound and growth

/-- With the cliff amount at most the vesting amount, nothing
`vestedAmount` returns exceeds the vesting amount. -/
theorem vestedAmount_le (hcl : a.cliffAmount ≤ a.vestingAmount)
    (hv : a.vestedAmount t = .ok v) : v ≤ a.vestingAmount := by
  cases hs : a.vestingSchedule with
  | linearVestingWithCliff s e c =>
      rcases Nat.lt_trichotomy t c with hlt | rfl | hgt
      · rw [vestedAmount_of_lt_cliff hs hlt] at hv
        cases hv
        exact Nat.zero_le _
      · rw [vestedAmount_at_cliff hs] at hv
        cases hv
        exact hcl
      · by_cases he : e ≤ t
        · rw [vestedAmount_of_end_le hs hgt he] at hv
          cases hv
          exact le_refl _
        · obtain ⟨-, -, rfl⟩ := vestedAmount_between hs hgt (by omega) hv
          have hshare : (a.vestingAmount - a.cliffAmount) * (t - c) / (e - c)
              ≤ a.vestingAmount - a.cliffAmount := share_le (by omega)
          omega

/-- From the cliff on, what `vestedAmount` returns is at least the cliff
amount. -/
theorem cliffAmount_le_vestedAmount
    (hs : a.vestingSchedule = .linearVestingWithCliff s e c)
    (hcl : a.cliffAmount ≤ a.vestingAmount) (hc : c ≤ t)
    (hv : a.vestedAmount t = .ok v) : a.cliffAmount ≤ v := by
  rcases Nat.eq_or_lt_of_le hc with rfl | hgt
  · rw [vestedAmount_at_cliff hs] at hv
    cases hv
    exact le_refl _
  · by_cases he : e ≤ t
    · rw [vestedAmount_of_end_le hs hgt he] at hv
      cases hv
      exact hcl
    · obtain ⟨-, -, rfl⟩ := vestedAmount_between hs hgt (by omega) hv
      exact Nat.le_add_left _ _

/-- Vesting never goes backwards: of two successful calls, the later one
returns at least as much. -/
theorem vestedAmount_mono {t' v' : ℕ} (hcl : a.cliffAmount ≤ a.vestingAmount)
    (htt : t ≤ t') (hv : a.vestedAmount t = .ok v)
    (hv' : a.vestedAmount t' = .ok v') : v ≤ v' := by
  cases hs : a.vestingSchedule with
  | linearVestingWithCliff s e c =>
      rcases Nat.lt_trichotomy t c with hlt | rfl | hgt
      · rw [vestedAmount_of_lt_cliff hs hlt] at hv
        cases hv
        exact Nat.zero_le _
      · rw [vestedAmount_at_cliff hs] at hv
        cases hv
        exact cliffAmount_le_vestedAmount hs hcl htt hv'
      · by_cases he : e ≤ t
        · -- both calls are past the end
          rw [vestedAmount_of_end_le hs hgt he] at hv
          rw [vestedAmount_of_end_le hs (by omega) (by omega)] at hv'
          cases hv
          cases hv'
          exact le_refl _
        · obtain ⟨-, -, rfl⟩ := vestedAmount_between hs hgt (by omega) hv
          by_cases he' : e ≤ t'
          · rw [vestedAmount_of_end_le hs (by omega) he'] at hv'
            cases hv'
            have hshare : (a.vestingAmount - a.cliffAmount) * (t - c) / (e - c)
                ≤ a.vestingAmount - a.cliffAmount := share_le (by omega)
            omega
          · obtain ⟨-, -, rfl⟩ :=
              vestedAmount_between hs (by omega) (by omega) hv'
            have hgrow : (a.vestingAmount - a.cliffAmount) * (t - c) / (e - c)
                ≤ (a.vestingAmount - a.cliffAmount) * (t' - c) / (e - c) :=
              share_mono (by omega)
            omega

-- ============================================ the reference schedule

/-- The schedule a linear vesting with a cliff is meant to follow:
nothing before the cliff, everything from the end on, and in between the
cliff amount plus the floor of the elapsed share of the rest. -/
def referenceVested (vestingAmount cliffAmount endTime cliffTime t : ℕ) : ℕ :=
  if t < cliffTime then 0
  else if endTime ≤ t then vestingAmount
  else cliffAmount + (vestingAmount - cliffAmount) * (t - cliffTime) / (endTime - cliffTime)

/-- On a validated account whose largest product fits, `vestedAmount`
is the reference schedule at every block time but one: the cliff, when
the cliff is the end. The `t = cliff` branch runs before the `t ≥ end`
one, so there it returns the cliff amount. -/
theorem vestedAmount_eq_referenceVested
    (hs : a.vestingSchedule = .linearVestingWithCliff s e c) (hce : c ≤ e)
    (hcl : a.cliffAmount ≤ a.vestingAmount) (hfit : a.vestingAmount ≤ Uint128.MAX)
    (hm : (a.vestingAmount - a.cliffAmount) * (e - c) ≤ Uint128.MAX)
    (hne : ¬(t = c ∧ c = e)) :
    a.vestedAmount t = .ok (referenceVested a.vestingAmount a.cliffAmount e c t) := by
  rcases Nat.lt_trichotomy t c with hlt | rfl | hgt
  · rw [vestedAmount_of_lt_cliff hs hlt, referenceVested, if_pos hlt]
  · -- at the cliff, strictly before the end, the elapsed share is zero
    have hlt : t < e := by omega
    rw [vestedAmount_at_cliff hs, referenceVested, if_neg (Nat.lt_irrefl t),
      if_neg (Nat.not_le.mpr hlt), Nat.sub_self, Nat.mul_zero, Nat.zero_div, Nat.add_zero]
  · by_cases hend : e ≤ t
    · rw [vestedAmount_of_end_le hs hgt hend, referenceVested, if_neg (Nat.not_lt.mpr hgt.le),
        if_pos hend]
    · have hte : t < e := Nat.lt_of_not_le hend
      -- the product at `t` is at most the one at the end
      have hmt : (a.vestingAmount - a.cliffAmount) * (t - c) ≤ Uint128.MAX :=
        le_trans (Nat.mul_le_mul_left _ (by omega)) hm
      rw [vestedAmount_between_eq hs hgt hte hcl hfit hmt, referenceVested,
        if_neg (Nat.not_lt.mpr hgt.le), if_neg hend, Nat.add_comm]

/-- A validated reward of 100 with no cliff amount, vesting over
`[0, 10]` with the cliff at the end. -/
def cliffAtEndAccount : VestingAccount :=
  ⟨"user", 100, 0, .linearVestingWithCliff 0 10 10, 0⟩

/-- At `t = 10`, the cliff and the end, the reference schedule has
everything vested, but `vestedAmount` returns the cliff amount, 0. -/
theorem cliffAtEnd_vestedAmount :
    cliffAtEndAccount.vestingSchedule.validate = .ok ()
      ∧ RewardUserRequest.validate ⟨"user", 100, 0⟩ = .ok ()
      ∧ (100 - 0) * (10 - 10) ≤ Uint128.MAX
      ∧ cliffAtEndAccount.vestedAmount 10 = .ok 0
      ∧ referenceVested 100 0 10 10 10 = 100 := by
  decide

/-- On a validated account, `vestedAmount` is the reference schedule at
every block time but the cliff when the cliff is the end, once the
largest product fits; inside the period a product past `Uint128::MAX`
fails with the multiplication's overflow. -/
theorem vestedAmount_reference_or_overflow
    (hs : a.vestingSchedule = .linearVestingWithCliff s e c) (hce : c ≤ e)
    (hcl : a.cliffAmount ≤ a.vestingAmount) (hfit : a.vestingAmount ≤ Uint128.MAX) :
    ((a.vestingAmount - a.cliffAmount) * (e - c) ≤ Uint128.MAX →
        ∀ t, ¬(t = c ∧ c = e) →
          a.vestedAmount t = .ok (referenceVested a.vestingAmount a.cliffAmount e c t))
      ∧ ∀ t, c < t → t < e → Uint128.MAX < (a.vestingAmount - a.cliffAmount) * (t - c) →
          a.vestedAmount t = .error (.overflow ⟨.mul, a.vestingAmount - a.cliffAmount, t - c⟩) :=
  ⟨fun hm _ hne => vestedAmount_eq_referenceVested hs hce hcl hfit hm hne,
    fun _ hc he hm => vestedAmount_between_overflow hs hc he hcl hm⟩

/-- A reward of 100 with a cliff amount of 10, vesting over `[0, 10]`
with the cliff at 5. -/
def midCliffAccount : VestingAccount :=
  ⟨"user", 100, 10, .linearVestingWithCliff 0 10 5, 0⟩

/-- At `midCliffAccount` the reference holds at every time, and at 7 it
is `10 + 90 * 2 / 5 = 46`. -/
theorem vestedAmount_reference_or_overflow_midCliff :
    (∀ t, midCliffAccount.vestedAmount t
        = .ok (referenceVested midCliffAccount.vestingAmount midCliffAccount.cliffAmount 10 5 t))
      ∧ referenceVested 100 10 10 5 7 = 46 := by
  obtain ⟨href, -⟩ := vestedAmount_reference_or_overflow (a := midCliffAccount) rfl (by decide)
    (by decide) (by decide)
  exact ⟨fun t => href (by decide) t (by omega), by decide⟩

end NibiruWasm.VestingV2
