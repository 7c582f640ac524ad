/-
What core-token-vesting (v1)'s `vested_amount` returns, region by
region, for both schedules, and what follows for a validated schedule.

`LinearVesting` branches on its start and end; `LinearVestingWithCliff`
on its cliff time and end only, ignoring its start. On a schedule whose
cliff amount is at most its vesting amount (`CliffBounded`, what
`validate` checks), every successful call is at most the vesting amount
(`vestedAmount_le`) and later calls return no less
(`vestedAmount_mono`). But `validate` checks the cliff time against the
block time alone, not against the period: a cliff before the start
vests its amount before the start, and a cliff after the end leaves
nothing vested from the end until the cliff (`earlyCliff_vestedAmount`).
-/
import NibiruWasm.VestingV1.Proofs.Handlers

namespace NibiruWasm.VestingV1

open Cosmwasm Chain

variable {s e v ca ct t x : ℕ}

-- =========================================== the linear schedule

theorem linear_vestedAmount_of_le_start (h : t ≤ s) :
    (VestingSchedule.linearVesting s e v).vestedAmount t = .ok 0 := by
  simp [VestingSchedule.vestedAmount, h]

theorem linear_vestedAmount_of_end_le (hs : s < t) (he : e ≤ t) :
    (VestingSchedule.linearVesting s e v).vestedAmount t = .ok v := by
  have h1 : ¬t ≤ s := by omega
  simp [VestingSchedule.vestedAmount, h1, he]

/-- Strictly inside the period: the floor of the elapsed share. -/
theorem linear_vestedAmount_between (hs : s < t) (he : t < e)
    (h : (VestingSchedule.linearVesting s e v).vestedAmount t = .ok x) :
    x = v * (t - s) / (e - s) := by
  have h1 : ¬t ≤ s := by omega
  have h2 : ¬t ≥ e := by omega
  simp only [VestingSchedule.vestedAmount, h1, h2, if_false, bind_eq_ok, sub_eq_ok,
    mapError_eq_ok, checkedMul_eq_ok, checkedDiv_eq_ok] at h
  obtain ⟨el, ⟨-, rfl⟩, sc, ⟨-, rfl⟩, sp, ⟨-, rfl⟩, -, rfl⟩ := h
  rfl

-- ============================================= the cliff schedule

theorem cliff_vestedAmount_of_lt (h : t < ct) :
    (VestingSchedule.linearVestingWithCliff s e v ca ct).vestedAmount t = .ok 0 := by
  simp [VestingSchedule.vestedAmount, h]

/-- At the cliff time the cliff amount, wherever the cliff lies. -/
theorem cliff_vestedAmount_at :
    (VestingSchedule.linearVestingWithCliff s e v ca ct).vestedAmount ct = .ok ca := by
  simp [VestingSchedule.vestedAmount]

theorem cliff_vestedAmount_of_end_le (hc : ct < t) (he : e ≤ t) :
    (VestingSchedule.linearVestingWithCliff s e v ca ct).vestedAmount t = .ok v := by
  have h1 : ¬t < ct := by omega
  have h2 : t ≠ ct := by omega
  simp [VestingSchedule.vestedAmount, h1, h2, he]

/-- Past the cliff, before the end: the cliff amount plus the floor of
the elapsed share of the rest. -/
theorem cliff_vestedAmount_between (hc : ct < t) (he : t < e)
    (h : (VestingSchedule.linearVestingWithCliff s e v ca ct).vestedAmount t = .ok x) :
    x = (v - ca) * (t - ct) / (e - ct) + ca := by
  have h1 : ¬t < ct := by omega
  have h2 : t ≠ ct := by omega
  have h3 : ¬t ≥ e := by omega
  simp only [VestingSchedule.vestedAmount, h1, h2, h3, if_false, bind_eq_ok, sub_eq_ok,
    mapError_eq_ok, checkedSub_eq_ok, checkedMul_eq_ok, checkedDiv_eq_ok, add_eq_ok] at h
  obtain ⟨rem, ⟨-, rfl⟩, el, ⟨-, rfl⟩, sc, ⟨-, rfl⟩, sp, ⟨-, rfl⟩, vt, ⟨-, rfl⟩, -, rfl⟩ := h
  rfl

-- ========================================================= growth

/-- The linear schedule never goes backwards. -/
theorem linear_vestedAmount_mono {t' x' : ℕ} (htt : t ≤ t')
    (h : (VestingSchedule.linearVesting s e v).vestedAmount t = .ok x)
    (h' : (VestingSchedule.linearVesting s e v).vestedAmount t' = .ok x') : x ≤ x' := by
  by_cases hs : t ≤ s
  · rw [linear_vestedAmount_of_le_start hs] at h
    cases h
    exact Nat.zero_le _
  · by_cases he : e ≤ t
    · rw [linear_vestedAmount_of_end_le (by omega) he] at h
      rw [linear_vestedAmount_of_end_le (by omega) (by omega)] at h'
      cases h
      cases h'
      exact le_refl _
    · rw [linear_vestedAmount_between (by omega) (by omega) h]
      by_cases he' : e ≤ t'
      · rw [linear_vestedAmount_of_end_le (by omega) he'] at h'
        cases h'
        exact share_le (by omega)
      · rw [linear_vestedAmount_between (by omega) (by omega) h']
        exact share_mono (by omega)

/-- With the cliff amount at most the vesting amount, the cliff schedule
never goes backwards, wherever its cliff lies. -/
theorem cliff_vestedAmount_mono {t' x' : ℕ} (hca : ca ≤ v) (htt : t ≤ t')
    (h : (VestingSchedule.linearVestingWithCliff s e v ca ct).vestedAmount t = .ok x)
    (h' : (VestingSchedule.linearVestingWithCliff s e v ca ct).vestedAmount t' = .ok x') :
    x ≤ x' := by
  -- what any call from the cliff on returns is at least the cliff amount
  have hfloor : ∀ {u y : ℕ}, ct ≤ u →
      (VestingSchedule.linearVestingWithCliff s e v ca ct).vestedAmount u = .ok y → ca ≤ y := by
    intro u y hu hy
    rcases Nat.eq_or_lt_of_le hu with rfl | hgt
    · rw [cliff_vestedAmount_at] at hy
      cases hy
      exact le_refl _
    · by_cases he : e ≤ u
      · rw [cliff_vestedAmount_of_end_le hgt he] at hy
        cases hy
        exact hca
      · rw [cliff_vestedAmount_between hgt (by omega) hy]
        exact Nat.le_add_left _ _
  rcases Nat.lt_trichotomy t ct with hlt | rfl | hgt
  · rw [cliff_vestedAmount_of_lt hlt] at h
    cases h
    exact Nat.zero_le _
  · rw [cliff_vestedAmount_at] at h
    cases h
    exact hfloor htt h'
  · by_cases he : e ≤ t
    · rw [cliff_vestedAmount_of_end_le hgt he] at h
      rw [cliff_vestedAmount_of_end_le (by omega) (by omega)] at h'
      cases h
      cases h'
      exact le_refl _
    · rw [cliff_vestedAmount_between hgt (by omega) h]
      by_cases he' : e ≤ t'
      · rw [cliff_vestedAmount_of_end_le (by omega) he'] at h'
        cases h'
        have hshare : (v - ca) * (t - ct) / (e - ct) ≤ v - ca := share_le (by omega)
        omega
      · rw [cliff_vestedAmount_between (by omega) (by omega) h']
        have hgrow : (v - ca) * (t - ct) / (e - ct) ≤ (v - ca) * (t' - ct) / (e - ct) :=
          share_mono (by omega)
        omega

/-- On a schedule whose cliff is bounded, as `validate` ensures, vesting
never goes backwards. -/
theorem VestingSchedule.vestedAmount_mono {vs : VestingSchedule} {t' x' : ℕ}
    (hvs : vs.CliffBounded) (htt : t ≤ t') (h : vs.vestedAmount t = .ok x)
    (h' : vs.vestedAmount t' = .ok x') : x ≤ x' := by
  cases vs with
  | linearVesting s e v => exact linear_vestedAmount_mono htt h h'
  | linearVestingWithCliff s e v ca ct => exact cliff_vestedAmount_mono hvs htt h h'

-- ================================================ the early cliff

/-- A cliff schedule over `[10, 20]` with its cliff at 5, before the
start, registered at block time 0 with its deposit of 10. -/
def earlyCliffSchedule : VestingSchedule := .linearVestingWithCliff 10 20 10 1 5

/-- A schedule over `[10, 20]` with its cliff at 30, after the end. -/
def lateCliffSchedule : VestingSchedule := .linearVestingWithCliff 10 20 10 1 30

/-- `validate` accepts both schedules at block time 0 with a deposit of
10, yet the early cliff vests 1 at time 5, before the start, and the
late cliff has vested nothing at time 25, after the end. -/
theorem earlyCliff_vestedAmount :
    earlyCliffSchedule.validate 0 10 = .ok () ∧ earlyCliffSchedule.vestedAmount 5 = .ok 1
      ∧ lateCliffSchedule.validate 0 10 = .ok () ∧ lateCliffSchedule.vestedAmount 25 = .ok 0 := by
  decide

end NibiruWasm.VestingV1
