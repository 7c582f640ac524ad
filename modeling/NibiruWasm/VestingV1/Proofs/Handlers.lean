/-
What each committed core-token-vesting (v1) handler did.

- `validate` accepts a schedule whose own vesting amount is the deposit
  and, with a cliff, whose cliff amount is at most it (`CliffBounded`);
- on such a schedule `vested_amount` never exceeds the vesting amount
  (`vestedAmount_le`);
- one inversion lemma per handler, and one per list constructor for the
  claim loop, so the conservation proofs never unfold a handler.
-/
import NibiruWasm.VestingV1.Contract
import NibiruWasm.Chain.Except

namespace NibiruWasm.VestingV1

open Cosmwasm Chain

-- ====================================================== schedules

/-- A cliff schedule's cliff amount is at most its vesting amount. -/
def VestingSchedule.CliffBounded : VestingSchedule → Prop
  | .linearVesting _ _ _ => True
  | .linearVestingWithCliff _ _ vestingAmount cliffAmount _ => cliffAmount ≤ vestingAmount

theorem Cliff.ok_eq_ok {c : Cliff} {blockTime vestingAmount : ℕ} :
    c.ok blockTime vestingAmount = .ok ()
      ↔ 0 < c.amount ∧ blockTime ≤ c.time ∧ c.amount ≤ vestingAmount := by
  unfold Cliff.ok
  split_ifs <;> simp <;> omega

theorem VestingSchedule.validate_linearVesting_eq_ok {s e v blockTime d : ℕ} :
    (VestingSchedule.linearVesting s e v).validate blockTime d = .ok ()
      ↔ 0 < v ∧ s < e ∧ v = d := by
  simp only [VestingSchedule.validate]
  split_ifs <;> simp <;> omega

theorem VestingSchedule.validate_linearVestingWithCliff_eq_ok {s e v ca ct blockTime d : ℕ} :
    (VestingSchedule.linearVestingWithCliff s e v ca ct).validate blockTime d = .ok ()
      ↔ 0 < v ∧ s < e ∧ v = d ∧ 0 < ca ∧ blockTime ≤ ct ∧ ca ≤ v := by
  simp only [VestingSchedule.validate]
  split_ifs with h0 hse hvd
  · simp; omega
  · simp; omega
  · simp; omega
  · rw [mapError_eq_ok, Cliff.ok_eq_ok]
    constructor
    · rintro ⟨hca, hct, hle⟩
      exact ⟨by omega, by omega, by omega, hca, hct, hle⟩
    · rintro ⟨-, -, -, hca, hct, hle⟩
      exact ⟨hca, hct, hle⟩

/-- What registration needs of a schedule: it vests the deposit, and its
cliff is within it. -/
theorem VestingSchedule.validate_eq_ok {vs : VestingSchedule} {blockTime d : ℕ}
    (h : vs.validate blockTime d = .ok ()) : vs.vestingAmount = d ∧ vs.CliffBounded := by
  cases vs with
  | linearVesting s e v =>
      obtain ⟨-, -, rfl⟩ := validate_linearVesting_eq_ok.mp h
      exact ⟨rfl, trivial⟩
  | linearVestingWithCliff s e v ca ct =>
      obtain ⟨-, -, rfl, -, -, hle⟩ := validate_linearVestingWithCliff_eq_ok.mp h
      exact ⟨rfl, hle⟩

/-- A schedule never vests more than its vesting amount. -/
theorem VestingSchedule.vestedAmount_le {vs : VestingSchedule} {t x : ℕ}
    (hvs : vs.CliffBounded) (h : vs.vestedAmount t = .ok x) : x ≤ vs.vestingAmount := by
  cases vs with
  | linearVesting s e v =>
      simp only [VestingSchedule.vestedAmount] at h
      split_ifs at h with hs he
      · cases h
        exact Nat.zero_le _
      · cases h
        exact le_rfl
      · -- strictly inside the period: the elapsed share of `v`
        simp only [bind_eq_ok, sub_eq_ok, mapError_eq_ok, checkedMul_eq_ok,
          checkedDiv_eq_ok] at h
        obtain ⟨el, ⟨-, rfl⟩, sc, ⟨-, rfl⟩, sp, ⟨-, rfl⟩, -, rfl⟩ := h
        exact share_le (by omega)
  | linearVestingWithCliff s e v ca ct =>
      have hca : ca ≤ v := hvs
      simp only [VestingSchedule.vestedAmount] at h
      split_ifs at h with hlt heq he
      · cases h
        exact Nat.zero_le _
      · cases h
        exact hca
      · cases h
        exact le_rfl
      · -- past the cliff: the cliff amount plus the elapsed share of the rest
        simp only [bind_eq_ok, sub_eq_ok, mapError_eq_ok, checkedSub_eq_ok,
          checkedMul_eq_ok, checkedDiv_eq_ok, add_eq_ok] at h
        obtain ⟨rem, ⟨-, rfl⟩, el, ⟨-, rfl⟩, sc, ⟨-, rfl⟩, sp, ⟨-, rfl⟩, vt,
          ⟨-, rfl⟩, -, rfl⟩ := h
        have hshare : (v - ca) * (t - ct) / (e - ct) ≤ v - ca := share_le (by omega)
        show _ ≤ v
        omega

-- ======================================================= handlers

variable {storage storage' : Accounts} {ms : List CosmosMsg} {env : Env}
  {info : MessageInfo}

theorem registerVestingAccount_eq_ok {blockTime depositAmount : ℕ}
    {masterAddress : Option String} {address : String} {depositDenom : Denom}
    {vs : VestingSchedule} :
    registerVestingAccount storage blockTime masterAddress address depositDenom
        depositAmount vs = .ok (storage', ms)
      ↔ storage.lookup (address, denomToKey depositDenom) = none
        ∧ vs.validate blockTime depositAmount = .ok ()
        ∧ storage' = storage.insert (address, denomToKey depositDenom)
            ⟨masterAddress, address, depositDenom, depositAmount, vs, 0⟩
        ∧ ms = [] := by
  simp only [registerVestingAccount]
  cases hl : storage.lookup (address, denomToKey depositDenom) with
  | some a => simp
  | none =>
      cases hv : vs.validate blockTime depositAmount with
      | error e => simp
      | ok u =>
          simp only [Option.isSome_none, Bool.false_eq_true, if_false, mapError_ok,
            ok_bind, pure_eq_ok, Prod.mk.injEq, true_and]
          constructor
          · rintro ⟨rfl, rfl⟩
            exact ⟨rfl, rfl⟩
          · rintro ⟨rfl, rfl⟩
            exact ⟨rfl, rfl⟩

/-- A committed deregistration was asked by the master address; it
removed the account and paid out its whole remainder, the vested part
and the unvested part to their two recipients. -/
theorem deregisterVestingAccount_eq_ok {address : String} {denom : Denom}
    {vestedTokenRecipient leftVestingTokenRecipient : Option String}
    (h : deregisterVestingAccount storage env info address denom vestedTokenRecipient
      leftVestingTokenRecipient = .ok (storage', ms)) :
    ∃ a v, storage.lookup (address, denomToKey denom) = some a
      ∧ a.masterAddress = some info.sender
      ∧ a.vestingSchedule.vestedAmount env.block.time = .ok v
      ∧ a.claimedAmount ≤ v ∧ v ≤ a.vestingAmount
      ∧ storage' = storage.erase (address, denomToKey denom)
      ∧ ms = (if v - a.claimedAmount ≠ 0 then
                [buildSendMsg a.vestingDenom (v - a.claimedAmount)
                  (vestedTokenRecipient.getD address)]
              else [])
            ++ (if a.vestingAmount - v ≠ 0 then
                [buildSendMsg a.vestingDenom (a.vestingAmount - v)
                  (leftVestingTokenRecipient.getD info.sender)]
              else []) := by
  unfold deregisterVestingAccount at h
  cases hl : storage.lookup (address, denomToKey denom) with
  | none => simp [hl] at h
  | some a =>
      by_cases hm : a.masterAddress = some info.sender
      · simp only [hl, hm, ne_eq, not_true_eq_false, if_false, bind_eq_ok,
          mapError_eq_ok, checkedSub_eq_ok, pure_eq_ok, Prod.mk.injEq] at h
        obtain ⟨v, hv, c, ⟨hcv, rfl⟩, l, ⟨hlv, rfl⟩, rfl, rfl⟩ := h
        refine ⟨a, v, rfl, hm, hv, hcv, hlv, rfl, ?_⟩
        -- the two sends, each only when non-zero
        by_cases hc : v - a.claimedAmount = 0
        · by_cases hl' : a.vestingAmount - v = 0 <;> simp [hc, hl']
        · by_cases hl' : a.vestingAmount - v = 0 <;> simp [hc, hl']
      · simp [hl, hm] at h

/-- One denom of a committed claim: the account was there and its
vested amount reached its claimed amount; with nothing new to pay the
loop went on unchanged, and otherwise it stored the new claimed amount
(removing the account once fully claimed) and queued the payment. -/
theorem claimLoop_cons_eq_ok {blockTime : ℕ} {sender recipient : String}
    {messages : List CosmosMsg} {denom : Denom} {rest : List Denom}
    {r : Accounts × List CosmosMsg}
    (h : claimLoop blockTime sender recipient storage messages (denom :: rest) = .ok r) :
    ∃ a v, storage.lookup (sender, denomToKey denom) = some a
      ∧ a.vestingSchedule.vestedAmount blockTime = .ok v
      ∧ a.claimedAmount ≤ v
      ∧ ((v = a.claimedAmount
            ∧ claimLoop blockTime sender recipient storage messages rest = .ok r)
        ∨ (a.claimedAmount < v
            ∧ claimLoop blockTime sender recipient
                (if v = a.vestingAmount then storage.erase (sender, denomToKey denom)
                  else storage.insert (sender, denomToKey denom)
                    { a with claimedAmount := v })
                (messages ++ [buildSendMsg a.vestingDenom (v - a.claimedAmount) recipient])
                rest = .ok r)) := by
  simp only [claimLoop] at h
  cases hl : storage.lookup (sender, denomToKey denom) with
  | none => simp [hl] at h
  | some a =>
      simp only [hl, bind_eq_ok, mapError_eq_ok, checkedSub_eq_ok] at h
      obtain ⟨v, hv, c, ⟨hcv, rfl⟩, hrest⟩ := h
      refine ⟨a, v, rfl, hv, hcv, ?_⟩
      by_cases hz : v - a.claimedAmount = 0
      · simp only [hz, if_true] at hrest
        exact .inl ⟨by omega, hrest⟩
      · simp only [hz, if_false] at hrest
        exact .inr ⟨by omega, hrest⟩

theorem claimLoop_nil_eq_ok {blockTime : ℕ} {sender recipient : String}
    {messages : List CosmosMsg} {r : Accounts × List CosmosMsg}
    (h : claimLoop blockTime sender recipient storage messages [] = .ok r) :
    r = (storage, messages) := by
  simp only [claimLoop, Except.ok.injEq] at h
  exact h.symm

end NibiruWasm.VestingV1
