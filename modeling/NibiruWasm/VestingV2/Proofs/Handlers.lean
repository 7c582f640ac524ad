/-
What each committed vesting-v2 handler did.

One inversion lemma per handler: from `handler … = .ok (s', r)` it
names every check that passed and the exact new state and response, so
the invariant proofs never unfold a handler. The batch loops get a
lemma per list constructor and a run lemma over the whole list:

- `rewardUsersLoop_cons_eq_ok`: the request passed validation, and the
  entry either registered (and the loop went on from the new storage) or
  failed (and the loop went on from the old one);
- `rewardUsersLoop_lookup`: every account the loop leaves was there
  before or is a fresh account of a valid request;
- `deregisterVestingAccount_storage`: whatever the entry's result, its
  storage effect is the removal of the address;
- `deregisterVestingAccountsLoop_storage`: the loop's storage effect is
  the removal of every listed address, in order.
-/
import NibiruWasm.VestingV2.Contract
import NibiruWasm.Chain.Except

namespace NibiruWasm.VestingV2

open Cosmwasm Chain

variable {s s' : State} {r : Response} {env : Env} {info : MessageInfo}

-- ===================================================== instantiate

/-- A successful `instantiate` stores no account and puts the one
deposit in the unallocated pool. -/
theorem instantiate_eq_ok {addrValidate : String → Except StdError Unit}
    {msg : InstantiateMsg} {s0 : State} (h : instantiate addrValidate info msg = .ok s0) :
    ∃ coin, info.funds = [coin] ∧ coin.amount ≠ 0
      ∧ s0 = { vestingAccounts := ∅, unallocatedAmount := coin.amount,
               denom := coin.denom, whitelist := ⟨msg.managers.toFinset, msg.admin⟩ } := by
  unfold instantiate at h
  split at h
  · next coin hfunds =>
      by_cases hz : coin.amount = 0
      · simp [hz] at h
      · by_cases hm : msg.managers.isEmpty = true
        · simp [hz, hm] at h
        · -- the two address checks passed
          cases hadm : addrValidate msg.admin with
          | error e => simp [hz, hm, hadm] at h
          | ok u =>
              cases hman : msg.managers.forM addrValidate with
              | error e => simp [hz, hm, hadm, hman] at h
              | ok u' =>
                  simp [hz, hm, hadm, hman] at h
                  exact ⟨coin, hfunds, hz, h.symm⟩
  · cases h

-- ===================================================== registration

/-- The account `register_vesting_account` saves for a request. -/
def freshAccount (req : RewardUserRequest) (vs : VestingSchedule) :
    VestingAccount :=
  ⟨req.userAddress, req.vestingAmount, req.cliffAmount, vs, 0⟩

theorem registerVestingAccount_eq_ok {storage storage' : Store String VestingAccount}
    {address : String} {va ca : ℕ} {vs : VestingSchedule} :
    registerVestingAccount storage address va ca vs = .ok storage'
      ↔ storage.lookup address = none ∧ vs.validate = .ok ()
        ∧ storage' = storage.insert address ⟨address, va, ca, vs, 0⟩ := by
  unfold registerVestingAccount
  cases h : storage.lookup address with
  | some acct => simp
  | none =>
      cases hv : vs.validate with
      | error e => simp
      | ok u =>
          simp only [Option.isSome_none, Bool.false_eq_true, if_false,
            mapError_ok, ok_bind, pure_eq_ok, true_and]
          exact eq_comm

-- ================================================ the reward loop

theorem rewardUsersLoop_cons_eq_ok {vs : VestingSchedule}
    {storage storage'' : Store String VestingAccount} {req : RewardUserRequest}
    {rest : List RewardUserRequest} {res : List RewardUserResponse} :
    rewardUsersLoop vs storage (req :: rest) = .ok (storage'', res) →
      req.validate = .ok ()
        ∧ ((∃ storage' res', registerVestingAccount storage req.userAddress
              req.vestingAmount req.cliffAmount vs = .ok storage'
            ∧ rewardUsersLoop vs storage' rest = .ok (storage'', res'))
          ∨ (∃ e res', registerVestingAccount storage req.userAddress
              req.vestingAmount req.cliffAmount vs = .error e
            ∧ rewardUsersLoop vs storage rest = .ok (storage'', res'))) := by
  intro h
  simp only [rewardUsersLoop, bind_eq_ok] at h
  obtain ⟨u, hval, hrest⟩ := h
  refine ⟨hval, ?_⟩
  cases hreg : registerVestingAccount storage req.userAddress req.vestingAmount
      req.cliffAmount vs with
  | ok storage' =>
      rw [hreg] at hrest
      simp only [bind_eq_ok, pure_eq_ok] at hrest
      obtain ⟨⟨st, res'⟩, hloop, heq⟩ := hrest
      cases heq
      exact .inl ⟨storage', res', rfl, hloop⟩
  | error e =>
      rw [hreg] at hrest
      simp only [bind_eq_ok, pure_eq_ok] at hrest
      obtain ⟨⟨st, res'⟩, hloop, heq⟩ := hrest
      cases heq
      exact .inr ⟨e, res', rfl, hloop⟩

/-- Every account the reward loop leaves was stored before or is the
fresh account of a request that passed validation. -/
theorem rewardUsersLoop_lookup {vs : VestingSchedule} :
    ∀ {rewards : List RewardUserRequest} {storage storage' : Store String VestingAccount}
      {res : List RewardUserResponse},
      rewardUsersLoop vs storage rewards = .ok (storage', res) →
      ∀ {k : String} {a : VestingAccount}, storage'.lookup k = some a →
        storage.lookup k = some a
          ∨ ∃ req ∈ rewards, req.validate = .ok () ∧ a = freshAccount req vs := by
  intro rewards
  induction rewards with
  | nil =>
      intro storage storage' res h k a hk
      simp only [rewardUsersLoop, Except.ok.injEq, Prod.mk.injEq] at h
      obtain ⟨rfl, -⟩ := h
      exact .inl hk
  | cons req rest ih =>
      intro storage storage' res h k a hk
      obtain ⟨hval, ⟨st, res', hreg, hloop⟩ | ⟨e, res', -, hloop⟩⟩ :=
        rewardUsersLoop_cons_eq_ok h
      · -- the entry registered: its account is the fresh one
        obtain ⟨-, -, rfl⟩ := registerVestingAccount_eq_ok.mp hreg
        rcases ih hloop hk with hold | ⟨q, hq, hqv, rfl⟩
        · rcases Store.lookup_insert_cases hold with ⟨-, rfl⟩ | ⟨-, hprev⟩
          · exact .inr ⟨req, List.mem_cons_self .., hval, rfl⟩
          · exact .inl hprev
        · exact .inr ⟨q, List.mem_cons_of_mem _ hq, hqv, rfl⟩
      · rcases ih hloop hk with hold | ⟨q, hq, hqv, rfl⟩
        · exact .inl hold
        · exact .inr ⟨q, List.mem_cons_of_mem _ hq, hqv, rfl⟩

-- ============================================ the deregister loop

/-- Whatever an entry's result, its storage effect is the removal of its
address: the removal comes first, and an absent address removes
nothing. -/
theorem deregisterVestingAccount_storage (storage : Store String VestingAccount)
    (timestamp : ℕ) (address adminAddress denom : String)
    (messages : List CosmosMsg) :
    (deregisterVestingAccount storage timestamp address adminAddress denom
      messages).1 = storage.erase address := by
  unfold deregisterVestingAccount
  cases hl : storage.lookup address with
  | none =>
      exact (Store.erase_of_lookup_none hl).symm
  | some account =>
      simp only
      split <;> (try split) <;> (try split) <;> rfl

/-- The deregister loop removes every listed address, in order. -/
theorem deregisterVestingAccountsLoop_storage {timestamp : ℕ}
    {adminAddress denom : String} :
    ∀ {addresses : List String} {storage storage' : Store String VestingAccount}
      {messages messages' : List CosmosMsg} {res : List DeregisterUserResponse},
      deregisterVestingAccountsLoop timestamp adminAddress denom storage messages
        addresses = .ok (storage', messages', res) →
      storage' = addresses.foldl (fun m k => m.erase k) storage := by
  intro addresses
  induction addresses with
  | nil =>
      intro storage storage' messages messages' res h
      simp only [deregisterVestingAccountsLoop, Except.ok.injEq,
        Prod.mk.injEq] at h
      exact h.1.symm
  | cons address rest ih =>
      intro storage storage' messages messages' res h
      simp only [deregisterVestingAccountsLoop] at h
      rw [List.foldl_cons, ← deregisterVestingAccount_storage storage timestamp
        address adminAddress denom messages]
      split at h
      · simp only [bind_eq_ok, pure_eq_ok] at h
        obtain ⟨⟨st, ms, res'⟩, hloop, heq⟩ := h
        cases heq
        exact ih hloop
      · split at h
        · cases h
        · simp only [bind_eq_ok, pure_eq_ok] at h
          obtain ⟨⟨st, ms, res'⟩, hloop, heq⟩ := h
          cases heq
          exact ih hloop

/-- Removals create no account. -/
theorem lookup_of_lookup_foldl_erase {k : String} {a : VestingAccount} :
    ∀ {addresses : List String} {storage : Store String VestingAccount},
      (addresses.foldl (fun m k => m.erase k) storage).lookup k = some a →
      storage.lookup k = some a := by
  intro addresses
  induction addresses with
  | nil => exact fun h => h
  | cons address rest ih =>
      intro storage h
      exact Store.lookup_of_lookup_erase (ih h)

-- ====================================================== handlers

theorem withdraw_eq_ok {amount : ℕ} (h : withdraw s info amount = .ok (s', r)) :
    s.whitelist.isAdmin info.sender = true
      ∧ min amount s.unallocatedAmount ≠ 0
      ∧ s' = { s with unallocatedAmount :=
          s.unallocatedAmount - min amount s.unallocatedAmount }
      ∧ r = ⟨[buildSendMsg s.denom (min amount s.unallocatedAmount) info.sender],
          none⟩ := by
  unfold withdraw at h
  by_cases hadm : s.whitelist.isAdmin info.sender = true
  · by_cases hz : min amount s.unallocatedAmount = 0
    · simp [hadm, hz] at h
    · simp only [hadm, hz, Bool.not_true, Bool.false_eq_true, if_false,
        bind_eq_ok, mapError_eq_ok, sub_eq_ok, pure_eq_ok] at h
      obtain ⟨u, ⟨-, rfl⟩, heq⟩ := h
      obtain ⟨rfl, rfl⟩ := Prod.mk.inj heq
      exact ⟨hadm, hz, rfl, rfl⟩
  · simp [hadm] at h

/-- A committed claim paid the sender what vested beyond what it had
claimed, and stored the new claimed amount or removed the account. -/
theorem claim_eq_ok (h : claim s env info = .ok (s', r)) :
    ∃ a v, s.vestingAccounts.lookup info.sender = some a
      ∧ a.vestedAmount env.block.time = .ok v
      ∧ a.claimedAmount < v
      ∧ s' = { s with vestingAccounts :=
          if v = a.vestingAmount then s.vestingAccounts.erase info.sender
          else s.vestingAccounts.insert info.sender { a with claimedAmount := v } }
      ∧ r = ⟨[buildSendMsg s.denom (v - a.claimedAmount) info.sender], none⟩ := by
  unfold claim at h
  cases hl : s.vestingAccounts.lookup info.sender with
  | none => simp [hl] at h
  | some a =>
      simp only [hl, bind_eq_ok, mapError_eq_ok, checkedSub_eq_ok] at h
      obtain ⟨v, hv, c, ⟨hle, rfl⟩, hrest⟩ := h
      by_cases hz : v - a.claimedAmount = 0
      · simp [hz] at hrest
      · simp only [hz, if_false, pure_eq_ok] at hrest
        obtain ⟨rfl, rfl⟩ := Prod.mk.inj hrest.symm
        exact ⟨a, v, rfl, hv, by omega, rfl, rfl⟩

/-- A committed `RewardUsers` passed its three checks, ran the loop, and
took the whole requested total out of the unallocated pool. -/
theorem rewardUsers_eq_ok {rewards : List RewardUserRequest} {vs : VestingSchedule}
    (h : rewardUsers s info rewards vs = .ok (s', r)) :
    (s.whitelist.isMember info.sender || s.whitelist.isAdmin info.sender) = true
      ∧ (rewards.map fun req => req.vestingAmount).sum ≤ s.unallocatedAmount
      ∧ vs.validate = .ok ()
      ∧ ∃ storage res, rewardUsersLoop vs s.vestingAccounts rewards = .ok (storage, res)
        ∧ s' = { s with
            vestingAccounts := storage
            unallocatedAmount :=
              s.unallocatedAmount - (rewards.map fun req => req.vestingAmount).sum }
        ∧ r = ⟨[], some (.rewardUsers res)⟩ := by
  unfold rewardUsers at h
  by_cases hauth : (s.whitelist.isMember info.sender || s.whitelist.isAdmin info.sender) = true
  · simp only [hauth, Bool.not_true, Bool.false_eq_true, if_false, bind_eq_ok,
      mapError_eq_ok, sum_eq_ok] at h
    obtain ⟨total, ⟨-, rfl⟩, hrest⟩ := h
    by_cases hover : (rewards.map fun req => req.vestingAmount).sum > s.unallocatedAmount
    · simp [hover] at hrest
    · simp only [hover, if_false, bind_eq_ok, mapError_eq_ok, sub_eq_ok,
        pure_eq_ok] at hrest
      obtain ⟨u, hvs, ⟨storage, res⟩, hloop, rest, ⟨-, rfl⟩, heq⟩ := hrest
      obtain ⟨rfl, rfl⟩ := Prod.mk.inj heq.symm
      exact ⟨hauth, by omega, hvs, storage, res, hloop, rfl, rfl⟩
  · simp [hauth] at h

theorem deregisterVestingAccounts_eq_ok {addresses : List String}
    (h : deregisterVestingAccounts s env info addresses = .ok (s', r)) :
    (s.whitelist.isMember info.sender || s.whitelist.isAdmin info.sender) = true
      ∧ ∃ storage messages res,
        deregisterVestingAccountsLoop env.block.time s.whitelist.admin s.denom
          s.vestingAccounts [] addresses = .ok (storage, messages, res)
        ∧ s' = { s with vestingAccounts := storage }
        ∧ r = ⟨messages, some (.deregisterVestingAccounts res)⟩ := by
  unfold deregisterVestingAccounts at h
  by_cases hauth : (s.whitelist.isMember info.sender || s.whitelist.isAdmin info.sender) = true
  · simp only [hauth, Bool.not_true, Bool.false_eq_true, if_false, bind_eq_ok,
      pure_eq_ok] at h
    obtain ⟨⟨storage, messages, res⟩, hloop, heq⟩ := h
    obtain ⟨rfl, rfl⟩ := Prod.mk.inj heq.symm
    exact ⟨hauth, storage, messages, res, hloop, rfl, rfl⟩
  · simp [hauth] at h

theorem step_eq_ok {tx : Tx} {ms : List CosmosMsg} :
    step s tx = .ok (s', ms)
      ↔ ∃ r, execute s tx.env tx.info tx.msg = .ok (s', r) ∧ r.messages = ms := by
  unfold step
  simp only [map_eq_ok]
  constructor
  · rintro ⟨⟨s'', r⟩, h, heq⟩
    obtain ⟨rfl, rfl⟩ := Prod.mk.inj heq
    exact ⟨r, h, rfl⟩
  · rintro ⟨r, h, rfl⟩
    exact ⟨(s', r), h, rfl⟩

end NibiruWasm.VestingV2
