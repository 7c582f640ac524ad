/-
Where the deposit of core-token-vesting-v2 goes.

# The books

`books s` is what the contract still owes: the unallocated pool plus,
over every stored account, the part of its vesting amount not yet
claimed. The deposit made at `instantiate` is the opening balance; every
`BankMsg::Send` the contract emits pays some of it out.

# What each handler does to them

- `Withdraw` and `Claim` move exactly what they send out of the books
  (`Claim` needs the cliff amount to be at most the vesting amount, which
  every stored account satisfies: `CliffOk`);
- `RewardUsers` takes the whole requested total out of the pool but puts
  back only the entries that registered;
- `DeregisterVestingAccounts` removes each listed account and sends its
  remainder only when the entry succeeds; a failing entry's account is
  gone all the same.

So the books plus what was sent never exceed the deposit
(`books_run_le`), but they can fall below it: the two batch handlers
drop what their failing entries held.
-/
import NibiruWasm.VestingV2.Proofs.Invariant

namespace NibiruWasm.VestingV2

open Cosmwasm Chain

/-- The tokens a message sends out of the contract. -/
def sentAmount : CosmosMsg → ℕ
  | .bank (.send _ amount) => (amount.map Coin.amount).sum
  | _ => 0

/-- The tokens a list of messages sends out of the contract. -/
def sentTotal (messages : List CosmosMsg) : ℕ :=
  (messages.map sentAmount).sum

/-- What an account has still to be paid. -/
def VestingAccount.unclaimed (a : VestingAccount) : ℕ :=
  a.vestingAmount - a.claimedAmount

/-- What the stored accounts have still to be paid. -/
def owed (storage : Store String VestingAccount) : ℕ :=
  Store.sumBy (fun _ a => a.unclaimed) storage

/-- Everything the contract still owes. -/
def books (s : State) : ℕ :=
  s.unallocatedAmount + owed s.vestingAccounts

@[simp] theorem sentTotal_nil : sentTotal [] = 0 := rfl

@[simp] theorem sentTotal_append (ms ms' : List CosmosMsg) :
    sentTotal (ms ++ ms') = sentTotal ms + sentTotal ms' := by
  simp [sentTotal]

@[simp] theorem sentTotal_buildSendMsg (denom : String) (amount : ℕ) (toAddress : String) :
    sentTotal [buildSendMsg denom amount toAddress] = amount := by
  simp [sentTotal, buildSendMsg, sentAmount]

theorem sentTotal_sendIfAmountIsNotZero (messages : List CosmosMsg) (amount : ℕ)
    (denom recipient : String) :
    sentTotal (sendIfAmountIsNotZero messages amount denom recipient)
      = sentTotal messages + amount := by
  unfold sendIfAmountIsNotZero
  by_cases h : amount = 0
  · simp [h]
  · simp [h]

/-- Every stored account's cliff amount is at most its vesting amount. -/
def CliffOk (s : State) : Prop :=
  ∀ k a, s.vestingAccounts.lookup k = some a → a.cliffAmount ≤ a.vestingAmount

variable {s s' : State} {r : Response} {env : Env} {info : MessageInfo}

-- ==================================================== one entry

/-- Everything one deregistration entry does: it removes the address;
it succeeds exactly when it sends the removed account's unclaimed
remainder to the admin, and otherwise it sends nothing. -/
theorem deregisterVestingAccount_cases {storage storage' : Store String VestingAccount}
    {timestamp : ℕ} {address adminAddress denom : String}
    {messages messages' : List CosmosMsg} {result : Except ContractError Unit}
    (h : deregisterVestingAccount storage timestamp address adminAddress denom messages
      = (storage', messages', result)) :
    storage' = storage.erase address
      ∧ ((result = .ok () ∧ ∃ a, storage.lookup address = some a
            ∧ a.claimedAmount ≤ a.vestingAmount
            ∧ messages' = sendIfAmountIsNotZero messages a.unclaimed denom adminAddress)
        ∨ (result ≠ .ok () ∧ messages' = messages)) := by
  have hst := deregisterVestingAccount_storage storage timestamp address adminAddress
    denom messages
  rw [h] at hst
  refine ⟨hst, ?_⟩
  unfold deregisterVestingAccount at h
  cases hl : storage.lookup address with
  | none =>
      simp only [hl, Prod.mk.injEq] at h
      exact .inr ⟨by rw [← h.2.2]; simp, h.2.1.symm⟩
  | some a =>
      simp only [hl] at h
      -- the three fallible steps after the removal, in order
      cases hv : a.vestedAmount timestamp with
      | error e =>
          simp only [hv, Prod.mk.injEq] at h
          exact .inr ⟨by rw [← h.2.2]; simp, h.2.1.symm⟩
      | ok v =>
          cases hc : checkedSub a.vestingAmount v with
          | error e =>
              simp only [hv, hc, Prod.mk.injEq] at h
              exact .inr ⟨by rw [← h.2.2]; simp, h.2.1.symm⟩
          | ok left =>
              cases hs : sub a.vestingAmount a.claimedAmount with
              | error e =>
                  simp only [hv, hc, hs, Prod.mk.injEq] at h
                  exact .inr ⟨by rw [← h.2.2]; simp, h.2.1.symm⟩
              | ok rec =>
                  simp only [hv, hc, hs, Prod.mk.injEq] at h
                  obtain ⟨hle, rfl⟩ := sub_eq_ok.mp hs
                  exact .inl ⟨h.2.2.symm, a, rfl, hle, h.2.1.symm⟩

/-- One deregistration entry takes out of the accounts at least what it
sends. -/
theorem deregisterVestingAccount_owed (storage : Store String VestingAccount)
    (timestamp : ℕ) (address adminAddress denom : String) (messages : List CosmosMsg) :
    owed (deregisterVestingAccount storage timestamp address adminAddress denom messages).1
      + sentTotal
          (deregisterVestingAccount storage timestamp address adminAddress denom messages).2.1
      ≤ owed storage + sentTotal messages := by
  generalize hcall : deregisterVestingAccount storage timestamp address adminAddress denom
    messages = call
  obtain ⟨storage', messages', result⟩ := call
  have herase := Store.sumBy_erase_add (fun _ a => a.unclaimed) storage address
  obtain ⟨rfl, ⟨-, a, hl, -, rfl⟩ | ⟨-, rfl⟩⟩ := deregisterVestingAccount_cases hcall
  all_goals dsimp only
  · -- the entry paid the removed account's remainder
    rw [Store.part_of_lookup_some _ hl] at herase
    rw [sentTotal_sendIfAmountIsNotZero]
    unfold owed
    omega
  · unfold owed
    omega

-- ================================================== the two loops

/-- The deregister loop takes out of the accounts at least what it
sends. -/
theorem deregisterVestingAccountsLoop_owed {timestamp : ℕ} {adminAddress denom : String} :
    ∀ {addresses : List String} {storage storage' : Store String VestingAccount}
      {messages messages' : List CosmosMsg} {res : List DeregisterUserResponse},
      deregisterVestingAccountsLoop timestamp adminAddress denom storage messages
        addresses = .ok (storage', messages', res) →
      owed storage' + sentTotal messages' ≤ owed storage + sentTotal messages := by
  intro addresses
  induction addresses with
  | nil =>
      intro storage storage' messages messages' res h
      simp only [deregisterVestingAccountsLoop, Except.ok.injEq, Prod.mk.injEq] at h
      obtain ⟨rfl, rfl, -⟩ := h
      exact le_rfl
  | cons address rest ih =>
      intro storage storage' messages messages' res h
      have hentry := deregisterVestingAccount_owed storage timestamp address adminAddress
        denom messages
      simp only [deregisterVestingAccountsLoop] at h
      -- success and a reported failure both go on from the entry's leftovers
      split at h
      · simp only [bind_eq_ok, pure_eq_ok] at h
        obtain ⟨⟨st, ms, res'⟩, hloop, heq⟩ := h
        cases heq
        exact le_trans (ih hloop) hentry
      · split at h
        · cases h
        · simp only [bind_eq_ok, pure_eq_ok] at h
          obtain ⟨⟨st, ms, res'⟩, hloop, heq⟩ := h
          cases heq
          exact le_trans (ih hloop) hentry

/-- The reward loop adds to the accounts at most the requested total. -/
theorem rewardUsersLoop_owed {vs : VestingSchedule} :
    ∀ {rewards : List RewardUserRequest} {storage storage' : Store String VestingAccount}
      {res : List RewardUserResponse},
      rewardUsersLoop vs storage rewards = .ok (storage', res) →
      owed storage' ≤ owed storage + (rewards.map fun req => req.vestingAmount).sum := by
  intro rewards
  induction rewards with
  | nil =>
      intro storage storage' res h
      simp only [rewardUsersLoop, Except.ok.injEq, Prod.mk.injEq] at h
      obtain ⟨rfl, -⟩ := h
      simp
  | cons req rest ih =>
      intro storage storage' res h
      obtain ⟨-, ⟨st, res', hreg, hloop⟩ | ⟨e, res', -, hloop⟩⟩ :=
        rewardUsersLoop_cons_eq_ok h
      · -- the entry registered a fresh account under a new address
        obtain ⟨hnone, -, rfl⟩ := registerVestingAccount_eq_ok.mp hreg
        have hins := Store.sumBy_insert_add (fun _ a => a.unclaimed) storage
          req.userAddress ⟨req.userAddress, req.vestingAmount, req.cliffAmount, vs, 0⟩
        rw [Store.part_of_lookup_none _ hnone] at hins
        have hrest := ih hloop
        simp only [owed, VestingAccount.unclaimed, Nat.sub_zero] at hins hrest ⊢
        simp only [List.map_cons, List.sum_cons]
        omega
      · have hrest := ih hloop
        simp only [List.map_cons, List.sum_cons]
        omega

-- ====================================================== handlers

theorem books_withdraw {amount : ℕ} (h : withdraw s info amount = .ok (s', r)) :
    books s' + sentTotal r.messages = books s := by
  obtain ⟨-, -, rfl, rfl⟩ := withdraw_eq_ok h
  have hmin : min amount s.unallocatedAmount ≤ s.unallocatedAmount := min_le_right _ _
  simp only [books, sentTotal_buildSendMsg]
  omega

/-- A claim pays out exactly what it takes off the account: what vested
since the last claim, never more than the account has left. -/
theorem books_claim (hs : CliffOk s) (h : claim s env info = .ok (s', r)) :
    books s' + sentTotal r.messages = books s := by
  obtain ⟨a, v, hl, hv, hlt, rfl, rfl⟩ := claim_eq_ok h
  have hvle : v ≤ a.vestingAmount := vestedAmount_le (hs _ _ hl) hv
  simp only [books, owed, sentTotal_buildSendMsg]
  by_cases hfull : v = a.vestingAmount
  · -- fully claimed: the account leaves with its last payment
    have herase := Store.sumBy_erase_add (fun _ a => a.unclaimed) s.vestingAccounts
      info.sender
    rw [Store.part_of_lookup_some _ hl] at herase
    simp only [hfull, if_true, VestingAccount.unclaimed] at herase ⊢
    omega
  · have hins := Store.sumBy_insert_add (fun _ a => a.unclaimed) s.vestingAccounts
      info.sender { a with claimedAmount := v }
    rw [Store.part_of_lookup_some _ hl] at hins
    simp only [hfull, if_false, VestingAccount.unclaimed] at hins ⊢
    omega

theorem books_rewardUsers {rewards : List RewardUserRequest} {vs : VestingSchedule}
    (h : rewardUsers s info rewards vs = .ok (s', r)) :
    books s' + sentTotal r.messages ≤ books s := by
  obtain ⟨-, htotal, -, storage, res, hloop, rfl, rfl⟩ := rewardUsers_eq_ok h
  have hloop := rewardUsersLoop_owed hloop
  simp only [books, sentTotal_nil]
  omega

theorem books_deregisterVestingAccounts {addresses : List String}
    (h : deregisterVestingAccounts s env info addresses = .ok (s', r)) :
    books s' + sentTotal r.messages ≤ books s := by
  obtain ⟨-, storage, messages, res, hloop, rfl, rfl⟩ := deregisterVestingAccounts_eq_ok h
  have hloop := deregisterVestingAccountsLoop_owed hloop
  simp only [books, sentTotal_nil] at hloop ⊢
  omega

-- ==================================================== over a run

theorem cliffOk_step {tx : Tx} {ms : List CosmosMsg} (hs : CliffOk s)
    (h : step s tx = .ok (s', ms)) : CliffOk s' := by
  obtain ⟨r, hexec, -⟩ := step_eq_ok.mp h
  intro k a ha
  cases hmsg : tx.msg with
  | rewardUsers rewards vs =>
      rw [hmsg] at hexec
      obtain ⟨-, -, -, storage, res, hloop, rfl, -⟩ := rewardUsers_eq_ok hexec
      rcases rewardUsersLoop_lookup hloop ha with hold | ⟨req, -, hval, rfl⟩
      · exact hs k a hold
      · exact (RewardUserRequest.validate_eq_ok.mp hval).2
  | deregisterVestingAccounts addresses =>
      rw [hmsg] at hexec
      obtain ⟨-, storage, messages, res, hloop, rfl, -⟩ :=
        deregisterVestingAccounts_eq_ok hexec
      rw [deregisterVestingAccountsLoop_storage hloop] at ha
      exact hs k a (lookup_of_lookup_foldl_erase ha)
  | claim =>
      rw [hmsg] at hexec
      obtain ⟨b, v, hl, -, -, rfl, -⟩ := claim_eq_ok hexec
      by_cases hfull : v = b.vestingAmount
      · simp only [hfull, if_true] at ha
        exact hs k a (Store.lookup_of_lookup_erase ha)
      · simp only [hfull, if_false] at ha
        rcases Store.lookup_insert_cases ha with ⟨-, rfl⟩ | ⟨-, hprev⟩
        · -- the account kept its amounts, with a new claimed amount
          have hb := hs _ _ hl
          exact hb
        · exact hs k a hprev
  | withdraw amount =>
      rw [hmsg] at hexec
      obtain ⟨-, -, rfl, -⟩ := withdraw_eq_ok hexec
      exact hs k a ha

theorem books_step {tx : Tx} {ms : List CosmosMsg} (hs : CliffOk s)
    (h : step s tx = .ok (s', ms)) : books s' + sentTotal ms ≤ books s := by
  obtain ⟨r, hexec, rfl⟩ := step_eq_ok.mp h
  cases hmsg : tx.msg with
  | rewardUsers rewards vs =>
      rw [hmsg] at hexec
      exact books_rewardUsers hexec
  | deregisterVestingAccounts addresses =>
      rw [hmsg] at hexec
      exact books_deregisterVestingAccounts hexec
  | claim =>
      rw [hmsg] at hexec
      exact (books_claim hs hexec).le
  | withdraw amount =>
      rw [hmsg] at hexec
      exact (books_withdraw hexec).le

/-- The contract never owes or pays more than it was given: along every
run from `instantiate`, what it still owes plus everything it sent is at
most the deposit. -/
theorem books_run_le {addrValidate : String → Except StdError Unit}
    {info0 : MessageInfo} {msg0 : InstantiateMsg} {s0 : State}
    (hinit : instantiate addrValidate info0 msg0 = .ok s0) (txs : List Tx) :
    books (run step s0 txs).1 + ((run step s0 txs).2.map fun c => sentTotal c.2).sum
      ≤ (info0.funds.map Coin.amount).sum := by
  have hcl : CliffOk s0 := fun k a ha =>
    ((inv_instantiate hinit : Inv 0 s0) k a ha).cliff_le
  have hrun := @run_balance_le _ _ _ _ step CliffOk books (fun _ => 0) sentTotal
    (fun _ _ _ _ hs h => ⟨cliffOk_step hs h, by simpa using books_step hs h⟩) s0 txs hcl
  -- the opening balance is the one coin deposited
  obtain ⟨coin, hfunds, -, rfl⟩ := instantiate_eq_ok hinit
  rw [hfunds]
  simpa [books, owed, Store.sumBy] using hrun

-- ======================================= where the books fall short

/-- One batch naming the same user twice, as in the contract's own
duplicate-user test. -/
def duplicateRewardTx : Tx :=
  ⟨⟨⟨1, 100⟩, "vesting"⟩, ⟨"admin", []⟩,
    .rewardUsers [⟨"user", 500, 250⟩, ⟨"user", 500, 250⟩]
      (.linearVestingWithCliff 100 110 105)⟩

/-- After a deposit of 1000 and `duplicateRewardTx`, nothing was sent
but the contract owes only 500: the second entry failed, and its 500
left the pool all the same. -/
theorem duplicateReward_books :
    instantiate (fun _ => .ok ()) ⟨"admin", [⟨"unibi", 1000⟩]⟩ ⟨"admin", ["admin"]⟩
        = .ok ⟨∅, 1000, "unibi", ⟨{"admin"}, "admin"⟩⟩
      ∧ ((run step ⟨∅, 1000, "unibi", ⟨{"admin"}, "admin"⟩⟩ [duplicateRewardTx]).2.map
          fun c => sentTotal c.2).sum = 0
      ∧ books (run step ⟨∅, 1000, "unibi", ⟨{"admin"}, "admin"⟩⟩ [duplicateRewardTx]).1
          = 500 :=
  ⟨rfl, by decide, by decide⟩

/-- A failed batch entry still has effects. The failed second entry of
the duplicate batch leaves the pool 500 lower than with the entry left
out; deregistering the account of `bigRewardTx` at second 5 fails in
`vested_amount`, and the account is gone all the same, with nothing sent. -/
theorem batch_failed_entries_keep_effects :
    ((rewardUsers ⟨∅, 1000, "unibi", ⟨{"admin"}, "admin"⟩⟩ ⟨"admin", []⟩
        [⟨"user", 500, 250⟩, ⟨"user", 500, 250⟩] (.linearVestingWithCliff 100 110 105)).map
          (fun r => (r.1.unallocatedAmount, r.2.data))
        = .ok (0, some (.rewardUsers [⟨"user", true, ""⟩, ⟨"user", false,
            "Failed to register vesting account: Generic error: User user already has a vesting account"⟩]))
      ∧ (rewardUsers ⟨∅, 1000, "unibi", ⟨{"admin"}, "admin"⟩⟩ ⟨"admin", []⟩
          [⟨"user", 500, 250⟩] (.linearVestingWithCliff 100 110 105)).map
            (fun r => r.1.unallocatedAmount) = .ok 500)
    ∧ ((run step ⟨∅, 2 ^ 127, "unibi", ⟨{"admin"}, "admin"⟩⟩
          [bigRewardTx]).1.vestingAccounts.lookup "user"
        = some ⟨"user", 2 ^ 127, 0, .linearVestingWithCliff 0 10 0, 0⟩
      ∧ (deregisterVestingAccounts
          (run step ⟨∅, 2 ^ 127, "unibi", ⟨{"admin"}, "admin"⟩⟩ [bigRewardTx]).1
          ⟨⟨2, 5⟩, "vesting"⟩ ⟨"admin", []⟩ ["user"]).map
            (fun r => (r.1.vestingAccounts.lookup "user", r.2))
        = .ok (none, ⟨[], some (.deregisterVestingAccounts [⟨"user", false,
            "Failed to deregister vesting account: Overflow: Cannot Mul with 170141183460469231731687303715884105728 and 5"⟩])⟩)) :=
  ⟨⟨by decide, by decide⟩, ⟨by decide, by decide⟩⟩

/-- `books_run_le` after the duplicate batch. -/
theorem books_run_le_duplicateReward :
    instantiate (fun _ => .ok ()) ⟨"admin", [⟨"unibi", 1000⟩]⟩ ⟨"admin", ["admin"]⟩
        = .ok ⟨∅, 1000, "unibi", ⟨{"admin"}, "admin"⟩⟩
      ∧ books (run step ⟨∅, 1000, "unibi", ⟨{"admin"}, "admin"⟩⟩ [duplicateRewardTx]).1
          + ((run step ⟨∅, 1000, "unibi", ⟨{"admin"}, "admin"⟩⟩ [duplicateRewardTx]).2.map
              fun c => sentTotal c.2).sum
        ≤ (([⟨"unibi", 1000⟩] : List Coin).map Coin.amount).sum := by
  refine ⟨?hinit, books_run_le ?hinit [duplicateRewardTx]⟩
  rfl

end NibiruWasm.VestingV2
