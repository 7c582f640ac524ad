/-
Per-denom conservation in core-token-vesting (v1).

For a denom `d`, `owedOf d` sums over the stored accounts vesting `d`
what they have still to be paid; `sentOf d` is what a message sends of
`d` (a bank send of the native denom, a cw20 `Transfer` executed on the
token contract); `deposit d` is what a registration brings in. Every
committed transaction moves `owedOf d` by its deposit minus what it
sends, exactly:

- a registration saves a fresh account of the deposit under a key that
  was free;
- a deregistration removes one account and pays out its vested and its
  unvested remainder, which together are all it still held;
- a claim pays each listed account what vested since its last claim,
  which `AccountsOk` keeps within what the account holds.

`AccountsOk` also says that every entry is keyed by its own denom's
`denom_to_key`; as that key determines the denom, the key of an entry
tells its denom.
-/
import NibiruWasm.VestingV1.Proofs.Handlers
import NibiruWasm.Chain.Run

namespace NibiruWasm.VestingV1

open Cosmwasm Chain

/-- What a message sends out of the contract in denom `d`. -/
def sentOf (d : Denom) : CosmosMsg → ℕ
  | .bank (.send _ amount) =>
      match d with
      | .native denom => ((amount.filter fun c => c.denom = denom).map Coin.amount).sum
      | .cw20 _ => 0
  | .wasmExecute contractAddr (.transfer _ amount) _ =>
      match d with
      | .cw20 addr => if addr = contractAddr then amount else 0
      | .native _ => 0
  | _ => 0

/-- What a list of messages sends in denom `d`. -/
def sentTotalOf (d : Denom) (messages : List CosmosMsg) : ℕ :=
  (messages.map (sentOf d)).sum

/-- What an account vesting `d` has still to be paid. -/
def VestingAccount.owedOf (d : Denom) (a : VestingAccount) : ℕ :=
  if a.vestingDenom = d then a.vestingAmount - a.claimedAmount else 0

/-- What the stored accounts vesting `d` have still to be paid. -/
def owedOf (d : Denom) (storage : Accounts) : ℕ :=
  Store.sumBy (fun _ a => a.owedOf d) storage

/-- What a transaction deposits in denom `d` through a registration: the
one attached coin of a native registration, the hooked amount of the
calling token's `Receive`. -/
def deposit (d : Denom) (tx : Tx) : ℕ :=
  match tx.msg with
  | .registerVestingAccount _ _ _ =>
      match tx.info.funds with
      | [coin] => if d = .native coin.denom then coin.amount else 0
      | _ => 0
  | .receive msg =>
      match msg.msg with
      | some _ => if d = .cw20 tx.info.sender then msg.amount else 0
      | none => 0
  | _ => 0

@[simp] theorem sentTotalOf_nil (d : Denom) : sentTotalOf d [] = 0 := rfl

@[simp] theorem sentTotalOf_append (d : Denom) (ms ms' : List CosmosMsg) :
    sentTotalOf d (ms ++ ms') = sentTotalOf d ms + sentTotalOf d ms' := by
  simp [sentTotalOf]

/-- A send built in denom `d'` sends its amount in `d'` and nothing in any
other denom. -/
@[simp] theorem sentTotalOf_buildSendMsg_cons (d d' : Denom) (amount : ℕ)
    (toAddress : String) (ms : List CosmosMsg) :
    sentTotalOf d (buildSendMsg d' amount toAddress :: ms)
      = (if d' = d then amount else 0) + sentTotalOf d ms := by
  have hone : sentOf d (buildSendMsg d' amount toAddress) = if d' = d then amount else 0 := by
    cases d with
    | native n =>
        cases d' with
        | native n' =>
            by_cases h : n' = n
            · simp [buildSendMsg, sentOf, h]
            · simp [buildSendMsg, sentOf, h]
        | cw20 a' => simp [buildSendMsg, sentOf]
    | cw20 a =>
        cases d' with
        | native n' => simp [buildSendMsg, sentOf]
        | cw20 a' =>
            by_cases h : a' = a
            · simp [buildSendMsg, sentOf, h]
            · simp [buildSendMsg, sentOf, h, Ne.symm h]
  simp only [sentTotalOf, List.map_cons, List.sum_cons, hone]

-- ====================================================== the keys

/-- `denom_to_key` tells the denom: the two prefixes differ in their first
character, and a prefix cancels. -/
theorem denomToKey_injective : Function.Injective denomToKey := by
  intro d d' h
  cases d with
  | native n =>
      cases d' with
      | native n' => simpa [denomToKey] using h
      | cw20 a' =>
          have := congrArg (fun s => s.toList.head?) h
          simp [denomToKey, String.toList_append] at this
  | cw20 a =>
      cases d' with
      | native n' =>
          have := congrArg (fun s => s.toList.head?) h
          simp [denomToKey, String.toList_append] at this
      | cw20 a' => simpa [denomToKey] using h

-- ===================================================== the invariant

/-- What a stored entry satisfies. -/
structure AccountOk (k : String × String) (a : VestingAccount) : Prop where
  key_eq : k.2 = denomToKey a.vestingDenom
  amount_eq : a.vestingSchedule.vestingAmount = a.vestingAmount
  cliff_bounded : a.vestingSchedule.CliffBounded
  claimed_le : a.claimedAmount ≤ a.vestingAmount

/-- Every stored entry is `AccountOk`. -/
def AccountsOk (storage : Accounts) : Prop :=
  ∀ k a, storage.lookup k = some a → AccountOk k a

variable {storage storage' : Accounts} {ms : List CosmosMsg} {env : Env}
  {info : MessageInfo} {d : Denom}

/-- What `vested_amount` returns for a stored account is within its
vesting amount. -/
theorem AccountOk.vested_le {k : String × String} {a : VestingAccount} {t v : ℕ}
    (ha : AccountOk k a) (hv : a.vestingSchedule.vestedAmount t = .ok v) :
    v ≤ a.vestingAmount :=
  ha.amount_eq ▸ VestingSchedule.vestedAmount_le ha.cliff_bounded hv

theorem accountsOk_empty : AccountsOk ∅ := by
  intro k a ha
  simp at ha

theorem AccountsOk.insert {k : String × String} {a : VestingAccount}
    (hs : AccountsOk storage) (ha : AccountOk k a) : AccountsOk (storage.insert k a) := by
  intro k' b hb
  rcases Store.lookup_insert_cases hb with ⟨rfl, rfl⟩ | ⟨-, hprev⟩
  · exact ha
  · exact hs k' b hprev

theorem AccountsOk.erase {k : String × String} (hs : AccountsOk storage) :
    AccountsOk (storage.erase k) :=
  fun k' b hb => hs k' b (Store.lookup_of_lookup_erase hb)

/-- Saving under a free key adds the new account's part. -/
theorem owedOf_insert_of_lookup_none {k : String × String} {a : VestingAccount}
    (h : storage.lookup k = none) :
    owedOf d (storage.insert k a) = a.owedOf d + owedOf d storage := by
  have hins := Store.sumBy_insert_add (fun _ a => a.owedOf d) storage k a
  rw [Store.part_of_lookup_none _ h] at hins
  exact hins

/-- Overwriting an account swaps its part for the new one's. -/
theorem owedOf_insert_add {k : String × String} {a b : VestingAccount}
    (h : storage.lookup k = some a) :
    owedOf d (storage.insert k b) + a.owedOf d = b.owedOf d + owedOf d storage := by
  have hins := Store.sumBy_insert_add (fun _ a => a.owedOf d) storage k b
  rw [Store.part_of_lookup_some _ h] at hins
  exact hins

/-- Removing an account takes its part out. -/
theorem owedOf_erase_add {k : String × String} {a : VestingAccount}
    (h : storage.lookup k = some a) :
    owedOf d (storage.erase k) + a.owedOf d = owedOf d storage := by
  have herase := Store.sumBy_erase_add (fun _ a => a.owedOf d) storage k
  rw [Store.part_of_lookup_some _ h] at herase
  exact herase

-- ================================================= registration

theorem registerVestingAccount_conserves {blockTime depositAmount : ℕ}
    {masterAddress : Option String} {address : String} {depositDenom : Denom}
    {vs : VestingSchedule} (hs : AccountsOk storage)
    (h : registerVestingAccount storage blockTime masterAddress address depositDenom
      depositAmount vs = .ok (storage', ms)) :
    AccountsOk storage'
      ∧ owedOf d storage' + sentTotalOf d ms
        = owedOf d storage + if d = depositDenom then depositAmount else 0 := by
  obtain ⟨hnone, hval, rfl, rfl⟩ := registerVestingAccount_eq_ok.mp h
  obtain ⟨hamt, hcl⟩ := VestingSchedule.validate_eq_ok hval
  refine ⟨hs.insert ⟨rfl, hamt, hcl, Nat.zero_le _⟩, ?_⟩
  -- the key was free, so the sum gains exactly the fresh account
  rw [owedOf_insert_of_lookup_none hnone, sentTotalOf_nil]
  by_cases hd : depositDenom = d
  · subst hd
    simp [VestingAccount.owedOf]
    omega
  · simp [VestingAccount.owedOf, hd, Ne.symm hd]

-- =============================================== deregistration

theorem deregisterVestingAccount_conserves {address : String} {denom : Denom}
    {vestedTokenRecipient leftVestingTokenRecipient : Option String}
    (hs : AccountsOk storage)
    (h : deregisterVestingAccount storage env info address denom vestedTokenRecipient
      leftVestingTokenRecipient = .ok (storage', ms)) :
    AccountsOk storage' ∧ owedOf d storage' + sentTotalOf d ms = owedOf d storage := by
  obtain ⟨a, v, hl, -, -, hcv, hvle, rfl, rfl⟩ := deregisterVestingAccount_eq_ok h
  refine ⟨hs.erase, ?_⟩
  have herase := owedOf_erase_add (d := d) hl
  -- the vested and the unvested remainders add up to what the account held
  have hsent : sentTotalOf d
      ((if v - a.claimedAmount ≠ 0 then
          [buildSendMsg a.vestingDenom (v - a.claimedAmount)
            (vestedTokenRecipient.getD address)] else [])
        ++ (if a.vestingAmount - v ≠ 0 then
          [buildSendMsg a.vestingDenom (a.vestingAmount - v)
            (leftVestingTokenRecipient.getD info.sender)] else []))
      = a.owedOf d := by
    unfold VestingAccount.owedOf
    by_cases hd : a.vestingDenom = d
    · by_cases hc : v - a.claimedAmount = 0 <;>
        by_cases hl' : a.vestingAmount - v = 0 <;> simp [hc, hl', hd] <;> omega
    · by_cases hc : v - a.claimedAmount = 0 <;>
        by_cases hl' : a.vestingAmount - v = 0 <;> simp [hc, hl', hd]
  rw [hsent]
  exact herase

-- ======================================================== claims

/-- One paid denom of a claim: the account's new claimed amount is what
vested, the payment is the difference. -/
theorem claim_entry_conserves (d : Denom) (recipient : String) (messages : List CosmosMsg)
    {k : String × String} {a : VestingAccount} {v : ℕ} (hs : AccountsOk storage) (hl : storage.lookup k = some a)
    (hcv : a.claimedAmount ≤ v) (hvle : v ≤ a.vestingAmount) :
    AccountsOk (if v = a.vestingAmount then storage.erase k
        else storage.insert k { a with claimedAmount := v })
      ∧ owedOf d (if v = a.vestingAmount then storage.erase k
            else storage.insert k { a with claimedAmount := v })
          + sentTotalOf d
              (messages ++ [buildSendMsg a.vestingDenom (v - a.claimedAmount) recipient])
        = owedOf d storage + sentTotalOf d messages := by
  have ha := hs k a hl
  have hpaid : sentTotalOf d
      (messages ++ [buildSendMsg a.vestingDenom (v - a.claimedAmount) recipient])
        = sentTotalOf d messages + if a.vestingDenom = d then v - a.claimedAmount else 0 := by
    simp
  rw [hpaid]
  by_cases hfull : v = a.vestingAmount
  · -- fully claimed: the account leaves with its last payment
    refine ⟨by simpa [hfull] using hs.erase, ?_⟩
    have herase := owedOf_erase_add (d := d) hl
    simp only [hfull, if_true]
    unfold VestingAccount.owedOf at herase
    split_ifs at herase ⊢ <;> omega
  · have hok : AccountOk k { a with claimedAmount := v } :=
      ⟨ha.key_eq, ha.amount_eq, ha.cliff_bounded, hvle⟩
    refine ⟨by simpa [hfull] using hs.insert hok, ?_⟩
    have hins := owedOf_insert_add (d := d) (b := { a with claimedAmount := v }) hl
    simp only [hfull, if_false]
    simp only [VestingAccount.owedOf] at hins
    split_ifs at hins ⊢ <;> omega

/-- The claim loop over any list of denoms, repeats included, moves
`owedOf d` by exactly what it sends. -/
theorem claimLoop_conserves {blockTime : ℕ} {sender recipient : String} :
    ∀ {denoms : List Denom} {storage storage' : Accounts} {messages messages' : List CosmosMsg},
      AccountsOk storage →
      claimLoop blockTime sender recipient storage messages denoms
        = .ok (storage', messages') →
      AccountsOk storage'
        ∧ owedOf d storage' + sentTotalOf d messages'
          = owedOf d storage + sentTotalOf d messages := by
  intro denoms
  induction denoms with
  | nil =>
      intro storage storage' messages messages' hs h
      have heq := claimLoop_nil_eq_ok h
      obtain ⟨rfl, rfl⟩ := Prod.mk.inj heq
      exact ⟨hs, rfl⟩
  | cons denom rest ih =>
      intro storage storage' messages messages' hs h
      obtain ⟨a, v, hl, hv, hcv, ⟨-, hrest⟩ | ⟨-, hrest⟩⟩ := claimLoop_cons_eq_ok h
      · exact ih hs hrest
      · have hvle := (hs _ a hl).vested_le hv
        obtain ⟨hs', hbal⟩ := claim_entry_conserves d recipient messages hs hl hcv hvle
        obtain ⟨hs'', hbal'⟩ := ih hs' hrest
        exact ⟨hs'', hbal'.trans hbal⟩

-- ===================================================== over a run

/-- Every committed transaction keeps the invariant and moves `owedOf d`
by its deposit of `d` minus what it sends of `d`. -/
theorem step_conserves {tx : Tx} (hs : AccountsOk storage)
    (h : step storage tx = .ok (storage', ms)) :
    AccountsOk storage' ∧ owedOf d storage' + sentTotalOf d ms
      = owedOf d storage + deposit d tx := by
  unfold step at h
  unfold deposit
  cases hmsg : tx.msg with
  | receive msg =>
      rw [hmsg] at h
      simp only [execute, receiveCw20] at h
      cases hhook : msg.msg with
      | none => rw [hhook] at h; cases h
      | some hook =>
          obtain ⟨masterAddress, address, vs⟩ := hook
          rw [hhook] at h
          simp only [hhook]
          exact registerVestingAccount_conserves hs h
  | registerVestingAccount address masterAddress vs =>
      rw [hmsg] at h
      simp only [execute] at h
      -- exactly one coin attached, or the transaction failed
      match hfunds : tx.info.funds, h with
      | [coin], h => simpa using registerVestingAccount_conserves hs h
      | [], h => cases h
      | _ :: _ :: _, h => cases h
  | deregisterVestingAccount address denom vestedTokenRecipient leftVestingTokenRecipient =>
      rw [hmsg] at h
      simpa using deregisterVestingAccount_conserves hs h
  | claim denoms recipient =>
      rw [hmsg] at h
      simpa using claimLoop_conserves hs h

/-- core-token-vesting (v1) conserves every denom: along every run from
the empty storage `instantiate` leaves, what the stored accounts of `d`
are still owed plus everything sent of `d` is everything deposited of
`d`; and an entry's key tells its denom. -/
theorem denom_conservation (txs : List Tx) (d : Denom) :
    owedOf d (run step ∅ txs).1 + ((run step ∅ txs).2.map fun c => sentTotalOf d c.2).sum
        = ((run step ∅ txs).2.map fun c => deposit d c.1).sum
      ∧ ∀ address x a, (run step ∅ txs).1.lookup (address, denomToKey x) = some a →
          a.vestingDenom = x := by
  constructor
  · have hrun := @run_balance _ _ _ _ step AccountsOk (owedOf d) (deposit d) (sentTotalOf d)
      (fun _ _ _ _ hs h => step_conserves hs h) ∅ txs accountsOk_empty
    have hzero : owedOf d (∅ : Accounts) = 0 := rfl
    rw [hzero, Nat.zero_add] at hrun
    exact hrun
  · intro address x a ha
    have hinv := @run_invariant _ _ _ _ step AccountsOk
      (fun _ _ _ _ hs h => (step_conserves (d := d) hs h).1) ∅ txs accountsOk_empty
    exact denomToKey_injective ((hinv _ a ha).key_eq).symm

end NibiruWasm.VestingV1
