/-
Who may do what in broker-bank and broker-staking.

One inversion lemma per handler names the permission check that passed
and the exact effect: the owner checks (`assertOwner_eq_ok`), the
operator check, which also admits the owner (`assertOperator_eq_ok`),
and the halt switch (`assertNotHalted_eq_ok`).

`BankAudit` and `StakingAudit` state the permission rules for one
committed transaction: for each message, who may send it and exactly
which bank, staking and distribution messages it emits, to which
recipients and of which coins; who may change the operators, the halt
switch and the ownership; and that the recipient set never changes. Every committed step satisfies them
(`bankAudit_of_step`, `stakingAudit_of_step`), so every transaction of
every run does.
-/
import NibiruWasm.Broker.Split
import NibiruWasm.Ownable.Proofs

namespace NibiruWasm.BrokerBank

open Cosmwasm Chain CwUtils Ownable

/-- The sender is an operator or the owner. -/
def HasPerms (s : State) (addr : String) : Prop :=
  addr ∈ s.operators ∨ s.ownership.owner = some addr

variable {s s' : State} {ms : List CosmosMsg} {env : Env} {info : MessageInfo}

-- ================================================== permission checks

@[simp] theorem assertOwner_eq_ok {o : Ownership} {sender : String} {u : Unit} :
    (assertOwner o sender).mapError ContractError.ownership = .ok u ↔ o.owner = some sender := by
  simp [assertOwner]

theorem assertOperator_eq_ok {addr : String} {perms : Permissions} :
    Permissions.assertOperator s addr = .ok perms ↔ HasPerms s addr ∧ perms = Permissions.load s := by
  unfold Permissions.assertOperator HasPerms
  by_cases hp : addr ∈ s.operators ∨ s.ownership.owner = some addr
  · have hb : ((Permissions.load s).isOperator addr || (Permissions.load s).isOwner addr) = true := by
      rcases hp with hop | hown
      · simp [Permissions.isOperator, Permissions.load, hop]
      · simp [Permissions.isOwner, Permissions.load, hown]
    simp [hb, hp, eq_comm]
  · have hb : ((Permissions.load s).isOperator addr || (Permissions.load s).isOwner addr) = false := by
      rw [not_or] at hp
      cases hown : s.ownership.owner with
      | none => simp [Permissions.isOperator, Permissions.isOwner, Permissions.load, hp.1, hown]
      | some owner =>
          have hne : owner ≠ addr := fun h => hp.2 (h ▸ hown)
          simp [Permissions.isOperator, Permissions.isOwner, Permissions.load, hp.1, hown, hne]
    simp [hb, hp]

@[simp] theorem assertNotHalted_eq_ok {isHalted : Bool} {u : Unit} :
    assertNotHalted isHalted = .ok u ↔ isHalted = false := by
  cases isHalted <;> simp [assertNotHalted]

-- ======================================================== handlers

theorem withdraw_eq_ok {toAddr : Option String} {denoms : Finset String} {balances : List Coin}
    (h : withdraw s info toAddr denoms balances = .ok (s', ms)) :
    s.ownership.owner = some info.sender ∧ s' = s
      ∧ ms = [.bank (.send (toAddr.getD info.sender) (balances.filter fun coin => coin.denom ∈ denoms))] := by
  simp only [withdraw, bind_eq_ok, assertOwner_eq_ok, pure_eq_ok, Prod.mk.injEq] at h
  obtain ⟨-, hown, hs, hms⟩ := h
  exact ⟨hown, hs.symm, hms.symm⟩

theorem withdrawAll_eq_ok {toAddr : Option String} {balances : List Coin}
    (h : withdrawAll s info toAddr balances = .ok (s', ms)) :
    s.ownership.owner = some info.sender ∧ s' = s
      ∧ ms = [.bank (.send (toAddr.getD info.sender) balances)] := by
  simp only [withdrawAll, bind_eq_ok, assertOwner_eq_ok, pure_eq_ok, Prod.mk.injEq] at h
  obtain ⟨-, hown, hs, hms⟩ := h
  exact ⟨hown, hs.symm, hms.symm⟩

theorem editOpers_eq_ok {action : OperAction} (h : editOpers s info action = .ok (s', ms)) :
    s.ownership.owner = some info.sender ∧ s'.ownership = s.ownership ∧ s'.toAddrs = s.toAddrs
      ∧ s'.isHalted = s.isHalted ∧ ms = [] := by
  simp only [editOpers, bind_eq_ok, assertOwner_eq_ok] at h
  obtain ⟨-, hown, hrest⟩ := h
  refine ⟨hown, ?_⟩
  cases action with
  | addOper address =>
      simp only [pure_eq_ok, Prod.mk.injEq] at hrest
      obtain ⟨rfl, rfl⟩ := hrest
      exact ⟨rfl, rfl, rfl, rfl⟩
  | removeOper address =>
      simp only [pure_eq_ok, Prod.mk.injEq] at hrest
      obtain ⟨rfl, rfl⟩ := hrest
      exact ⟨rfl, rfl, rfl, rfl⟩

theorem toggleHalt_eq_ok (h : toggleHalt s info = .ok (s', ms)) :
    s.ownership.owner = some info.sender ∧ s' = { s with isHalted := !s.isHalted } ∧ ms = [] := by
  simp only [toggleHalt, bind_eq_ok, assertOwner_eq_ok, pure_eq_ok, Prod.mk.injEq] at h
  obtain ⟨-, hown, hs, hms⟩ := h
  exact ⟨hown, hs.symm, hms.symm⟩

theorem bankSend_eq_ok {coins : List Coin} {toAddr : String}
    (h : bankSend s info coins toAddr = .ok (s', ms)) :
    HasPerms s info.sender ∧ s.isHalted = false ∧ toAddr ∈ s.toAddrs ∧ s' = s
      ∧ ms = [.bank (.send toAddr coins)] := by
  simp only [bankSend, bind_eq_ok, assertOperator_eq_ok, assertNotHalted_eq_ok, throw_bind,
    ite_throw_eq_ok, not_not, pure_eq_ok, Prod.mk.injEq] at h
  obtain ⟨-, ⟨hperms, -⟩, -, hhalt, hto, hs, hms⟩ := h
  exact ⟨hperms, hhalt, hto, hs.symm, hms.symm⟩

theorem executeUpdateOwnership_eq_ok {action : Action}
    (h : executeUpdateOwnership s env info action = .ok (s', ms)) :
    ∃ o', updateOwnership s.ownership env.block info.sender action = .ok o'
      ∧ s' = { s with ownership := o' } ∧ ms = [] := by
  simp only [executeUpdateOwnership, bind_eq_ok, mapError_eq_ok, pure_eq_ok,
    Prod.mk.injEq] at h
  obtain ⟨o', hupd, hs, hms⟩ := h
  exact ⟨o', hupd, hs.symm, hms.symm⟩

-- ============================================================ audit

/-- The permission rules of broker-bank for one committed transaction,
with what it sends. `BankSend` sends the requested coins to the
requested recipient, a listed one, for an operator or the owner while
not halted; `Withdraw` and `WithdrawAll` send the contract's balances,
of the requested denoms or all of them, to the requested address or
else the sender, for the owner; the other messages send nothing. Only
the owner's `EditOpers` and `ToggleHalt` change the operators and the
halt switch, the recipient set stays, and the ownership changes only by
`update_ownership`. -/
structure BankAudit (c : Commit State Tx CosmosMsg) : Prop where
  bankSend : ∀ coins toAddr, c.tx.msg = .bankSend coins toAddr →
    HasPerms c.pre c.tx.info.sender ∧ c.pre.isHalted = false ∧ toAddr ∈ c.pre.toAddrs
      ∧ c.msgs = [.bank (.send toAddr coins)]
  withdraw : ∀ toAddr denoms, c.tx.msg = .withdraw toAddr denoms →
    c.pre.ownership.owner = some c.tx.info.sender
      ∧ c.msgs = [.bank (.send (toAddr.getD c.tx.info.sender)
          (c.tx.balances.filter fun coin => coin.denom ∈ denoms))]
  withdrawAll : ∀ toAddr, c.tx.msg = .withdrawAll toAddr →
    c.pre.ownership.owner = some c.tx.info.sender
      ∧ c.msgs = [.bank (.send (toAddr.getD c.tx.info.sender) c.tx.balances)]
  quiet : c.tx.msg = .toggleHalt ∨ (∃ action, c.tx.msg = .editOpers action)
      ∨ (∃ action, c.tx.msg = .updateOwnership action) → c.msgs = []
  operators : c.post.operators ≠ c.pre.operators →
    (∃ action, c.tx.msg = .editOpers action) ∧ c.pre.ownership.owner = some c.tx.info.sender
  isHalted : c.post.isHalted ≠ c.pre.isHalted →
    c.tx.msg = .toggleHalt ∧ c.pre.ownership.owner = some c.tx.info.sender
  toAddrs : c.post.toAddrs = c.pre.toAddrs
  ownership : c.post.ownership ≠ c.pre.ownership →
    ∃ action, c.tx.msg = .updateOwnership action
      ∧ updateOwnership c.pre.ownership c.tx.env.block c.tx.info.sender action = .ok c.post.ownership

/-- A handler that sends nothing, is no payout, and changes nothing but
the operators, or nothing at all, keeps every rule that is about the
rest. -/
theorem BankAudit.of_quiet {c : Commit State Tx CosmosMsg} (hms : c.msgs = [])
    (hsend : ∀ coins toAddr, c.tx.msg ≠ .bankSend coins toAddr)
    (hwithdraw : ∀ toAddr denoms, c.tx.msg ≠ .withdraw toAddr denoms)
    (hall : ∀ toAddr, c.tx.msg ≠ .withdrawAll toAddr)
    (hown : c.post.ownership = c.pre.ownership) (hto : c.post.toAddrs = c.pre.toAddrs)
    (hhalt : c.post.isHalted = c.pre.isHalted)
    (hops : c.post.operators ≠ c.pre.operators →
      (∃ action, c.tx.msg = .editOpers action) ∧ c.pre.ownership.owner = some c.tx.info.sender) :
    BankAudit c where
  bankSend coins toAddr h := absurd h (hsend coins toAddr)
  withdraw toAddr denoms h := absurd h (hwithdraw toAddr denoms)
  withdrawAll toAddr h := absurd h (hall toAddr)
  quiet _ := hms
  operators := hops
  isHalted h := absurd hhalt h
  toAddrs := hto
  ownership h := absurd hown h

/-- A payout changes no storage, so it keeps every rule about the
storage. -/
theorem BankAudit.of_payout {c : Commit State Tx CosmosMsg} (hs : c.post = c.pre)
    (hsend : ∀ coins toAddr, c.tx.msg = .bankSend coins toAddr →
      HasPerms c.pre c.tx.info.sender ∧ c.pre.isHalted = false ∧ toAddr ∈ c.pre.toAddrs
        ∧ c.msgs = [.bank (.send toAddr coins)])
    (hwithdraw : ∀ toAddr denoms, c.tx.msg = .withdraw toAddr denoms →
      c.pre.ownership.owner = some c.tx.info.sender
        ∧ c.msgs = [.bank (.send (toAddr.getD c.tx.info.sender)
            (c.tx.balances.filter fun coin => coin.denom ∈ denoms))])
    (hall : ∀ toAddr, c.tx.msg = .withdrawAll toAddr →
      c.pre.ownership.owner = some c.tx.info.sender
        ∧ c.msgs = [.bank (.send (toAddr.getD c.tx.info.sender) c.tx.balances)])
    (hquiet : ¬(c.tx.msg = .toggleHalt ∨ (∃ action, c.tx.msg = .editOpers action)
      ∨ (∃ action, c.tx.msg = .updateOwnership action))) :
    BankAudit c where
  bankSend := hsend
  withdraw := hwithdraw
  withdrawAll := hall
  quiet h := absurd h hquiet
  operators h := absurd (congrArg State.operators hs) h
  isHalted h := absurd (congrArg State.isHalted hs) h
  toAddrs := congrArg State.toAddrs hs
  ownership h := absurd (congrArg State.ownership hs) h

theorem bankAudit_of_step {tx : Tx} (h : step s tx = .ok (s', ms)) : BankAudit ⟨s, tx, s', ms⟩ := by
  obtain ⟨env, info, msg, balances⟩ := tx
  cases msg with
  | bankSend coins toAddr =>
      obtain ⟨hperms, hhalt, hto, rfl, rfl⟩ := bankSend_eq_ok h
      refine BankAudit.of_payout rfl ?_ nofun nofun ?_
      · rintro coins' toAddr' ⟨⟩
        exact ⟨hperms, hhalt, hto, rfl⟩
      · rintro (h | ⟨_, h⟩ | ⟨_, h⟩) <;> cases h
  | toggleHalt =>
      obtain ⟨hown, rfl, rfl⟩ := toggleHalt_eq_ok h
      exact ⟨nofun, nofun, nofun, fun _ => rfl, fun h => absurd rfl h, fun _ => ⟨rfl, hown⟩, rfl,
        fun h => absurd rfl h⟩
  | updateOwnership action =>
      obtain ⟨o', hupd, rfl, rfl⟩ := executeUpdateOwnership_eq_ok h
      exact ⟨nofun, nofun, nofun, fun _ => rfl, fun h => absurd rfl h, fun h => absurd rfl h, rfl,
        fun _ => ⟨action, rfl, hupd⟩⟩
  | editOpers action =>
      obtain ⟨hown, ho, hto, hhalt, rfl⟩ := editOpers_eq_ok h
      exact BankAudit.of_quiet rfl nofun nofun nofun ho hto hhalt fun _ => ⟨⟨action, rfl⟩, hown⟩
  | withdrawAll toAddr =>
      obtain ⟨hown, rfl, rfl⟩ := withdrawAll_eq_ok h
      refine BankAudit.of_payout rfl nofun nofun ?_ ?_
      · rintro toAddr' ⟨⟩
        exact ⟨hown, rfl⟩
      · rintro (h | ⟨_, h⟩ | ⟨_, h⟩) <;> cases h
  | withdraw toAddr denoms =>
      obtain ⟨hown, rfl, rfl⟩ := withdraw_eq_ok h
      refine BankAudit.of_payout rfl nofun ?_ nofun ?_
      · rintro toAddr' denoms' ⟨⟩
        exact ⟨hown, rfl⟩
      · rintro (h | ⟨_, h⟩ | ⟨_, h⟩) <;> cases h

end NibiruWasm.BrokerBank

namespace NibiruWasm.BrokerStaking

open Cosmwasm Chain CwUtils Ownable BrokerBank

variable {s s' : State} {ms : List CosmosMsg} {info : MessageInfo}

theorem claimRewards_eq_ok {delegations : List String}
    (h : claimRewards s info delegations = .ok (s', ms)) :
    s.isHalted = false ∧ HasPerms s info.sender ∧ s' = s
      ∧ ms = delegations.map fun validator => .distribution (.withdrawDelegatorReward validator) := by
  simp only [claimRewards, bind_eq_ok, assertNotHalted_eq_ok, assertOperator_eq_ok, pure_eq_ok,
    Prod.mk.injEq] at h
  obtain ⟨-, hhalt, -, ⟨hperms, -⟩, hs, hms⟩ := h
  exact ⟨hhalt, hperms, hs.symm, hms.symm⟩

/-- `unstake` undelegates each nonzero amount, in the order asked. -/
theorem unstakeMessages_eq : ∀ unstakeMsgs : List UnstakeMsg,
    unstakeMessages unstakeMsgs = (unstakeMsgs.filter fun m => m.amount ≠ 0).map
      fun m => buildUnstakesMessages m.amount m.validator
  | [] => rfl
  | m :: rest => by
      by_cases hz : m.amount = 0
      · simp [unstakeMessages, hz, unstakeMessages_eq rest]
      · simp [unstakeMessages, hz, unstakeMessages_eq rest]

theorem unstake_eq_ok {unstakeMsgs : List UnstakeMsg}
    (h : unstake s info unstakeMsgs = .ok (s', ms)) :
    s.ownership.owner = some info.sender ∧ s' = s ∧ ms = unstakeMessages unstakeMsgs := by
  simp only [unstake, bind_eq_ok, assertOwner_eq_ok, pure_eq_ok, Prod.mk.injEq] at h
  obtain ⟨-, hown, hs, hms⟩ := h
  exact ⟨hown, hs.symm, hms.symm⟩

/-- A committed `stake`: an operator or the owner, not halted, with
shares of nonzero sum, whose every product fit; it delegates each
nonzero part. -/
theorem stake_eq_ok {stakeMsgs : List StakeMsg} {amount : ℕ}
    (h : stake s info stakeMsgs amount = .ok (s', ms)) :
    HasPerms s info.sender ∧ s.isHalted = false ∧ s' = s
      ∧ 0 < (stakeMsgs.map StakeMsg.share).sum
      ∧ ms = delegations amount (stakeMsgs.map StakeMsg.share).sum stakeMsgs := by
  simp only [stake, bind_eq_ok, assertOperator_eq_ok, assertNotHalted_eq_ok, mapError_eq_ok,
    sum_eq_ok, throw_bind, ite_throw_eq_ok, stakeMessages_eq_ok, pure_eq_ok, Prod.mk.injEq] at h
  obtain ⟨-, ⟨hperms, -⟩, -, hhalt, total, ⟨-, rfl⟩, hpos, msgs, ⟨-, rfl⟩, hs, hms⟩ := h
  exact ⟨hperms, hhalt, hs.symm, Nat.pos_of_ne_zero hpos, hms.symm⟩

/-- The permission rules of broker-staking for one committed
transaction, with what it sends. `Stake` delegates each validator's
nonzero part of the amount, `amount * share / total_shares`, which sum
to at most the amount and lose less than one unit per validator, and
`ClaimRewards` withdraws the rewards of every delegation, both for an
operator or the owner while not halted; `Unstake` undelegates each
nonzero amount, for the owner; `Withdraw` and `WithdrawAll` send the
balances as in broker-bank, for the owner; the other messages send
nothing. Only the owner's `EditOpers` and `ToggleHalt` change the
operators and the halt switch, the recipient set stays, and the
ownership changes only by `update_ownership`. -/
structure StakingAudit (c : Commit State Tx CosmosMsg) : Prop where
  stake : ∀ amount stakeMsgs, c.tx.msg = .stake amount stakeMsgs →
    HasPerms c.pre c.tx.info.sender ∧ c.pre.isHalted = false
      ∧ c.msgs = delegations amount (stakeMsgs.map StakeMsg.share).sum stakeMsgs
      ∧ (c.msgs.map delegatedAmount).sum ≤ amount
      ∧ amount < (c.msgs.map delegatedAmount).sum + stakeMsgs.length
  claimRewards : c.tx.msg = .claimRewards →
    HasPerms c.pre c.tx.info.sender ∧ c.pre.isHalted = false
      ∧ c.msgs = c.tx.delegations.map fun validator =>
          .distribution (.withdrawDelegatorReward validator)
  unstake : ∀ unstakeMsgs, c.tx.msg = .unstake unstakeMsgs →
    c.pre.ownership.owner = some c.tx.info.sender
      ∧ c.msgs = (unstakeMsgs.filter fun m => m.amount ≠ 0).map
          fun m => buildUnstakesMessages m.amount m.validator
  withdraw : ∀ toAddr denoms, c.tx.msg = .withdraw toAddr denoms →
    c.pre.ownership.owner = some c.tx.info.sender
      ∧ c.msgs = [.bank (.send (toAddr.getD c.tx.info.sender)
          (c.tx.balances.filter fun coin => coin.denom ∈ denoms))]
  withdrawAll : ∀ toAddr, c.tx.msg = .withdrawAll toAddr →
    c.pre.ownership.owner = some c.tx.info.sender
      ∧ c.msgs = [.bank (.send (toAddr.getD c.tx.info.sender) c.tx.balances)]
  quiet : c.tx.msg = .toggleHalt ∨ (∃ action, c.tx.msg = .editOpers action)
      ∨ (∃ action, c.tx.msg = .updateOwnership action) → c.msgs = []
  operators : c.post.operators ≠ c.pre.operators →
    (∃ action, c.tx.msg = .editOpers action) ∧ c.pre.ownership.owner = some c.tx.info.sender
  isHalted : c.post.isHalted ≠ c.pre.isHalted →
    c.tx.msg = .toggleHalt ∧ c.pre.ownership.owner = some c.tx.info.sender
  toAddrs : c.post.toAddrs = c.pre.toAddrs
  ownership : c.post.ownership ≠ c.pre.ownership →
    ∃ action, c.tx.msg = .updateOwnership action
      ∧ updateOwnership c.pre.ownership c.tx.env.block c.tx.info.sender action = .ok c.post.ownership

/-- A handler that leaves the storage as it was, and is not one of the
quiet messages, breaks none of the storage rules. -/
theorem StakingAudit.of_state_eq {c : Commit State Tx CosmosMsg} (hs : c.post = c.pre)
    (hstake : ∀ amount stakeMsgs, c.tx.msg = .stake amount stakeMsgs →
      HasPerms c.pre c.tx.info.sender ∧ c.pre.isHalted = false
        ∧ c.msgs = delegations amount (stakeMsgs.map StakeMsg.share).sum stakeMsgs
        ∧ (c.msgs.map delegatedAmount).sum ≤ amount
        ∧ amount < (c.msgs.map delegatedAmount).sum + stakeMsgs.length)
    (hclaim : c.tx.msg = .claimRewards →
      HasPerms c.pre c.tx.info.sender ∧ c.pre.isHalted = false
        ∧ c.msgs = c.tx.delegations.map fun validator =>
            .distribution (.withdrawDelegatorReward validator))
    (hunstake : ∀ unstakeMsgs, c.tx.msg = .unstake unstakeMsgs →
      c.pre.ownership.owner = some c.tx.info.sender
        ∧ c.msgs = (unstakeMsgs.filter fun m => m.amount ≠ 0).map
            fun m => buildUnstakesMessages m.amount m.validator)
    (hwithdraw : ∀ toAddr denoms, c.tx.msg = .withdraw toAddr denoms →
      c.pre.ownership.owner = some c.tx.info.sender
        ∧ c.msgs = [.bank (.send (toAddr.getD c.tx.info.sender)
            (c.tx.balances.filter fun coin => coin.denom ∈ denoms))])
    (hall : ∀ toAddr, c.tx.msg = .withdrawAll toAddr →
      c.pre.ownership.owner = some c.tx.info.sender
        ∧ c.msgs = [.bank (.send (toAddr.getD c.tx.info.sender) c.tx.balances)])
    (hquiet : ¬(c.tx.msg = .toggleHalt ∨ (∃ action, c.tx.msg = .editOpers action)
      ∨ (∃ action, c.tx.msg = .updateOwnership action))) :
    StakingAudit c where
  stake := hstake
  claimRewards := hclaim
  unstake := hunstake
  withdraw := hwithdraw
  withdrawAll := hall
  quiet h := absurd h hquiet
  operators h := absurd (congrArg State.operators hs) h
  isHalted h := absurd (congrArg State.isHalted hs) h
  toAddrs := congrArg State.toAddrs hs
  ownership h := absurd (congrArg State.ownership hs) h

/-- What `stake` delegates sums to at most the amount, and to more than
the amount less one unit per validator. -/
theorem delegations_bounds {amount : ℕ} {stakeMsgs : List StakeMsg}
    (htot : 0 < (stakeMsgs.map StakeMsg.share).sum) :
    ((delegations amount (stakeMsgs.map StakeMsg.share).sum stakeMsgs).map delegatedAmount).sum
        ≤ amount
      ∧ amount < ((delegations amount (stakeMsgs.map StakeMsg.share).sum stakeMsgs).map
          delegatedAmount).sum + stakeMsgs.length := by
  rw [delegatedAmount_delegations]
  exact ⟨splitSum_le htot, lt_splitSum_add_length htot⟩

theorem stakingAudit_of_step {tx : Tx} (h : step s tx = .ok (s', ms)) :
    StakingAudit ⟨s, tx, s', ms⟩ := by
  obtain ⟨env, info, msg, balances, delegations⟩ := tx
  -- the messages that are not `toggleHalt`, `editOpers` or `updateOwnership`
  have hloud : ∀ {m : ExecuteMsg}, (∀ a, m ≠ .editOpers a) → (∀ a, m ≠ .updateOwnership a) →
      m ≠ .toggleHalt → ¬(m = .toggleHalt ∨ (∃ a, m = .editOpers a) ∨ ∃ a, m = .updateOwnership a) := by
    rintro m he hu ht (h | ⟨a, h⟩ | ⟨a, h⟩)
    · exact ht h
    · exact he a h
    · exact hu a h
  cases msg with
  | toggleHalt =>
      obtain ⟨hown, rfl, rfl⟩ := toggleHalt_eq_ok h
      exact ⟨nofun, nofun, nofun, nofun, nofun, fun _ => rfl, fun h => absurd rfl h,
        fun _ => ⟨rfl, hown⟩, rfl, fun h => absurd rfl h⟩
  | withdraw toAddr denoms =>
      obtain ⟨hown, rfl, rfl⟩ := BrokerBank.withdraw_eq_ok h
      refine StakingAudit.of_state_eq rfl nofun nofun nofun ?_ nofun (hloud nofun nofun nofun)
      rintro toAddr' denoms' ⟨⟩
      exact ⟨hown, rfl⟩
  | withdrawAll toAddr =>
      obtain ⟨hown, rfl, rfl⟩ := withdrawAll_eq_ok h
      refine StakingAudit.of_state_eq rfl nofun nofun nofun nofun ?_ (hloud nofun nofun nofun)
      rintro toAddr' ⟨⟩
      exact ⟨hown, rfl⟩
  | claimRewards =>
      obtain ⟨hhalt, hperms, rfl, rfl⟩ := claimRewards_eq_ok h
      exact StakingAudit.of_state_eq rfl nofun (fun _ => ⟨hperms, hhalt, rfl⟩) nofun nofun nofun
        (hloud nofun nofun nofun)
  | unstake unstakeMsgs =>
      obtain ⟨hown, rfl, rfl⟩ := unstake_eq_ok h
      refine StakingAudit.of_state_eq rfl nofun nofun ?_ nofun nofun (hloud nofun nofun nofun)
      rintro unstakeMsgs' ⟨⟩
      exact ⟨hown, unstakeMessages_eq unstakeMsgs⟩
  | stake amount stakeMsgs =>
      obtain ⟨hperms, hhalt, rfl, htot, rfl⟩ := stake_eq_ok h
      refine StakingAudit.of_state_eq rfl ?_ nofun nofun nofun nofun (hloud nofun nofun nofun)
      rintro amount' stakeMsgs' ⟨⟩
      exact ⟨hperms, hhalt, rfl, delegations_bounds htot⟩
  | editOpers action =>
      obtain ⟨hown, ho, hto, hhalt, rfl⟩ := editOpers_eq_ok h
      exact ⟨nofun, nofun, nofun, nofun, nofun, fun _ => rfl, fun _ => ⟨⟨action, rfl⟩, hown⟩,
        fun h => absurd hhalt h, hto, fun h => absurd ho h⟩
  | updateOwnership action =>
      obtain ⟨o', hupd, rfl, rfl⟩ := executeUpdateOwnership_eq_ok h
      exact ⟨nofun, nofun, nofun, nofun, nofun, fun _ => rfl, fun h => absurd rfl h,
        fun h => absurd rfl h, rfl, fun _ => ⟨action, rfl, hupd⟩⟩

/-- In broker-bank and broker-staking, every committed transaction of
every run from `instantiate`, by any senders in any order, keeps the
permission rules; and the recipient set is the one instantiated. -/
theorem broker_permissions (bankMsg stakingMsg : InstantiateMsg) (bankTxs : List BrokerBank.Tx)
    (stakingTxs : List Tx) :
    (∀ c ∈ trace BrokerBank.step (BrokerBank.instantiate bankMsg) bankTxs, BankAudit c)
      ∧ (run BrokerBank.step (BrokerBank.instantiate bankMsg) bankTxs).1.toAddrs = bankMsg.toAddrs
      ∧ (∀ c ∈ trace step (instantiate stakingMsg) stakingTxs, StakingAudit c)
      ∧ (run step (instantiate stakingMsg) stakingTxs).1.toAddrs = stakingMsg.toAddrs := by
  refine ⟨fun c hc => ?_, ?_, fun c hc => ?_, ?_⟩
  · exact bankAudit_of_step (exec_of_mem_trace hc)
  · exact run_invariant (fun s => s.toAddrs = bankMsg.toAddrs)
      (fun _ _ _ _ hs h => (bankAudit_of_step h).toAddrs.trans hs) bankTxs
      (show (BrokerBank.instantiate bankMsg).toAddrs = bankMsg.toAddrs from rfl)
  · exact stakingAudit_of_step (exec_of_mem_trace hc)
  · exact run_invariant (fun s => s.toAddrs = stakingMsg.toAddrs)
      (fun _ _ _ _ hs h => (stakingAudit_of_step h).toAddrs.trans hs) stakingTxs
      (show (instantiate stakingMsg).toAddrs = stakingMsg.toAddrs from rfl)

end NibiruWasm.BrokerStaking
