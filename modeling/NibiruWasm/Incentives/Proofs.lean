/-
Two epochs the withdrawal loop gets wrong: one that pays out more than
it distributes, and one that stops every withdrawal.

`ProcessEpoch` fixes `total_locked` from the locks that qualify at the
height of processing, but `WithdrawRewards` counts the sender's
qualified locks again at the height of the withdrawal, with the same
`height + duration_blocks > unlocking_after` filter of the lockup query
(`Lockup.query_selects`). A lock too short to qualify when
the epoch is processed qualifies later, so its owner is paid a share of
an amount whose total did not count it.

The run below has two programs in the same reward denom, so that the
contract holds enough for both sends and the bank lets them through.

# An epoch nobody locked for

`ProcessEpoch` saves an epoch whatever its `total_locked`, zero
included, as when no lock qualifies yet. `WithdrawRewards` divides by
that total in `Decimal::from_ratio` before it looks at the coins, so it
panics there (`payEpochs_zero_total`). The sender's `WITHDRAWALS` entry
moves only when a withdrawal commits, so such an epoch stays the first
unpaid one, and every later withdrawal from the program panics too
(`executeWithdrawRewards_zero_total`, on the chain
`step_withdrawRewards_zero_total`).
-/
import NibiruWasm.Incentives.Handlers
import NibiruWasm.Incentives.System

namespace NibiruWasm.Incentives

open Cosmwasm Chain

/-- A block at height `h`. -/
def atBlock (h : ℕ) : BlockInfo := ⟨h, 0⟩

/-- alice and bob hold 100 unibi each, root 2000 ureward. -/
def rewardsBank : Bank := fun addr denom =>
  if (addr = "alice" ∨ addr = "bob") ∧ denom = "unibi" then 100
  else if addr = "root" ∧ denom = "ureward" then 2000
  else 0

/-- Two programs for unibi locks, of one epoch of 10 blocks from height 0
and a minimum lockup of 100 blocks, each funded with 1000 ureward; bob
locks for 200 blocks and alice for 50; epoch 1 of program 1 is processed
at height 12 and both withdraw their rewards at height 70. -/
def overpayTxs : List SysTx :=
  [⟨atBlock 0, "root", [], .incentives (.createProgram "unibi" 1 10 100)⟩,
   ⟨atBlock 0, "root", [], .incentives (.createProgram "unibi" 1 10 100)⟩,
   ⟨atBlock 1, "bob", [⟨"unibi", 100⟩], .lockup (.lock 200)⟩,
   ⟨atBlock 1, "alice", [⟨"unibi", 100⟩], .lockup (.lock 50)⟩,
   ⟨atBlock 2, "root", [⟨"ureward", 1000⟩], .incentives (.fundProgram 1)⟩,
   ⟨atBlock 2, "root", [⟨"ureward", 1000⟩], .incentives (.fundProgram 2)⟩,
   ⟨atBlock 12, "root", [], .incentives (.processEpoch 1)⟩,
   ⟨atBlock 70, "bob", [], .incentives (.withdrawRewards 1)⟩,
   ⟨atBlock 70, "alice", [], .incentives (.withdrawRewards 1)⟩]

/-- Every transaction of `overpayTxs` commits, at non-decreasing heights.
Epoch 1 of program 1, the only epoch processed, distributes 1000 ureward
over a total locked of 100, bob's lock alone: at height 12 alice's lock
does not reach the qualification block 110. At height 70 it does, and
bob and alice, each paid for that epoch only, receive 1000 ureward each. -/
theorem epoch_overpaid :
    List.IsChain (· ≤ ·) (overpayTxs.map (·.block.height))
      ∧ (run (step "lockup" "incentives") (genesis "lockup" rewardsBank) overpayTxs).2.map (·.2)
        = [[], [], [], [], [], [], [],
           [.bank (.send "bob" [⟨"ureward", 1000⟩])],
           [.bank (.send "alice" [⟨"ureward", 1000⟩])]]
      ∧ (run (step "lockup" "incentives") (genesis "lockup" rewardsBank)
          overpayTxs).1.incentives.epochInfo.lookup (1, 1)
        = some ⟨1, 10, 110, [⟨"ureward", 1000⟩], 100⟩
      ∧ (run (step "lockup" "incentives") (genesis "lockup" rewardsBank)
          overpayTxs).1.incentives.lastEpochProcessed.lookup 1 = some 1
      ∧ (run (step "lockup" "incentives") (genesis "lockup" rewardsBank)
          overpayTxs).1.incentives.withdrawals.lookup (1, "bob") = some 1
      ∧ (run (step "lockup" "incentives") (genesis "lockup" rewardsBank)
          overpayTxs).1.incentives.withdrawals.lookup (1, "alice") = some 1 :=
  ⟨by decide, by decide, by decide, by decide, by decide, by decide⟩

-- ================================================ an epoch nobody locked

section zeroTotal

variable {querier : LockupQuerier} {s : State}

/-- An epoch whose `total_locked` is zero stops the loop of
`WithdrawRewards` when it reaches it: once the sender's locks are
summed, `Decimal::from_ratio` panics on the zero total, whatever that
sum is. -/
theorem payEpochs_zero_total {program : Program} {sender : String} {lastPaidEpoch : ℕ}
    {toDistribute : List Coin} {epoch : EpochInfo} {rest : List EpochInfo}
    {locks : List Lockup.Lock} (htotal : epoch.totalLocked = 0)
    (hquery : querier s.lockupAddr (.locksByDenomAndAddressBetween program.lockupDenom sender
      epoch.forCoinsLockedBefore epoch.forCoinsUnlockingAfter) = .ok locks)
    (hsum : (locks.map (·.coin.amount)).sum ≤ Uint128.MAX) :
    payEpochs querier s program sender lastPaidEpoch toDistribute (epoch :: rest)
      = .error (.std (.panic "Denominator must not be zero")) := by
  have hsum' : sum (locks.map (·.coin.amount)) = .ok (locks.map (·.coin.amount)).sum :=
    sum_eq_ok.mpr ⟨hsum, rfl⟩
  simp only [payEpochs, hquery, mapError_ok, ok_bind, hsum', Decimal.fromRatio, htotal, if_true,
    mapError_error, error_bind]

/-- So a sender whose first unpaid epoch has a zero total can never
withdraw from the program: the withdrawal panics, and `WITHDRAWALS`,
which would move the sender past that epoch, is written only by a
withdrawal that commits. -/
theorem executeWithdrawRewards_zero_total {info : MessageInfo} {programId : ℕ}
    {program : Program} {epoch : EpochInfo} {rest : List EpochInfo} {locks : List Lockup.Lock}
    (hp : s.programs.lookup programId = some program)
    (hfirst : epochsToPay s programId info.sender = epoch :: rest)
    (htotal : epoch.totalLocked = 0)
    (hquery : querier s.lockupAddr (.locksByDenomAndAddressBetween program.lockupDenom
      info.sender epoch.forCoinsLockedBefore epoch.forCoinsUnlockingAfter) = .ok locks)
    (hsum : (locks.map (·.coin.amount)).sum ≤ Uint128.MAX) :
    executeWithdrawRewards querier s info programId
      = .error (.std (.panic "Denominator must not be zero")) := by
  have hload : loadProgram s.programs programId = .ok program := loadProgram_eq_ok.mpr hp
  simp only [executeWithdrawRewards, hload, ok_bind, hfirst, payEpochs_zero_total htotal hquery hsum,
    error_bind]

end zeroTotal

/-- On the chain: a withdrawal that sends no funds and whose first
unpaid epoch has a zero total fails, before the bank moves anything. -/
theorem step_withdrawRewards_zero_total {lockupAddr incentivesAddr sender : String}
    {sys : System} {block : BlockInfo} {programId : ℕ} {program : Program} {epoch : EpochInfo}
    {rest : List EpochInfo} {locks : List Lockup.Lock}
    (hp : sys.incentives.programs.lookup programId = some program)
    (hfirst : epochsToPay sys.incentives programId sender = epoch :: rest)
    (htotal : epoch.totalLocked = 0)
    (hquery : querier lockupAddr sys.lockup block sys.incentives.lockupAddr
      (.locksByDenomAndAddressBetween program.lockupDenom sender epoch.forCoinsLockedBefore
        epoch.forCoinsUnlockingAfter) = .ok locks)
    (hsum : (locks.map (·.coin.amount)).sum ≤ Uint128.MAX) :
    step lockupAddr incentivesAddr sys ⟨block, sender, [], .incentives (.withdrawRewards programId)⟩
      = .error (.incentives (.std (.panic "Denominator must not be zero"))) := by
  have hwithdraw : executeWithdrawRewards (querier lockupAddr sys.lockup block) sys.incentives
      ⟨sender, []⟩ programId = .error (.std (.panic "Denominator must not be zero")) :=
    executeWithdrawRewards_zero_total hp hfirst htotal hquery hsum
  simp only [step, Bank.transfer, orInsufficient, ok_bind, execute, hwithdraw, mapError_error,
    error_bind]

/-- A program of one epoch of 10 blocks from height 0 with a minimum
lockup of 100 blocks, whose epoch is processed at height 11, before
anyone has locked. -/
def zeroTotalTxs : List SysTx :=
  [⟨atBlock 0, "root", [], .incentives (.createProgram "unibi" 1 10 100)⟩,
   ⟨atBlock 11, "root", [], .incentives (.processEpoch 1)⟩]

/-- Both transactions of `zeroTotalTxs` commit, and epoch 1 of program 1
is saved with a `total_locked` of zero. After that, `WithdrawRewards`
for program 1 panics for every sender at every height. -/
theorem withdraw_zero_total_panics :
    List.IsChain (· ≤ ·) (zeroTotalTxs.map (·.block.height))
      ∧ (run (step "lockup" "incentives") (genesis "lockup" rewardsBank) zeroTotalTxs).2.map (·.2)
        = [[], []]
      ∧ (run (step "lockup" "incentives") (genesis "lockup" rewardsBank)
          zeroTotalTxs).1.incentives.epochInfo.lookup (1, 1) = some ⟨1, 10, 110, [], 0⟩
      ∧ ∀ sender height, step "lockup" "incentives"
          (run (step "lockup" "incentives") (genesis "lockup" rewardsBank) zeroTotalTxs).1
          ⟨atBlock height, sender, [], .incentives (.withdrawRewards 1)⟩
          = .error (.incentives (.std (.panic "Denominator must not be zero"))) := by
  refine ⟨by decide, by decide, by decide, fun sender height => ?_⟩
  have hlockup : (run (step "lockup" "incentives") (genesis "lockup" rewardsBank)
      zeroTotalTxs).1.lockup = Lockup.instantiate := rfl
  have hprogram : (run (step "lockup" "incentives") (genesis "lockup" rewardsBank)
      zeroTotalTxs).1.incentives.programs.lookup 1 = some ⟨1, 1, 10, 100, "unibi", 0, 10⟩ := by
    decide
  have hwithdrawals : (run (step "lockup" "incentives") (genesis "lockup" rewardsBank)
      zeroTotalTxs).1.incentives.withdrawals = ∅ := rfl
  -- no one has withdrawn, so every sender starts from the zero-total epoch
  have hepochs : epochsToPay (run (step "lockup" "incentives") (genesis "lockup" rewardsBank)
      zeroTotalTxs).1.incentives 1 sender = [⟨1, 10, 110, [], 0⟩] := by
    unfold epochsToPay
    rw [hwithdrawals, AList.lookup_empty]
    decide
  -- and the lockup contract, holding no lock, answers with none
  have hquery : querier "lockup" (run (step "lockup" "incentives") (genesis "lockup" rewardsBank)
      zeroTotalTxs).1.lockup (atBlock height) "lockup"
        (.locksByDenomAndAddressBetween "unibi" sender 10 110) = .ok [] := by
    rw [hlockup]
    rfl
  exact step_withdrawRewards_zero_total hprogram hepochs rfl hquery (by decide)

end NibiruWasm.Incentives
