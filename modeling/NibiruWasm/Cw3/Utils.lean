/-
A `cw3` over the `cw_utils` types, to run the multisigs on.

`Cw3Lib.absoluteCount` takes `Expiration` and `Duration`, thresholds
that are an absolute yes weight (`Threshold::AbsoluteCount`) and
deposits that cost no messages. It meets every assumption of
`Cw3.Types` — `IsExpiredSpec` because `Expiration::is_expired` is
monotone along blocks — so the multisig theorems apply to it.
-/
import NibiruWasm.Cw3.Types
import NibiruWasm.CwUtils.Expiration

namespace NibiruWasm.Cw3

open Cosmwasm CwUtils

/-- `Votes::add_vote`. -/
def Votes.addVote (votes : Votes) : Vote → ℕ → Votes
  | .yes, w => { votes with yes := votes.yes + w }
  | .no, w => { votes with no := votes.no + w }
  | .abstain, w => { votes with abstain := votes.abstain + w }
  | .veto, w => { votes with veto := votes.veto + w }

/-- A cw3 with an absolute-count threshold. `Proposal::current_status`
first passes an open proposal whose yes weight reaches the count
(`is_passed`), then rejects an open one whose no weight is more than the
total weight less the count, so that it can no longer pass
(`is_rejected`), or that has expired. In cw3 `total_weight - weight` is
a `u64` subtraction, which panics when the total is below the count;
`Cw3Lib.currentStatus` returns a status, so here it stops at zero. -/
def Cw3Lib.absoluteCount (Dep : Type) : Cw3Lib Expiration Duration ℕ Dep where
  votesYes w := ⟨w, 0, 0, 0⟩
  addVote := Votes.addVote
  currentStatus p block :=
    if p.status = .open ∧ p.threshold ≤ p.votes.yes then .passed
    else if p.status = .open
        ∧ (p.totalWeight - p.threshold < p.votes.no ∨ p.expires.isExpired block = true) then
      .rejected
    else p.status
  isExpired := Expiration.isExpired
  after := Duration.after
  partialCmp := Expiration.partialCmp
  validateThreshold weight totalWeight :=
    if weight = 0 then .error "Required weight cannot be zero"
    else if totalWeight < weight then .error "Not possible to reach required (passing) weight"
    else .ok ()
  checkNativeDepositPaid _ _ := .ok ()
  getTakeDepositMessages _ _ _ := .ok []
  getReturnDepositMessage _ proposer := .ok (.bank (.send proposer []))
  refundFailedProposals _ := true

variable {Dep : Type}

theorem absoluteCount_votesYes : VotesYesSpec (Cw3Lib.absoluteCount Dep) := fun _ => rfl

theorem absoluteCount_addVote : AddVoteSpec (Cw3Lib.absoluteCount Dep) := by
  intro votes v w v'
  cases v <;> cases v' <;> simp [Cw3Lib.absoluteCount, Votes.addVote, Votes.tally]

theorem absoluteCount_currentStatus : CurrentStatusSpec (Cw3Lib.absoluteCount Dep) := by
  intro p block h
  simp [Cw3Lib.absoluteCount, h]

theorem absoluteCount_isExpired : IsExpiredSpec (Cw3Lib.absoluteCount Dep) :=
  fun e _ _ hb h => e.isExpired_mono hb h

end NibiruWasm.Cw3
