/-
What the two multisigs use of `cw3`, `cw4` and `cw_utils`.

These crates are not in the repository. Their data types are written
out as the contracts build and read them: the four tallies of `Votes`
that `subtract_vote` updates field by field, the fields of `Ballot` and
`Proposal`. What the contracts call on them is a field of `Cw3Lib`, and
each theorem assumes of those functions only what it needs, by name:

- `Votes::yes(w)` opens the tally with `w` yes votes (`VotesYesSpec`);
- `Votes::add_vote(v, w)` adds `w` to the tally of `v` (`AddVoteSpec`);
- `Proposal::current_status` only moves a proposal that is open
  (`CurrentStatusSpec`);
- `Expiration::is_expired` stays true at every later block
  (`IsExpiredSpec`).

The types `cw_utils` defines and the contracts only pass along
(`Expiration`, `Duration`, `Threshold`, cw3's `DepositInfo`) are type
parameters. The answers of the `cw4` group contract are the
transaction's `Cw4Querier`: the group is another contract, whose
membership changes on its own.
-/
import NibiruWasm.Cosmwasm.Std

namespace NibiruWasm.Cw3

open Cosmwasm

/-- `cw3::Vote`. -/
inductive Vote
  | yes | no | abstain | veto
  deriving DecidableEq, Repr

/-- `cw3::Status`. -/
inductive Status
  | pending | open | rejected | passed | executed
  deriving DecidableEq, Repr

/-- `cw3::Votes`: the weight behind each option. -/
structure Votes where
  yes : ℕ
  no : ℕ
  abstain : ℕ
  veto : ℕ
  deriving DecidableEq, Repr

/-- The tally of one option. -/
def Votes.tally (votes : Votes) : Vote → ℕ
  | .yes => votes.yes
  | .no => votes.no
  | .abstain => votes.abstain
  | .veto => votes.veto

/-- Two tallies agree when every option does. -/
theorem Votes.ext_tally {a b : Votes} (h : ∀ v, a.tally v = b.tally v) : a = b := by
  obtain ⟨y, n, ab, ve⟩ := a
  obtain ⟨y', n', ab', ve'⟩ := b
  have hy := h .yes
  have hn := h .no
  have ha := h .abstain
  have hv := h .veto
  simp only [Votes.tally] at hy hn ha hv
  rw [hy, hn, ha, hv]

/-- `cw3::Ballot`. -/
structure Ballot where
  weight : ℕ
  vote : Vote
  deriving DecidableEq, Repr

/-- `cw3::Proposal`, over the types of its expiration, its threshold and
its deposit. -/
structure Proposal (Exp Thr Dep : Type) where
  title : String
  description : String
  startHeight : ℕ
  expires : Exp
  msgs : List CosmosMsg
  status : Status
  votes : Votes
  threshold : Thr
  totalWeight : ℕ
  proposer : String
  deposit : Option Dep

/-- The functions of `cw3` and `cw_utils` the contracts call. External
errors are kept as the text they display. -/
structure Cw3Lib (Exp Dur Thr Dep : Type) where
  /-- `Votes::yes` -/
  votesYes : ℕ → Votes
  /-- `Votes::add_vote` -/
  addVote : Votes → Vote → ℕ → Votes
  /-- `Proposal::current_status` -/
  currentStatus : Proposal Exp Thr Dep → BlockInfo → Status
  /-- `Expiration::is_expired` -/
  isExpired : Exp → BlockInfo → Bool
  /-- `Duration::after` -/
  after : Dur → BlockInfo → Exp
  /-- `PartialOrd::partial_cmp` of expirations -/
  partialCmp : Exp → Exp → Option Ordering
  /-- `Threshold::validate` against the total weight -/
  validateThreshold : Thr → ℕ → Except String Unit
  /-- `DepositInfo::check_native_deposit_paid` -/
  checkNativeDepositPaid : Dep → MessageInfo → Except String Unit
  /-- `DepositInfo::get_take_deposit_messages` from a depositor to a contract -/
  getTakeDepositMessages : Dep → String → String → Except StdError (List CosmosMsg)
  /-- `DepositInfo::get_return_deposit_message` to a depositor -/
  getReturnDepositMessage : Dep → String → Except StdError CosmosMsg
  /-- `DepositInfo::refund_failed_proposals` -/
  refundFailedProposals : Dep → Bool

/-- `cw4` queries against the group contract, as answered during one
transaction. -/
structure Cw4Querier where
  /-- `Cw4Contract::is_member` at a height (`None`: now) -/
  isMember : String → Option ℕ → Option ℕ
  /-- `Cw4Contract::is_voting_member` at a height -/
  isVotingMember : String → ℕ → Option ℕ
  /-- `Cw4Contract::total_weight` -/
  totalWeight : ℕ

variable {Exp Dur Thr Dep : Type} (L : Cw3Lib Exp Dur Thr Dep)

/-- `Proposal::update_status`: store the current status. -/
def Proposal.updateStatus (p : Proposal Exp Thr Dep) (block : BlockInfo) :
    Proposal Exp Thr Dep :=
  { p with status := L.currentStatus p block }

-- =================================================== assumptions

/-- `Votes::yes(w)` has `w` yes votes and nothing else. -/
def VotesYesSpec : Prop :=
  ∀ w, L.votesYes w = ⟨w, 0, 0, 0⟩

/-- `Votes::add_vote(v, w)` adds `w` to the tally of `v` only. -/
def AddVoteSpec : Prop :=
  ∀ votes v w v', (L.addVote votes v w).tally v' = votes.tally v' + if v' = v then w else 0

/-- `current_status` leaves a proposal that is not open as it is. -/
def CurrentStatusSpec : Prop :=
  ∀ p block, p.status ≠ .open → L.currentStatus p block = p.status

/-- An expiration, once reached, stays reached. -/
def IsExpiredSpec : Prop :=
  ∀ e b b', b ≤ b' → L.isExpired e b = true → L.isExpired e b' = true

@[simp] theorem Proposal.updateStatus_status (p : Proposal Exp Thr Dep) (block : BlockInfo) :
    (p.updateStatus L block).status = L.currentStatus p block := rfl

@[simp] theorem Proposal.updateStatus_votes (p : Proposal Exp Thr Dep) (block : BlockInfo) :
    (p.updateStatus L block).votes = p.votes := rfl

@[simp] theorem Proposal.updateStatus_expires (p : Proposal Exp Thr Dep) (block : BlockInfo) :
    (p.updateStatus L block).expires = p.expires := rfl

@[simp] theorem Proposal.updateStatus_deposit (p : Proposal Exp Thr Dep) (block : BlockInfo) :
    (p.updateStatus L block).deposit = p.deposit := rfl

@[simp] theorem Proposal.updateStatus_proposer (p : Proposal Exp Thr Dep) (block : BlockInfo) :
    (p.updateStatus L block).proposer = p.proposer := rfl

theorem Proposal.updateStatus_status_of_ne_open (hL : CurrentStatusSpec L)
    {p : Proposal Exp Thr Dep} {block : BlockInfo} (h : p.status ≠ .open) :
    (p.updateStatus L block).status = p.status :=
  hL p block h

end NibiruWasm.Cw3
