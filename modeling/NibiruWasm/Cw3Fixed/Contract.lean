/-
core-cw3-fixed-msig: a multisig over a fixed list of weighted voters
(`state.rs`, `contract.rs`).

A proposal is saved under the next id of `PROPOSAL_COUNT`, with the
proposer's yes ballot. A voter votes once per proposal, while it is
open, passed or rejected and not expired. A passed proposal is executed
by anyone, once: it becomes `Executed`. An open proposal that has
expired without passing is closed: it becomes `Rejected`.

Every handler fails as a whole. Attributes are not modelled; a response
is its messages.
-/
import NibiruWasm.Cw3.Types
import NibiruWasm.Chain.Store

namespace NibiruWasm.Cw3Fixed

open Cosmwasm Chain Cw3

/-- `ContractError`; an external error keeps the text it displays. -/
inductive ContractError
  | std (e : StdError)
  | threshold (e : String)
  | zeroWeight
  | unreachableWeight
  | noVoters
  | unauthorized
  | notOpen
  | expired
  | notExpired
  | wrongExpiration
  | alreadyVoted
  | wrongExecuteStatus
  | wrongCloseStatus
  deriving DecidableEq, Repr

variable {Exp Dur Thr Dep : Type}

/-- `Config`. -/
structure Config (Dur Thr : Type) where
  threshold : Thr
  totalWeight : ℕ
  maxVotingPeriod : Dur

/-- Contract storage after `instantiate`: `CONFIG`, `PROPOSAL_COUNT`
(absent reads as zero), `BALLOTS`, `PROPOSALS` and `VOTERS`. The fixed
multisig takes no deposits, so a proposal's deposit type is empty. -/
structure State (Exp Dur Thr : Type) where
  config : Config Dur Thr
  proposalCount : ℕ
  ballots : Store (ℕ × String) Ballot
  proposals : Store ℕ (Proposal Exp Thr Empty)
  voters : Store String ℕ

/-- `Voter`. -/
structure Voter where
  addr : String
  weight : ℕ
  deriving DecidableEq, Repr

/-- `InstantiateMsg`. -/
structure InstantiateMsg (Dur Thr : Type) where
  voters : List Voter
  threshold : Thr
  maxVotingPeriod : Dur

/-- `ExecuteMsg`. -/
inductive ExecuteMsg (Exp : Type)
  | propose (title description : String) (msgs : List CosmosMsg) (latest : Option Exp)
  | vote (proposalId : ℕ) (vote : Vote)
  | execute (proposalId : ℕ)
  | close (proposalId : ℕ)

/-- `Iterator::sum` of `u64`s, built with overflow checks: the running
sums only grow, so it panics exactly when the total does not fit. -/
def sumU64 (l : List ℕ) : Except StdError ℕ :=
  if l.sum ≤ Uint64.MAX then .ok l.sum
  else .error (.panic "attempt to add with overflow")

/-- `next_id`: one past the stored count, saved as the new count. -/
def nextId (proposalCount : ℕ) : Except StdError ℕ :=
  addU64 proposalCount 1

/-- `PROPOSALS.load`. -/
def loadProposal {Dep : Type} (proposals : Store ℕ (Proposal Exp Thr Dep)) (proposalId : ℕ) :
    Except StdError (Proposal Exp Thr Dep) :=
  match proposals.lookup proposalId with
  | some prop => .ok prop
  | none => .error (.notFound "cw3::proposal::Proposal")

/-- The expiration both multisigs give a new proposal: `latest`, capped at
the maximal voting period after this block, which is also the default;
an expiration not comparable with that cap is refused with `err`. -/
def capExpires {Dep ε : Type} (L : Cw3Lib Exp Dur Thr Dep) (maxVotingPeriod : Dur)
    (block : BlockInfo) (latest : Option Exp) (err : ε) : Except ε Exp :=
  let maxExpires := L.after maxVotingPeriod block
  let expires := latest.getD maxExpires
  match L.partialCmp expires maxExpires with
  | some .gt => .ok maxExpires
  | none => .error err
  | some _ => .ok expires

/-- `VOTERS.may_load(..)?.ok_or(Unauthorized)`: the sender's weight, if
it is a voter. -/
def voterWeight (weight : Option ℕ) : Except ContractError ℕ :=
  match weight with
  | some power => .ok power
  | none => .error .unauthorized

/-- The voter check of `execute_vote`: a voter of weight at least one. -/
def votingWeight (weight : Option ℕ) : Except ContractError ℕ :=
  match weight with
  | some power => if power ≥ 1 then .ok power else .error .unauthorized
  | none => .error .unauthorized

variable (L : Cw3Lib Exp Dur Thr Empty)

/-- `instantiate`, with `deps.api.addr_validate` as `addrValidate`. -/
def instantiate (addrValidate : String → Except StdError Unit)
    (msg : InstantiateMsg Dur Thr) : Except ContractError (State Exp Dur Thr) := do
  if msg.voters.isEmpty then throw .noVoters
  let totalWeight ← (sumU64 (msg.voters.map fun v => v.weight)).mapError .std
  (L.validateThreshold msg.threshold totalWeight).mapError .threshold
  let cfg : Config Dur Thr := ⟨msg.threshold, totalWeight, msg.maxVotingPeriod⟩
  -- add all voters
  let voters ← msg.voters.foldlM (fun (voters : Store String ℕ) voter => do
      (addrValidate voter.addr).mapError .std
      pure (voters.insert voter.addr voter.weight)) ∅
  pure ⟨cfg, 0, ∅, ∅, voters⟩

variable (s : State Exp Dur Thr) (env : Env) (info : MessageInfo)

/-- `execute_propose`: only a voter may propose; the expiration is at
most the maximal voting period, which is also its default. -/
def executePropose (title description : String) (msgs : List CosmosMsg)
    (latest : Option Exp) : Except ContractError (State Exp Dur Thr × List CosmosMsg) := do
  let votePower ← voterWeight (s.voters.lookup info.sender)
  let cfg := s.config
  let expires ← capExpires L cfg.maxVotingPeriod env.block latest .wrongExpiration
  let prop : Proposal Exp Thr Empty :=
    { title, description, startHeight := env.block.height, expires, msgs,
      status := .open, votes := L.votesYes votePower, threshold := cfg.threshold,
      totalWeight := cfg.totalWeight, proposer := info.sender, deposit := none }
  let prop := prop.updateStatus L env.block
  let id ← (nextId s.proposalCount).mapError .std
  pure ({ s with
          proposalCount := id
          proposals := s.proposals.insert id prop
          ballots := s.ballots.insert (id, info.sender) ⟨votePower, .yes⟩ }, [])

/-- `execute_vote`: a voter of weight at least one votes once on a
proposal that is open, passed or rejected and not expired. -/
def executeVote (proposalId : ℕ) (vote : Vote) :
    Except ContractError (State Exp Dur Thr × List CosmosMsg) := do
  let votePower ← votingWeight (s.voters.lookup info.sender)
  let prop ← (loadProposal s.proposals proposalId).mapError .std
  if prop.status ∉ [Status.open, .passed, .rejected] then throw .notOpen
  if L.isExpired prop.expires env.block then throw .expired
  -- cast vote if no vote previously cast
  if (s.ballots.lookup (proposalId, info.sender)).isSome then throw .alreadyVoted
  let ballots := s.ballots.insert (proposalId, info.sender) ⟨votePower, vote⟩
  let prop := { prop with votes := L.addVote prop.votes vote votePower }
  let prop := prop.updateStatus L env.block
  pure ({ s with ballots, proposals := s.proposals.insert proposalId prop }, [])

/-- `execute_execute`: anyone executes a passed proposal, once. -/
def executeExecute (proposalId : ℕ) :
    Except ContractError (State Exp Dur Thr × List CosmosMsg) := do
  let prop ← (loadProposal s.proposals proposalId).mapError .std
  let prop := prop.updateStatus L env.block
  if prop.status ≠ .passed then throw .wrongExecuteStatus
  let prop := { prop with status := .executed }
  pure ({ s with proposals := s.proposals.insert proposalId prop }, prop.msgs)

/-- `execute_close`: anyone closes an open proposal that expired without
passing. -/
def executeClose (proposalId : ℕ) :
    Except ContractError (State Exp Dur Thr × List CosmosMsg) := do
  let prop ← (loadProposal s.proposals proposalId).mapError .std
  if prop.status ∈ [Status.executed, .rejected, .passed] then throw .wrongCloseStatus
  if L.currentStatus prop env.block = .passed then throw .wrongCloseStatus
  if !L.isExpired prop.expires env.block then throw .notExpired
  let prop := { prop with status := .rejected }
  pure ({ s with proposals := s.proposals.insert proposalId prop }, [])

/-- `execute`. -/
def execute : ExecuteMsg Exp → Except ContractError (State Exp Dur Thr × List CosmosMsg)
  | .propose title description msgs latest =>
      executePropose L s env info title description msgs latest
  | .vote proposalId vote => executeVote L s env info proposalId vote
  | .execute proposalId => executeExecute L s env proposalId
  | .close proposalId => executeClose L s env proposalId

/-- One transaction: its environment, its sender and funds, its message. -/
structure Tx (Exp : Type) where
  env : Env
  info : MessageInfo
  msg : ExecuteMsg Exp

/-- A transaction as the chain runs it. -/
def step (s : State Exp Dur Thr) (tx : Tx Exp) :
    Except ContractError (State Exp Dur Thr × List CosmosMsg) :=
  execute L s tx.env tx.info tx.msg

end NibiruWasm.Cw3Fixed
