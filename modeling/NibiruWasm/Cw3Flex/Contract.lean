/-
core-cw3-flex-msig: a multisig whose voters are the members of a cw4
group contract (`state.rs`, `contract.rs`). It keeps its proposals and
ballots in the fixed multisig's maps and takes its ids from the same
`next_id`.

Two changes to upstream cw3 shape the proofs:

- a voter may vote again: the previous ballot's weight is taken off its
  option's tally (`subtract_vote`, saturating) before the new one is
  added;
- a vote reopens a passed or rejected proposal that has not expired:
  the status is set to `Open` and recomputed.

A proposal may carry a deposit, taken at `Propose`, returned at
`Execute`, and at `Close` when the deposit says failed proposals are
refunded. Membership answers come from the group contract through the
transaction's querier. Every handler fails as a whole; a response is its
messages.
-/
import NibiruWasm.Cw3Fixed.Contract

namespace NibiruWasm.Cw3Flex

open Cosmwasm Chain Cw3

/-- `ContractError`; an external error keeps the text it displays. -/
inductive ContractError
  | std (e : StdError)
  | threshold (e : String)
  | invalidGroup (addr : String)
  | unauthorized
  | notOpen
  | expired
  | notExpired
  | wrongExpiration
  | alreadyVoted
  | wrongExecuteStatus
  | wrongCloseStatus
  | payment (e : String)
  | deposit (e : String)
  deriving DecidableEq, Repr

/-- `Executor`: who may execute a passed proposal. -/
inductive Executor
  | member
  | only (addr : String)
  deriving DecidableEq, Repr

variable {Exp Dur Thr Dep : Type}

/-- `Config`; the group contract is its address. -/
structure Config (Dur Thr Dep : Type) where
  threshold : Thr
  maxVotingPeriod : Dur
  groupAddr : String
  executor : Option Executor
  proposalDeposit : Option Dep

/-- Contract storage after `instantiate`: `CONFIG`, and the fixed
multisig's `PROPOSAL_COUNT`, `BALLOTS` and `PROPOSALS`. -/
structure State (Exp Dur Thr Dep : Type) where
  config : Config Dur Thr Dep
  proposalCount : ℕ
  ballots : Store (ℕ × String) Ballot
  proposals : Store ℕ (Proposal Exp Thr Dep)

/-- `InstantiateMsg`, over the type of the unchecked deposit. -/
structure InstantiateMsg (Dur Thr UDep : Type) where
  groupAddr : String
  threshold : Thr
  maxVotingPeriod : Dur
  executor : Option Executor
  proposalDeposit : Option UDep

/-- `ExecuteMsg`. The hook's member diffs are read by nothing and left
out. -/
inductive ExecuteMsg (Exp : Type)
  | propose (title description : String) (msgs : List CosmosMsg) (latest : Option Exp)
  | vote (proposalId : ℕ) (vote : Vote)
  | execute (proposalId : ℕ)
  | close (proposalId : ℕ)
  | memberChangedHook

variable (L : Cw3Lib Exp Dur Thr Dep)

/-- `proposal_deposit.map(into_checked).transpose()`: the deposit, if
any, checked. -/
def checkDeposit {UDep : Type} (intoChecked : UDep → Except String Dep) :
    Option UDep → Except ContractError (Option Dep)
  | some deposit => (some <$> intoChecked deposit).mapError .deposit
  | none => .ok none

/-- `instantiate`, with `deps.api.addr_validate` as `addrValidate` and
`UncheckedDepositInfo::into_checked` as `intoChecked`. -/
def instantiate {UDep : Type} (addrValidate : String → Except StdError Unit)
    (intoChecked : UDep → Except String Dep) (querier : Cw4Querier)
    (msg : InstantiateMsg Dur Thr UDep) : Except ContractError (State Exp Dur Thr Dep) := do
  (addrValidate msg.groupAddr).mapError fun _ => .invalidGroup msg.groupAddr
  let totalWeight := querier.totalWeight
  (L.validateThreshold msg.threshold totalWeight).mapError .threshold
  let proposalDeposit ← checkDeposit intoChecked msg.proposalDeposit
  pure ⟨⟨msg.threshold, msg.maxVotingPeriod, msg.groupAddr, msg.executor,
    proposalDeposit⟩, 0, ∅, ∅⟩

/-- `Config::authorize`: no executor means anyone. -/
def Config.authorize (cfg : Config Dur Thr Dep) (querier : Cw4Querier) (sender : String) :
    Except ContractError Unit :=
  match cfg.executor with
  | none => .ok ()
  | some .member =>
      match querier.isMember sender none with
      | some _ => .ok ()
      | none => .error .unauthorized
  | some (.only addr) => if addr ≠ sender then .error .unauthorized else .ok ()

/-- `subtract_vote`: take `weight` off the tally of `vote`, stopping at
zero. -/
def subtractVote (votes : Votes) (vote : Vote) (weight : ℕ) : Votes :=
  match vote with
  | .yes => { votes with yes := votes.yes - weight }
  | .no => { votes with no := votes.no - weight }
  | .abstain => { votes with abstain := votes.abstain - weight }
  | .veto => { votes with veto := votes.veto - weight }

/-- `deposit.check_native_deposit_paid(&info)?`, when a deposit is
configured. -/
def checkProposalDeposit (cfg : Config Dur Thr Dep) (info : MessageInfo) :
    Except ContractError Unit :=
  match cfg.proposalDeposit with
  | some deposit => (L.checkNativeDepositPaid deposit info).mapError .payment
  | none => .ok ()

/-- The cw20 messages that take the deposit, when one is configured. -/
def takeDepositMessages (cfg : Config Dur Thr Dep) (sender contract : String) :
    Except ContractError (List CosmosMsg) :=
  match cfg.proposalDeposit with
  | some depositInfo => (L.getTakeDepositMessages depositInfo sender contract).mapError .std
  | none => .ok []

/-- `is_member(..)?.ok_or(Unauthorized)`, and its voting twin: a weight,
or `Unauthorized`. -/
def weightOrUnauthorized (weight : Option ℕ) : Except ContractError ℕ :=
  match weight with
  | some power => .ok power
  | none => .error .unauthorized

/-- The deposit back to the proposer: always after an execution, after a
close only when failed proposals are refunded. -/
def refundMessages (deposit : Option Dep) (proposer : String) (always : Bool) :
    Except ContractError (List CosmosMsg) :=
  match deposit with
  | some deposit =>
      if always || L.refundFailedProposals deposit then do
        let msg ← (L.getReturnDepositMessage deposit proposer).mapError .std
        pure [msg]
      else .ok []
  | none => .ok []

/-- The tally before a vote is added: a previous ballot's weight is
taken off its option. -/
def priorVotes (votes : Votes) (previousBallot : Option Ballot) : Votes :=
  match previousBallot with
  | some ballot => subtractVote votes ballot.vote ballot.weight
  | none => votes

variable (s : State Exp Dur Thr Dep) (env : Env) (info : MessageInfo)
  (querier : Cw4Querier)

/-- `exec_propose`: a member of the group, of any weight, proposes and
casts the first yes vote with its current weight. -/
def execPropose (title description : String) (msgs : List CosmosMsg)
    (latest : Option Exp) : Except ContractError (State Exp Dur Thr Dep × List CosmosMsg) := do
  let cfg := s.config
  checkProposalDeposit L cfg info
  let votePower ← weightOrUnauthorized (querier.isMember info.sender none)
  let expires ← Cw3Fixed.capExpires L cfg.maxVotingPeriod env.block latest .wrongExpiration
  let takeDepositMsg ← takeDepositMessages L cfg info.sender env.contractAddress
  let prop : Proposal Exp Thr Dep :=
    { title, description, startHeight := env.block.height, expires, msgs,
      status := .open, votes := L.votesYes votePower, threshold := cfg.threshold,
      totalWeight := querier.totalWeight, proposer := info.sender,
      deposit := cfg.proposalDeposit }
  let prop := prop.updateStatus L env.block
  let id ← (Cw3Fixed.nextId s.proposalCount).mapError .std
  pure ({ s with
          proposalCount := id
          proposals := s.proposals.insert id prop
          ballots := s.ballots.insert (id, info.sender) ⟨votePower, .yes⟩ },
    takeDepositMsg)

/-- `exec_vote`: a voting member at the proposal's start height votes,
or votes again, on a proposal that is open, passed or rejected and not
expired; the proposal is reopened and its status recomputed. -/
def execVote (proposalId : ℕ) (vote : Vote) :
    Except ContractError (State Exp Dur Thr Dep × List CosmosMsg) := do
  let prop ← (Cw3Fixed.loadProposal s.proposals proposalId).mapError .std
  if prop.status ∉ [Status.open, .passed, .rejected] then throw .notOpen
  if L.isExpired prop.expires env.block then throw .expired
  let votePower ← weightOrUnauthorized (querier.isVotingMember info.sender prop.startHeight)
  let votes := priorVotes prop.votes (s.ballots.lookup (proposalId, info.sender))
  let ballots := s.ballots.insert (proposalId, info.sender) ⟨votePower, vote⟩
  let prop := { prop with votes := L.addVote votes vote votePower, status := .open }
  let prop := prop.updateStatus L env.block
  pure ({ s with ballots, proposals := s.proposals.insert proposalId prop }, [])

/-- `exec_execute`: an authorized executor executes a passed proposal;
the deposit, if any, goes back to the proposer. -/
def execExecute (proposalId : ℕ) :
    Except ContractError (State Exp Dur Thr Dep × List CosmosMsg) := do
  let prop ← (Cw3Fixed.loadProposal s.proposals proposalId).mapError .std
  let prop := prop.updateStatus L env.block
  if prop.status ≠ .passed then throw .wrongExecuteStatus
  s.config.authorize querier info.sender
  let prop := { prop with status := .executed }
  let refund ← refundMessages L prop.deposit prop.proposer true
  pure ({ s with proposals := s.proposals.insert proposalId prop }, refund ++ prop.msgs)

/-- `exec_close`: anyone closes an open proposal that expired without
passing; the deposit goes back when failed proposals are refunded. -/
def execClose (proposalId : ℕ) :
    Except ContractError (State Exp Dur Thr Dep × List CosmosMsg) := do
  let prop ← (Cw3Fixed.loadProposal s.proposals proposalId).mapError .std
  if prop.status ∈ [Status.executed, .rejected, .passed] then throw .wrongCloseStatus
  if L.currentStatus prop env.block = .passed then throw .wrongCloseStatus
  if !L.isExpired prop.expires env.block then throw .notExpired
  let prop := { prop with status := .rejected }
  let refund ← refundMessages L prop.deposit prop.proposer false
  pure ({ s with proposals := s.proposals.insert proposalId prop }, refund)

/-- `exec_membership_hook`: a no-op, for the group contract only. -/
def execMembershipHook : Except ContractError (State Exp Dur Thr Dep × List CosmosMsg) :=
  if info.sender ≠ s.config.groupAddr then .error .unauthorized else .ok (s, [])

/-- `execute`. -/
def execute : ExecuteMsg Exp → Except ContractError (State Exp Dur Thr Dep × List CosmosMsg)
  | .propose title description msgs latest =>
      execPropose L s env info querier title description msgs latest
  | .vote proposalId vote => execVote L s env info querier proposalId vote
  | .execute proposalId => execExecute L s env info querier proposalId
  | .close proposalId => execClose L s env proposalId
  | .memberChangedHook => execMembershipHook s info

/-- One transaction: its environment, its sender and funds, its message,
and what the group contract answers meanwhile. -/
structure Tx (Exp : Type) where
  env : Env
  info : MessageInfo
  msg : ExecuteMsg Exp
  querier : Cw4Querier

/-- A transaction as the chain runs it. -/
def step (s : State Exp Dur Thr Dep) (tx : Tx Exp) :
    Except ContractError (State Exp Dur Thr Dep × List CosmosMsg) :=
  execute L s tx.env tx.info tx.querier tx.msg

end NibiruWasm.Cw3Flex
