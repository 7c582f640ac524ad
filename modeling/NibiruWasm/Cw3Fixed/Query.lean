/-
The fixed multisig's queries (`contract.rs`, `query`).

Each arm of `query` is its own function; an answer is its response
structure, without the JSON encoding. The lists are pages of at most
`MAX_LIMIT` items, `DEFAULT_LIMIT` when no limit is given, through the
scans of `Cw3.Query`: the proposals by id, a proposal's ballots and the
voters by the raw bytes of the address, after `start_after` as raw
bytes (`Bound::ExclusiveRaw`), which is not validated. `Vote` and
`Voter` validate the address first, with `deps.api.addr_validate` as
`addrValidate`. Storage errors are left out: the maps always decode.
-/
import NibiruWasm.Cw3Fixed.Contract
import NibiruWasm.Cw3.Query

namespace NibiruWasm.Cw3Fixed

open Cosmwasm Chain Cw3

/-- `MAX_LIMIT`. -/
def maxLimit : ℕ := 30

/-- `DEFAULT_LIMIT`. -/
def defaultLimit : ℕ := 10

/-- `VoterDetail`. -/
structure VoterDetail where
  addr : String
  weight : ℕ
  deriving DecidableEq, Repr

/-- `QueryMsg`. -/
inductive QueryMsg
  | threshold
  | proposal (proposalId : ℕ)
  | listProposals (startAfter : Option ℕ) (limit : Option ℕ)
  | reverseProposals (startBefore : Option ℕ) (limit : Option ℕ)
  | vote (proposalId : ℕ) (voter : String)
  | listVotes (proposalId : ℕ) (startAfter : Option String) (limit : Option ℕ)
  | voter (address : String)
  | listVoters (startAfter : Option String) (limit : Option ℕ)
  deriving DecidableEq, Repr

/-- What `query` answers, one constructor per response type. -/
inductive QueryResponse (Exp Thr ThrResp : Type)
  | threshold (r : ThrResp)
  | proposal (r : ProposalResponse Exp Thr Empty ThrResp)
  | proposalList (proposals : List (ProposalResponse Exp Thr Empty ThrResp))
  | vote (vote : Option VoteInfo)
  | voteList (votes : List VoteInfo)
  | voter (weight : Option ℕ)
  | voterList (voters : List VoterDetail)

variable {Exp Dur Thr ThrResp : Type} (L : Cw3Lib Exp Dur Thr Empty)
  (toResponse : Thr → ℕ → ThrResp) (addrValidate : String → Except StdError Unit)
  (s : State Exp Dur Thr) (env : Env)

/-- `query_threshold`. -/
def queryThreshold : ThrResp := toResponse s.config.threshold s.config.totalWeight

/-- `query_proposal`: a missing proposal is not found. -/
def queryProposal (id : ℕ) : Except StdError (ProposalResponse Exp Thr Empty ThrResp) := do
  let prop ← loadProposal s.proposals id
  pure (mapProposal L toResponse env.block (id, prop))

/-- `list_proposals`. -/
def listProposals (startAfter limit : Option ℕ) : List (ProposalResponse Exp Thr Empty ThrResp) :=
  Cw3.listProposals L toResponse env.block s.proposals startAfter
    (pageLimit defaultLimit maxLimit limit)

/-- `reverse_proposals`. -/
def reverseProposals (startBefore limit : Option ℕ) :
    List (ProposalResponse Exp Thr Empty ThrResp) :=
  Cw3.reverseProposals L toResponse env.block s.proposals startBefore
    (pageLimit defaultLimit maxLimit limit)

/-- `query_vote`: the voter's ballot on the proposal, if any. -/
def queryVote (proposalId : ℕ) (voter : String) : Except StdError (Option VoteInfo) := do
  addrValidate voter
  pure ((s.ballots.lookup (proposalId, voter)).map fun b => voteInfo proposalId (voter, b))

/-- `list_votes`. -/
def listVotes (proposalId : ℕ) (startAfter : Option String) (limit : Option ℕ) : List VoteInfo :=
  Cw3.listVotes s.ballots proposalId (startAfter.map rawKey) (pageLimit defaultLimit maxLimit limit)

/-- `query_voter`: the voter's weight, if it is one. -/
def queryVoter (voter : String) : Except StdError (Option ℕ) := do
  addrValidate voter
  pure (s.voters.lookup voter)

/-- `list_voters`. -/
def listVoters (startAfter : Option String) (limit : Option ℕ) : List VoterDetail :=
  ((Store.range rawKey ((startAfter.map rawKey).map .exclusive) none .ascending s.voters).take
    (pageLimit defaultLimit maxLimit limit)).map fun e => ⟨e.1, e.2⟩

/-- `query`. -/
def query : QueryMsg → Except StdError (QueryResponse Exp Thr ThrResp)
  | .threshold => .ok (.threshold (queryThreshold toResponse s))
  | .proposal proposalId => .proposal <$> queryProposal L toResponse s env proposalId
  | .vote proposalId voter => .vote <$> queryVote addrValidate s proposalId voter
  | .listProposals startAfter limit =>
      .ok (.proposalList (listProposals L toResponse s env startAfter limit))
  | .reverseProposals startBefore limit =>
      .ok (.proposalList (reverseProposals L toResponse s env startBefore limit))
  | .listVotes proposalId startAfter limit =>
      .ok (.voteList (listVotes s proposalId startAfter limit))
  | .voter address => .voter <$> queryVoter addrValidate s address
  | .listVoters startAfter limit => .ok (.voterList (listVoters s startAfter limit))

end NibiruWasm.Cw3Fixed
