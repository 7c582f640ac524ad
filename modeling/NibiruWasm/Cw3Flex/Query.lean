/-
The flex multisig's queries (`contract.rs`, `query`).

They are the fixed multisig's, with three changes. The voters are the
group's members: `Voter`, `ListVoters` and the total weight of
`Threshold` are answers of the group contract, the transaction's
`Cw4Querier` and, for the member list, `listMembers`. `ListVotes`
validates `start_after` as an address first (`maybe_addr`) and bounds
the scan by its raw bytes. `Vote` answers with the address as given.
The JSON encoding is left out, and storage errors with it.
-/
import NibiruWasm.Cw3Flex.Contract
import NibiruWasm.Cw3.Query

namespace NibiruWasm.Cw3Flex

open Cosmwasm Chain Cw3

/-- `MAX_LIMIT`. -/
def maxLimit : ℕ := 30

/-- `DEFAULT_LIMIT`. -/
def defaultLimit : ℕ := 10

/-- `VoterDetail`. -/
structure VoterDetail where
  addr : String
  weight : ℕ
  deriving DecidableEq, Repr

/-- `QueryMsg`. -/
inductive QueryMsg
  | threshold
  | proposal (proposalId : ℕ)
  | listProposals (startAfter : Option ℕ) (limit : Option ℕ)
  | reverseProposals (startBefore : Option ℕ) (limit : Option ℕ)
  | vote (proposalId : ℕ) (voter : String)
  | listVotes (proposalId : ℕ) (startAfter : Option String) (limit : Option ℕ)
  | voter (address : String)
  | listVoters (startAfter : Option String) (limit : Option ℕ)
  | config
  deriving DecidableEq, Repr

/-- What `query` answers, one constructor per response type. -/
inductive QueryResponse (Exp Dur Thr Dep ThrResp : Type)
  | threshold (r : ThrResp)
  | proposal (r : ProposalResponse Exp Thr Dep ThrResp)
  | proposalList (proposals : List (ProposalResponse Exp Thr Dep ThrResp))
  | vote (vote : Option VoteInfo)
  | voteList (votes : List VoteInfo)
  | voter (weight : Option ℕ)
  | voterList (voters : List VoterDetail)
  | config (cfg : Config Dur Thr Dep)

/-- `cw_utils::maybe_addr`: validate an optional address. -/
def maybeAddr (addrValidate : String → Except StdError Unit) :
    Option String → Except StdError (Option String)
  | none => .ok none
  | some addr => do
      addrValidate addr
      pure (some addr)

variable {Exp Dur Thr Dep ThrResp : Type} (L : Cw3Lib Exp Dur Thr Dep)
  (toResponse : Thr → ℕ → ThrResp) (addrValidate : String → Except StdError Unit)
  (s : State Exp Dur Thr Dep) (env : Env) (querier : Cw4Querier)

/-- `query_threshold`: the threshold against the group's total weight. -/
def queryThreshold : ThrResp := toResponse s.config.threshold querier.totalWeight

/-- `query_config`. -/
def queryConfig : Config Dur Thr Dep := s.config

/-- `query_proposal`: a missing proposal is not found. -/
def queryProposal (id : ℕ) : Except StdError (ProposalResponse Exp Thr Dep ThrResp) := do
  let prop ← Cw3Fixed.loadProposal s.proposals id
  pure (mapProposal L toResponse env.block (id, prop))

/-- `list_proposals`. -/
def listProposals (startAfter limit : Option ℕ) : List (ProposalResponse Exp Thr Dep ThrResp) :=
  Cw3.listProposals L toResponse env.block s.proposals startAfter
    (pageLimit defaultLimit maxLimit limit)

/-- `reverse_proposals`. -/
def reverseProposals (startBefore limit : Option ℕ) :
    List (ProposalResponse Exp Thr Dep ThrResp) :=
  Cw3.reverseProposals L toResponse env.block s.proposals startBefore
    (pageLimit defaultLimit maxLimit limit)

/-- `query_vote`: the voter's ballot on the proposal, if any, under the
address as given. -/
def queryVote (proposalId : ℕ) (voter : String) : Except StdError (Option VoteInfo) := do
  addrValidate voter
  pure ((s.ballots.lookup (proposalId, voter)).map fun b => voteInfo proposalId (voter, b))

/-- `list_votes`: `start_after` must be an address. -/
def listVotes (proposalId : ℕ) (startAfter : Option String) (limit : Option ℕ) :
    Except StdError (List VoteInfo) := do
  let addr ← maybeAddr addrValidate startAfter
  pure (Cw3.listVotes s.ballots proposalId (addr.map rawKey) (pageLimit defaultLimit maxLimit limit))

/-- `query_voter`: the voter's weight in the group now, if it is a
member. -/
def queryVoter (voter : String) : Except StdError (Option ℕ) := do
  addrValidate voter
  pure (querier.isMember voter none)

/-- `list_voters`: the group's members, as `list_members` answers them. -/
def listVoters (listMembers : Option String → Option ℕ → Except StdError (List (String × ℕ)))
    (startAfter : Option String) (limit : Option ℕ) : Except StdError (List VoterDetail) := do
  let members ← listMembers startAfter limit
  pure (members.map fun m => ⟨m.1, m.2⟩)

/-- `query`. -/
def query (listMembers : Option String → Option ℕ → Except StdError (List (String × ℕ))) :
    QueryMsg → Except StdError (QueryResponse Exp Dur Thr Dep ThrResp)
  | .threshold => .ok (.threshold (queryThreshold toResponse s querier))
  | .proposal proposalId => .proposal <$> queryProposal L toResponse s env proposalId
  | .vote proposalId voter => .vote <$> queryVote addrValidate s proposalId voter
  | .listProposals startAfter limit =>
      .ok (.proposalList (listProposals L toResponse s env startAfter limit))
  | .reverseProposals startBefore limit =>
      .ok (.proposalList (reverseProposals L toResponse s env startBefore limit))
  | .listVotes proposalId startAfter limit =>
      .voteList <$> listVotes addrValidate s proposalId startAfter limit
  | .voter address => .voter <$> queryVoter addrValidate querier address
  | .listVoters startAfter limit => .voterList <$> listVoters listMembers startAfter limit
  | .config => .ok (.config (queryConfig s))

end NibiruWasm.Cw3Flex
