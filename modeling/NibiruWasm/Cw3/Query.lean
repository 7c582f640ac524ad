/-
What the two multisigs' queries share (`contract.rs`, `query`).

Both answer a proposal as a `ProposalResponse`, with its status at the
block (`map_proposal`); both list the proposals a page at a time, up by
id after `start_after` (`list_proposals`) or down before `start_before`
(`reverse_proposals`), and the ballots of a proposal a page at a time,
by voter (`list_votes`). Each contract clamps the page size with its own
`DEFAULT_LIMIT` and `MAX_LIMIT` and passes it here.

Storage orders the proposals by id, and a proposal's ballots by the raw
bytes of the voter's address. `Threshold::to_response` is a parameter
(`toResponse`), as `Threshold` is. The JSON encoding of an answer is
left out: a query returns its response.

`walk_listProposals`, `walk_reverseProposals` and `walk_listVotes`: a
client that asks again after the last item of each page reads every
stored proposal, or ballot, exactly once, in order. Where the stored ids
are `1` to the count, as the lifecycle keeps them (`IdsExact`), those
are the ids the client reads (`IdsExact.keys_rangeAsc`).
-/
import NibiruWasm.Cw3.Lifecycle
import NibiruWasm.Chain.Page

namespace NibiruWasm.Cw3

open Cosmwasm Chain

/-- `ProposalResponse`, over the type of `ThresholdResponse`. -/
structure ProposalResponse (Exp Thr Dep ThrResp : Type) where
  id : ℕ
  title : String
  description : String
  msgs : List CosmosMsg
  status : Status
  expires : Exp
  deposit : Option Dep
  proposer : String
  threshold : ThrResp

/-- `VoteInfo`. -/
structure VoteInfo where
  proposalId : ℕ
  voter : String
  vote : Vote
  weight : ℕ
  deriving DecidableEq, Repr

variable {Exp Dur Thr Dep ThrResp : Type} (L : Cw3Lib Exp Dur Thr Dep)
  (toResponse : Thr → ℕ → ThrResp)

/-- `map_proposal`: a stored proposal as the queries show it, with its
status at `block`. -/
def mapProposal (block : BlockInfo) (item : ℕ × Proposal Exp Thr Dep) :
    ProposalResponse Exp Thr Dep ThrResp :=
  { id := item.1
    title := item.2.title
    description := item.2.description
    msgs := item.2.msgs
    status := L.currentStatus item.2 block
    expires := item.2.expires
    deposit := item.2.deposit
    proposer := item.2.proposer
    threshold := toResponse item.2.threshold item.2.totalWeight }

/-- The body of `list_proposals`: `limit` proposals after `start_after`,
up by id. -/
def listProposals (block : BlockInfo) (proposals : Store ℕ (Proposal Exp Thr Dep))
    (startAfter : Option ℕ) (limit : ℕ) : List (ProposalResponse Exp Thr Dep ThrResp) :=
  ((Store.range id (startAfter.map .exclusive) none .ascending proposals).take limit).map
    (mapProposal L toResponse block)

/-- The body of `reverse_proposals`: `limit` proposals before
`start_before`, down by id. -/
def reverseProposals (block : BlockInfo) (proposals : Store ℕ (Proposal Exp Thr Dep))
    (startBefore : Option ℕ) (limit : ℕ) : List (ProposalResponse Exp Thr Dep ThrResp) :=
  ((Store.range id none (startBefore.map .exclusive) .descending proposals).take limit).map
    (mapProposal L toResponse block)

/-- A ballot of a proposal as the queries show it. -/
def voteInfo (proposalId : ℕ) (item : String × Ballot) : VoteInfo :=
  ⟨proposalId, item.1, item.2.vote, item.2.weight⟩

/-- The body of `list_votes`: `limit` ballots of a proposal, by voter,
after the voter whose raw bytes are `start`. -/
def listVotes (ballots : Store (ℕ × String) Ballot) (proposalId : ℕ) (start : Option (List ℕ))
    (limit : ℕ) : List VoteInfo :=
  ((Store.range rawKey (start.map .exclusive) none .ascending (ballots.under proposalId)).take
    limit).map (voteInfo proposalId)

-- ========================================================== paging

section paging

variable {block : BlockInfo} {proposals : Store ℕ (Proposal Exp Thr Dep)} {n : ℕ}

/-- Paging up through `list_proposals`, each time after the id of the
last proposal received, reads every stored proposal exactly once, by
ascending id. -/
theorem walk_listProposals (hn : 0 < n) {fuel : ℕ}
    (hfuel : (Store.rangeAsc id none none proposals).length < fuel) :
    walk (fun start => listProposals L toResponse block proposals start n) (·.id) fuel none
      = (Store.rangeAsc id none none proposals).map (mapProposal L toResponse block) :=
  Store.walk_rangeAsc (mapProposal L toResponse block) Function.injective_id (fun _ => rfl) hn
    proposals fuel none hfuel

/-- Paging down through `reverse_proposals`, each time before the id of
the last proposal received, reads every stored proposal exactly once, by
descending id. -/
theorem walk_reverseProposals (hn : 0 < n) {fuel : ℕ}
    (hfuel : (Store.rangeAsc id none none proposals).length < fuel) :
    walk (fun start => reverseProposals L toResponse block proposals start n) (·.id) fuel none
      = (Store.rangeAsc id none none proposals).reverse.map (mapProposal L toResponse block) :=
  Store.walk_rangeDesc (mapProposal L toResponse block) Function.injective_id (fun _ => rfl) hn
    proposals fuel none hfuel

/-- Paging through `list_votes` of a proposal, each time after the raw
bytes of the last voter received, reads every ballot of that proposal
exactly once, by the voters' raw bytes. -/
theorem walk_listVotes (ballots : Store (ℕ × String) Ballot) (proposalId : ℕ) (hn : 0 < n)
    {fuel : ℕ} (hfuel : (Store.rangeAsc rawKey none none (ballots.under proposalId)).length < fuel) :
    walk (fun start => listVotes ballots proposalId start n) (rawKey ·.voter) fuel none
      = (Store.rangeAsc rawKey none none (ballots.under proposalId)).map (voteInfo proposalId) :=
  Store.walk_rangeAsc (voteInfo proposalId) rawKey_injective (fun _ => rfl) hn
    (ballots.under proposalId) fuel none hfuel

end paging

/-- Where the stored ids are exactly `1` to the count, the scan of all
proposals comes up through them in order. -/
theorem IdsExact.keys_rangeAsc {c : ℕ × Store ℕ (Proposal Exp Thr Dep)} (hc : IdsExact c) :
    (Store.rangeAsc id none none c.2).map (·.1) = List.range' 1 c.1 := by
  refine Store.keys_rangeAsc Function.injective_id List.pairwise_lt_range' fun k => ?_
  rw [List.mem_range'_1, hc k, Bound.lowerAdmits_none, Bound.upperAdmits_none]
  constructor
  · rintro ⟨h1, h2⟩
    exact ⟨⟨h1, by omega⟩, rfl, rfl⟩
  · rintro ⟨⟨h1, h2⟩, -, -⟩
    omega

/-- Where the stored ids are exactly `1` to `count`, paging up through
`list_proposals` from the start reads the ids `1` to `count` in order,
paging down through `reverse_proposals` reads them backwards, and each
answer is the stored proposal under its id. -/
theorem paged_by_id {block : BlockInfo} {count : ℕ} {props : Store ℕ (Proposal Exp Thr Dep)}
    (hc : IdsExact (count, props)) {n : ℕ} (hn : 0 < n) :
    (walk (fun start => listProposals L toResponse block props start n) (·.id) (count + 1)
        none).map (·.id) = List.range' 1 count
      ∧ (walk (fun start => reverseProposals L toResponse block props start n) (·.id) (count + 1)
        none).map (·.id) = (List.range' 1 count).reverse
      ∧ ∀ r ∈ walk (fun start => listProposals L toResponse block props start n) (·.id)
          (count + 1) none,
        ∃ pr, props.lookup r.id = some pr ∧ r = mapProposal L toResponse block (r.id, pr) := by
  have hkeys : (Store.rangeAsc id none none props).map (·.1) = List.range' 1 count :=
    hc.keys_rangeAsc
  have hlen : (Store.rangeAsc id none none props).length < count + 1 := by
    have := congrArg List.length hkeys
    rw [List.length_map, List.length_range'] at this
    omega
  -- an answer carries the id of the proposal it shows
  have hid : (fun r : ProposalResponse Exp Thr Dep ThrResp => r.id) ∘ mapProposal L toResponse block
      = fun e => e.1 := rfl
  rw [walk_listProposals L toResponse hn hlen, walk_reverseProposals L toResponse hn hlen]
  refine ⟨?_, ?_, ?_⟩
  · rw [List.map_map, hid]
    exact hkeys
  · rw [List.map_map, hid, List.map_reverse, hkeys]
  · intro r hr
    obtain ⟨⟨k, pr⟩, he, rfl⟩ := List.mem_map.mp hr
    exact ⟨pr, ((Store.mem_rangeAsc id).mp he).1, rfl⟩

end NibiruWasm.Cw3
