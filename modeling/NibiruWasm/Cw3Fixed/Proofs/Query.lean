/-
Paging through the fixed multisig's lists.

From any state, a client that pages through `ListProposals`,
`ReverseProposals`, `ListVotes` or `ListVoters`, each time after the
last item it received, with any limit but `Some(0)`, reads every stored
item exactly once and in key order (`lists_page_through`): a page and
the page after its last key never overlap and never skip, because the
scans are strictly sorted and the bounds exclusive (`Chain.Page`).

Over a run from `instantiate` the stored proposal ids are exactly `1`
to `PROPOSAL_COUNT` (`reachable_idsExact`), so the proposals the client
reads are those ids in order.
-/
import NibiruWasm.Cw3Fixed.Query
import NibiruWasm.Cw3Fixed.Proofs.Lifecycle
import NibiruWasm.Cw3.Utils

namespace NibiruWasm.Cw3Fixed

open Cosmwasm Chain Cw3 CwUtils

variable {Exp Dur Thr ThrResp : Type} (L : Cw3Lib Exp Dur Thr Empty)
  (toResponse : Thr → ℕ → ThrResp)

/-- A page holds at least one item unless the client asks for none. -/
theorem pageLimit_pos_of_ne {limit : Option ℕ} (hlimit : limit ≠ some 0) :
    0 < pageLimit defaultLimit maxLimit limit :=
  pageLimit_pos (by decide) (by decide) hlimit

/-- From any state, paging through any of the four lists, each time
after the last item received, reads every stored item exactly once: the
proposals up by id and down by id, a proposal's ballots and the voters
by the raw bytes of their addresses. -/
theorem lists_page_through (s : State Exp Dur Thr) (env : Env) {limit : Option ℕ}
    (hlimit : limit ≠ some 0) :
    (∀ fuel, s.proposals.entries.length < fuel →
      walk (fun start => listProposals L toResponse s env start limit) (·.id) fuel none
        = (Store.rangeAsc id none none s.proposals).map (mapProposal L toResponse env.block))
    ∧ (∀ fuel, s.proposals.entries.length < fuel →
      walk (fun start => reverseProposals L toResponse s env start limit) (·.id) fuel none
        = (Store.rangeAsc id none none s.proposals).reverse.map
            (mapProposal L toResponse env.block))
    ∧ (∀ proposalId fuel, s.ballots.entries.length < fuel →
      walk (fun start => listVotes s proposalId start limit) (·.voter) fuel none
        = (Store.rangeAsc rawKey none none (s.ballots.under proposalId)).map
            (voteInfo proposalId))
    ∧ (∀ fuel, s.voters.entries.length < fuel →
      walk (fun start => listVoters s start limit) (·.addr) fuel none
        = (Store.rangeAsc rawKey none none s.voters).map fun e => ⟨e.1, e.2⟩) := by
  have hn := pageLimit_pos_of_ne hlimit
  refine ⟨fun fuel hfuel => ?_, fun fuel hfuel => ?_, fun proposalId fuel hfuel => ?_,
    fun fuel hfuel => ?_⟩
  · exact Cw3.walk_listProposals L toResponse hn
      (lt_of_le_of_lt (Store.length_rangeAsc_le id none none s.proposals) hfuel)
  · exact Cw3.walk_reverseProposals L toResponse hn
      (lt_of_le_of_lt (Store.length_rangeAsc_le id none none s.proposals) hfuel)
  · -- the client passes voters; the scan compares their raw bytes
    have hbound : (Store.rangeAsc rawKey none none (s.ballots.under proposalId)).length < fuel :=
      lt_of_le_of_lt (Store.length_rangeAsc_le rawKey none none _)
        (lt_of_le_of_lt (Store.length_under_le proposalId s.ballots) hfuel)
    refine (walk_comap (fun raw => Cw3.listVotes s.ballots proposalId raw
      (pageLimit defaultLimit maxLimit limit)) (·.voter) rawKey fuel none).trans ?_
    exact Cw3.walk_listVotes s.ballots proposalId hn hbound
  · have hbound : (Store.rangeAsc rawKey none none s.voters).length < fuel :=
      lt_of_le_of_lt (Store.length_rangeAsc_le rawKey none none s.voters) hfuel
    refine (walk_comap (fun raw => ((Store.range rawKey (raw.map .exclusive) none .ascending
      s.voters).take (pageLimit defaultLimit maxLimit limit)).map
        fun e => (⟨e.1, e.2⟩ : VoterDetail)) (·.addr) rawKey fuel none).trans ?_
    exact Store.walk_rangeAsc (fun e : String × ℕ => (⟨e.1, e.2⟩ : VoterDetail)) rawKey_injective
      (fun _ => rfl) hn s.voters fuel none hbound

/-- A fixed multisig of two voters, alice and bob, passing at weight 2,
with a proposal of alice's that both voted on. -/
def twoVoters : State Expiration Duration ℕ :=
  (run (step (Cw3Lib.absoluteCount Empty))
    ⟨⟨2, 2, .height 10⟩, 0, ∅, ∅, ((∅ : Store String ℕ).insert "alice" 1).insert "bob" 1⟩
    [⟨⟨⟨1, 1⟩, "fixed"⟩, ⟨"alice", []⟩, .propose "p" "d" [] none⟩,
     ⟨⟨⟨1, 1⟩, "fixed"⟩, ⟨"bob", []⟩, .vote 1 .yes⟩]).1

theorem lists_page_through_twoVoters :
    (none : Option ℕ) ≠ some 0
      ∧ (∀ fuel, twoVoters.proposals.entries.length < fuel →
        walk (fun start => listProposals (Cw3Lib.absoluteCount Empty) Prod.mk twoVoters
            ⟨⟨2, 2⟩, "fixed"⟩ start none) (·.id) fuel none
          = (Store.rangeAsc id none none twoVoters.proposals).map
              (mapProposal (Cw3Lib.absoluteCount Empty) Prod.mk ⟨2, 2⟩))
      ∧ (∀ fuel, twoVoters.proposals.entries.length < fuel →
        walk (fun start => reverseProposals (Cw3Lib.absoluteCount Empty) Prod.mk twoVoters
            ⟨⟨2, 2⟩, "fixed"⟩ start none) (·.id) fuel none
          = (Store.rangeAsc id none none twoVoters.proposals).reverse.map
              (mapProposal (Cw3Lib.absoluteCount Empty) Prod.mk ⟨2, 2⟩))
      ∧ (∀ proposalId fuel, twoVoters.ballots.entries.length < fuel →
        walk (fun start => listVotes twoVoters proposalId start none) (·.voter) fuel none
          = (Store.rangeAsc rawKey none none (twoVoters.ballots.under proposalId)).map
              (voteInfo proposalId))
      ∧ (∀ fuel, twoVoters.voters.entries.length < fuel →
        walk (fun start => listVoters twoVoters start none) (·.addr) fuel none
          = (Store.rangeAsc rawKey none none twoVoters.voters).map fun e => ⟨e.1, e.2⟩) :=
  ⟨by decide, lists_page_through (Cw3Lib.absoluteCount Empty) Prod.mk twoVoters ⟨⟨2, 2⟩, "fixed"⟩
    (by decide)⟩

-- one vote a page: alice's ballot, then bob's, then an empty page
example : walk (fun start => listVotes twoVoters 1 start (some 1)) (·.voter) 3 none
    = [⟨1, "alice", .yes, 1⟩, ⟨1, "bob", .yes, 1⟩] := by decide

section reachable

variable {L} {addrValidate : String → Except StdError Unit} {msg : InstantiateMsg Dur Thr}
  {s0 : State Exp Dur Thr}

/-- Every state a run from `instantiate` reaches stores exactly the
proposal ids `1` to `PROPOSAL_COUNT`. -/
theorem reachable_idsExact (hinit : instantiate L addrValidate msg = .ok s0)
    (txs : List (Tx Exp)) : IdsExact (run (step L) s0 txs).1.lifecycle := by
  have h0 : IdsExact s0.lifecycle := by
    obtain ⟨hcount, -, hprops⟩ := instantiate_eq_ok hinit
    rw [State.lifecycle, hcount, hprops]
    exact idsExact_empty
  exact run_idsExact State.lifecycle (fun tx => tx.env.block) (fun tx => tx.msg.settled)
    (fun _ _ _ _ h => step_lifecycle h) txs h0

end reachable

end NibiruWasm.Cw3Fixed
