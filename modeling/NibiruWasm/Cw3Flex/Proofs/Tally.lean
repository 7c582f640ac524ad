/-
The flex multisig's tallies are the sums of its ballots.

A voter may vote again on a proposal: `exec_vote` takes the previous
ballot's weight off its option with the saturating `subtract_vote`
before it adds the new one. What the tallies should be is `ballotVotes`:
for each option, the weight of the ballots cast for it on the proposal.

# The invariant

`TallyInv` says that every stored proposal's votes are exactly
`ballotVotes`, and that no ballot and no proposal has an id past the
count, so the fresh id of a `Propose` starts with the proposer's ballot
alone. Each handler keeps it (`TallyInv.propose`, `TallyInv.vote`,
`TallyInv.insert_proposal`), given that `Votes::yes` and
`Votes::add_vote` do what cw3 documents.

From the invariant a stored ballot's weight is at most its option's
tally (`TallyInv.ballot_le_tally`): the subtraction never saturates, and
`subtract_vote` removes exactly the previous ballot.
-/
import NibiruWasm.Cw3Flex.Proofs.Handlers
import NibiruWasm.Cw3.Utils
import NibiruWasm.Chain.Run

namespace NibiruWasm.Cw3Flex

open Cosmwasm Chain Cw3 CwUtils

variable {Exp Dur Thr Dep : Type}

-- ========================================================= ballots

/-- What ballot `b`, stored under `k`, adds to option `v` of proposal
`p`. -/
def ballotWeight (p : ℕ) (v : Vote) (k : ℕ × String) (b : Ballot) : ℕ :=
  if k.1 = p ∧ b.vote = v then b.weight else 0

/-- The weight of the ballots cast for option `v` on proposal `p`. -/
def ballotSum (ballots : Store (ℕ × String) Ballot) (p : ℕ) (v : Vote) : ℕ :=
  Store.sumBy (ballotWeight p v) ballots

/-- The tally the ballots of proposal `p` define. -/
def ballotVotes (ballots : Store (ℕ × String) Ballot) (p : ℕ) : Votes :=
  ⟨ballotSum ballots p .yes, ballotSum ballots p .no, ballotSum ballots p .abstain,
    ballotSum ballots p .veto⟩

@[simp] theorem ballotVotes_tally (ballots : Store (ℕ × String) Ballot) (p : ℕ) (v : Vote) :
    (ballotVotes ballots p).tally v = ballotSum ballots p v := by
  cases v <;> rfl

/-- A ballot on another proposal leaves the sum. -/
theorem ballotSum_insert_of_ne {ballots : Store (ℕ × String) Ballot} {p q : ℕ}
    (addr : String) (b : Ballot) (v : Vote) (hne : p ≠ q) :
    ballotSum (ballots.insert (p, addr) b) q v = ballotSum ballots q v :=
  Store.sumBy_insert_of_forall_eq_zero _ b fun _ => by simp [ballotWeight, hne]

/-- A ballot on the proposal replaces the voter's previous one in the
sum. -/
theorem ballotSum_insert_add (ballots : Store (ℕ × String) Ballot) (p : ℕ) (addr : String)
    (b : Ballot) (v : Vote) :
    ballotSum (ballots.insert (p, addr) b) p v + Store.part (ballotWeight p v) ballots (p, addr)
      = (if b.vote = v then b.weight else 0) + ballotSum ballots p v := by
  have h := Store.sumBy_insert_add (ballotWeight p v) ballots (p, addr) b
  simpa [ballotSum, ballotWeight] using h

/-- The voter's previous ballot is part of the sum. -/
theorem part_le_ballotSum (ballots : Store (ℕ × String) Ballot) (p : ℕ) (addr : String)
    (v : Vote) : Store.part (ballotWeight p v) ballots (p, addr) ≤ ballotSum ballots p v := by
  have h := Store.sumBy_erase_add (ballotWeight p v) ballots (p, addr)
  unfold ballotSum
  omega

-- ========================================================== tallies

theorem subtractVote_tally (votes : Votes) (w : Vote) (weight : ℕ) (v : Vote) :
    (subtractVote votes w weight).tally v = votes.tally v - if w = v then weight else 0 := by
  cases w <;> cases v <;> simp [subtractVote, Votes.tally]

/-- The tally before a vote is the stored one less the voter's previous
ballot. -/
theorem priorVotes_tally (votes : Votes) (ballots : Store (ℕ × String) Ballot) (p : ℕ)
    (addr : String) (v : Vote) :
    (priorVotes votes (ballots.lookup (p, addr))).tally v
      = votes.tally v - Store.part (ballotWeight p v) ballots (p, addr) := by
  cases hb : ballots.lookup (p, addr) with
  | none => simp [priorVotes, Store.part_of_lookup_none _ hb]
  | some b => simp [priorVotes, subtractVote_tally, Store.part_of_lookup_some _ hb, ballotWeight]

theorem votesYes_tally {L : Cw3Lib Exp Dur Thr Dep} (hyes : VotesYesSpec L) (w : ℕ) (v : Vote) :
    (L.votesYes w).tally v = if Vote.yes = v then w else 0 := by
  rw [hyes w]
  cases v <;> rfl

-- ======================================================== invariant

/-- The tally invariant of the flex multisig. -/
structure TallyInv (s : State Exp Dur Thr Dep) : Prop where
  ballots_below : ∀ p addr b, s.ballots.lookup (p, addr) = some b → p ≤ s.proposalCount
  proposals_below : ∀ p pr, s.proposals.lookup p = some pr → p ≤ s.proposalCount
  tally_eq : ∀ p pr, s.proposals.lookup p = some pr → ∀ v, pr.votes.tally v = ballotSum s.ballots p v

namespace TallyInv

variable {L : Cw3Lib Exp Dur Thr Dep} {s s' : State Exp Dur Thr Dep} {ms : List CosmosMsg}

theorem empty (s : State Exp Dur Thr Dep) (hb : s.ballots = ∅) (hp : s.proposals = ∅) :
    TallyInv s where
  ballots_below p addr b h := by simp [hb] at h
  proposals_below p pr h := by simp [hp] at h
  tally_eq p pr h := by simp [hp] at h

/-- A stored ballot's weight is at most its option's tally on its
proposal. -/
theorem ballot_le_tally (h : TallyInv s) {p : ℕ} {pr : Proposal Exp Thr Dep} {addr : String}
    {b : Ballot} (hp : s.proposals.lookup p = some pr) (hb : s.ballots.lookup (p, addr) = some b) :
    b.weight ≤ pr.votes.tally b.vote := by
  have hle := Store.le_sumBy (ballotWeight p b.vote) hb
  rw [h.tally_eq p pr hp b.vote]
  simpa [ballotSum, ballotWeight] using hle

theorem votes_eq (h : TallyInv s) {p : ℕ} {pr : Proposal Exp Thr Dep}
    (hp : s.proposals.lookup p = some pr) : pr.votes = ballotVotes s.ballots p :=
  Votes.ext_tally fun v => by rw [ballotVotes_tally, h.tally_eq p pr hp v]

/-- Overwriting a stored proposal with one of the same votes, the
ballots unchanged, keeps the invariant: `Execute` and `Close`. -/
theorem insert_proposal (h : TallyInv s) {p : ℕ} {pr pr' : Proposal Exp Thr Dep}
    (hp : s.proposals.lookup p = some pr) (hv : pr'.votes = pr.votes) :
    TallyInv { s with proposals := s.proposals.insert p pr' } where
  ballots_below := h.ballots_below
  proposals_below q qr hq := by
    rcases Store.lookup_insert_cases hq with ⟨rfl, -⟩ | ⟨-, hq⟩
    · exact h.proposals_below q pr hp
    · exact h.proposals_below q qr hq
  tally_eq q qr hq v := by
    rcases Store.lookup_insert_cases hq with ⟨rfl, rfl⟩ | ⟨-, hq⟩
    · rw [hv]
      exact h.tally_eq q pr hp v
    · exact h.tally_eq q qr hq v

/-- `Propose` keeps the invariant: the fresh id's only ballot is the
proposer's, and `Votes::yes` counts exactly it. -/
theorem propose (hyes : VotesYesSpec L) (h : TallyInv s) {env : Env} {info : MessageInfo}
    {querier : Cw4Querier} {title description : String} {msgs : List CosmosMsg}
    {latest : Option Exp}
    (hstep : execPropose L s env info querier title description msgs latest = .ok (s', ms)) :
    TallyInv s' := by
  obtain ⟨power, expires, -, -, -, rfl⟩ := execPropose_eq_ok hstep
  -- nothing is stored under the fresh id yet
  have hfresh : ∀ v, ballotSum s.ballots (s.proposalCount + 1) v = 0 := fun v =>
    Store.sumBy_eq_zero _ fun k b hk => by
      have := h.ballots_below k.1 k.2 b hk
      simp only [ballotWeight]
      rw [if_neg (by omega)]
  have hnone : s.ballots.lookup (s.proposalCount + 1, info.sender) = none := by
    cases hb : s.ballots.lookup (s.proposalCount + 1, info.sender) with
    | none => rfl
    | some b =>
        have := h.ballots_below _ _ b hb
        omega
  refine ⟨?_, ?_, ?_⟩
  · intro q addr b hq
    rcases Store.lookup_insert_cases hq with ⟨hk, -⟩ | ⟨-, hq⟩
    · exact le_of_eq (Prod.mk.inj hk).1
    · exact Nat.le_succ_of_le (h.ballots_below q addr b hq)
  · intro q qr hq
    rcases Store.lookup_insert_cases hq with ⟨rfl, -⟩ | ⟨-, hq⟩
    · exact le_rfl
    · exact Nat.le_succ_of_le (h.proposals_below q qr hq)
  · intro q qr hq v
    rcases Store.lookup_insert_cases hq with ⟨rfl, rfl⟩ | ⟨hne, hq⟩
    · -- the new proposal: the proposer's yes ballot and nothing else
      have hsum := ballotSum_insert_add s.ballots (s.proposalCount + 1) info.sender
        ⟨power, .yes⟩ v
      rw [Store.part_of_lookup_none _ hnone, hfresh v] at hsum
      dsimp only at hsum
      simp only [Proposal.updateStatus_votes, votesYes_tally hyes]
      omega
    · -- another proposal keeps its ballots
      rw [ballotSum_insert_of_ne _ _ v (Ne.symm hne)]
      exact h.tally_eq q qr hq v

/-- `Vote` keeps the invariant: the tally loses the previous ballot, in
full because it is part of the tally, and gains the new one. -/
theorem vote (hadd : AddVoteSpec L) (h : TallyInv s) {env : Env} {info : MessageInfo}
    {querier : Cw4Querier} {proposalId : ℕ} {vote : Vote}
    (hstep : execVote L s env info querier proposalId vote = .ok (s', ms)) :
    TallyInv s' := by
  obtain ⟨prop, power, hp, -, -, -, rfl, -⟩ := execVote_eq_ok hstep
  have hbelow := h.proposals_below proposalId prop hp
  refine ⟨?_, ?_, ?_⟩
  · intro q addr b hq
    rcases Store.lookup_insert_cases hq with ⟨hk, -⟩ | ⟨-, hq⟩
    · rw [(Prod.mk.inj hk).1]
      exact hbelow
    · exact h.ballots_below q addr b hq
  · intro q qr hq
    rcases Store.lookup_insert_cases hq with ⟨rfl, -⟩ | ⟨-, hq⟩
    · exact hbelow
    · exact h.proposals_below q qr hq
  · intro q qr hq v
    rcases Store.lookup_insert_cases hq with ⟨rfl, rfl⟩ | ⟨hne, hq⟩
    · -- the voted proposal
      have hsum := ballotSum_insert_add s.ballots q info.sender ⟨power, vote⟩ v
      have hpart := part_le_ballotSum s.ballots q info.sender v
      have hold := h.tally_eq q prop hp v
      dsimp only at hsum
      simp only [Proposal.updateStatus_votes]
      rw [hadd _ vote power v, priorVotes_tally]
      by_cases hv : vote = v
      · subst hv
        simp only [if_true] at hsum ⊢
        omega
      · simp only [hv, Ne.symm hv, if_false] at hsum ⊢
        omega
    · -- another proposal keeps its ballots
      rw [ballotSum_insert_of_ne _ _ v (Ne.symm hne)]
      exact h.tally_eq q qr hq v

/-- Every committed transaction keeps the invariant. -/
theorem step (hyes : VotesYesSpec L) (hadd : AddVoteSpec L) (h : TallyInv s) {tx : Tx Exp}
    (hstep : Cw3Flex.step L s tx = .ok (s', ms)) : TallyInv s' := by
  obtain ⟨env, info, msg, querier⟩ := tx
  cases msg with
  | propose title description msgs latest => exact h.propose hyes hstep
  | vote proposalId vote => exact h.vote hadd hstep
  | execute proposalId =>
      obtain ⟨prop, refund, hp, -, -, -, rfl, -⟩ := execExecute_eq_ok hstep
      exact h.insert_proposal hp rfl
  | close proposalId =>
      obtain ⟨prop, hp, -, -, -, -, rfl⟩ := execClose_eq_ok hstep
      exact h.insert_proposal hp rfl
  | memberChangedHook =>
      obtain ⟨rfl, -⟩ := execMembershipHook_eq_ok hstep
      exact h

end TallyInv

-- ============================================================= runs

section reachable

variable {L : Cw3Lib Exp Dur Thr Dep} {UDep : Type} {addrValidate : String → Except StdError Unit}
  {intoChecked : UDep → Except String Dep} {querier : Cw4Querier}
  {msg : InstantiateMsg Dur Thr UDep} {s0 : State Exp Dur Thr Dep}

/-- After any run from `instantiate`, with votes changed any number of
times, every stored proposal's votes are the sums of its ballots, and
each ballot's weight is at most its option's tally, so `subtract_vote`
never saturates. -/
theorem votes_eq_ballotVotes (hyes : VotesYesSpec L) (hadd : AddVoteSpec L)
    (hinit : instantiate L addrValidate intoChecked querier msg = .ok s0) (txs : List (Tx Exp)) :
    ∀ p pr, (run (step L) s0 txs).1.proposals.lookup p = some pr →
      pr.votes = ballotVotes (run (step L) s0 txs).1.ballots p
        ∧ ∀ addr b, (run (step L) s0 txs).1.ballots.lookup (p, addr) = some b →
            b.weight ≤ pr.votes.tally b.vote := by
  obtain ⟨-, hb, hp⟩ := instantiate_eq_ok hinit
  have hinv : TallyInv (run (step L) s0 txs).1 :=
    run_invariant TallyInv (fun _ _ _ _ hs h => hs.step hyes hadd h) txs
      (TallyInv.empty s0 hb hp)
  intro p pr hpr
  exact ⟨hinv.votes_eq hpr, fun _ _ hball => hinv.ballot_le_tally hpr hball⟩

end reachable

/-- The group of `revoteTxs`: alice of weight 2 and bob of weight 1. -/
def aliceBobGroup : Cw4Querier :=
  ⟨fun addr _ => if addr = "alice" then some 2 else if addr = "bob" then some 1 else none,
    fun addr _ => if addr = "alice" then some 2 else if addr = "bob" then some 1 else none, 3⟩

/-- Alice proposes, bob votes no, then changes his vote to yes. -/
def revoteTxs : List (Tx Expiration) :=
  [⟨⟨⟨1, 1⟩, "flex"⟩, ⟨"alice", []⟩, .propose "p" "d" [] none, aliceBobGroup⟩,
   ⟨⟨⟨2, 2⟩, "flex"⟩, ⟨"bob", []⟩, .vote 1 .no, aliceBobGroup⟩,
   ⟨⟨⟨3, 3⟩, "flex"⟩, ⟨"bob", []⟩, .vote 1 .yes, aliceBobGroup⟩]

/-- A flex multisig over `aliceBobGroup`, passing at weight 3, after
`instantiate`. -/
def aliceBobFlex : State Expiration Duration ℕ Unit :=
  ⟨⟨3, .height 10, "group", none, none⟩, 0, ∅, ∅⟩

theorem votes_eq_ballotVotes_revote :
    VotesYesSpec (Cw3Lib.absoluteCount Unit) ∧ AddVoteSpec (Cw3Lib.absoluteCount Unit)
      ∧ instantiate (Cw3Lib.absoluteCount Unit) (fun _ => .ok ()) (fun (d : Unit) => .ok d)
          aliceBobGroup ⟨"group", 3, .height 10, none, none⟩ = .ok aliceBobFlex
      ∧ ∀ p pr,
          (run (step (Cw3Lib.absoluteCount Unit)) aliceBobFlex revoteTxs).1.proposals.lookup p
            = some pr →
          pr.votes = ballotVotes
              (run (step (Cw3Lib.absoluteCount Unit)) aliceBobFlex revoteTxs).1.ballots p
            ∧ ∀ addr b,
              (run (step (Cw3Lib.absoluteCount Unit)) aliceBobFlex revoteTxs).1.ballots.lookup
                (p, addr) = some b →
              b.weight ≤ pr.votes.tally b.vote := by
  refine ⟨absoluteCount_votesYes, absoluteCount_addVote, ?hinit,
    votes_eq_ballotVotes absoluteCount_votesYes absoluteCount_addVote ?hinit revoteTxs⟩
  rfl

-- bob's no ballot left the tally when he changed it to yes
example : ((run (step (Cw3Lib.absoluteCount Unit)) aliceBobFlex revoteTxs).1.proposals.lookup
    1).map (·.votes) = some ⟨3, 0, 0, 0⟩ := by decide

end NibiruWasm.Cw3Flex
