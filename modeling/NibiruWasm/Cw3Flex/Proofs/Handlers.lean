/-
What each committed core-cw3-flex-msig handler did.

One inversion lemma per handler, naming every check that passed, the
exact new storage and the response, so the tally and lifecycle proofs
never unfold a handler. An execution's and a close's response start
with `refundMessages`, the only messages that return a deposit.
-/
import NibiruWasm.Cw3Flex.Contract
import NibiruWasm.Cw3Fixed.Proofs.Handlers

namespace NibiruWasm.Cw3Flex

open Cosmwasm Chain Cw3

variable {Exp Dur Thr Dep : Type} {L : Cw3Lib Exp Dur Thr Dep}
  {s s' : State Exp Dur Thr Dep} {ms : List CosmosMsg} {env : Env} {info : MessageInfo}
  {querier : Cw4Querier}

-- ========================================================= helpers

@[simp] theorem weightOrUnauthorized_eq_ok {weight : Option ℕ} {power : ℕ} :
    weightOrUnauthorized weight = .ok power ↔ weight = some power := by
  unfold weightOrUnauthorized
  cases weight <;> simp

-- ======================================================== handlers

/-- A successful `instantiate` stores no proposal and no ballot. -/
theorem instantiate_eq_ok {UDep : Type} {addrValidate : String → Except StdError Unit}
    {intoChecked : UDep → Except String Dep} {msg : InstantiateMsg Dur Thr UDep}
    {s0 : State Exp Dur Thr Dep}
    (h : instantiate L addrValidate intoChecked querier msg = .ok s0) :
    s0.proposalCount = 0 ∧ s0.ballots = ∅ ∧ s0.proposals = ∅ := by
  simp only [instantiate, bind_eq_ok, mapError_eq_ok] at h
  obtain ⟨-, -, -, -, dep, -, hs0⟩ := h
  rw [pure_eq_ok] at hs0
  subst hs0
  exact ⟨rfl, rfl, rfl⟩

/-- A committed proposal: the proposer is a member of the group, of any
weight; the proposal got the next id, the proposer's current weight as
its yes tally and the proposer's yes ballot, and the response takes the
deposit. -/
theorem execPropose_eq_ok {title description : String} {msgs : List CosmosMsg}
    {latest : Option Exp}
    (h : execPropose L s env info querier title description msgs latest = .ok (s', ms)) :
    ∃ power expires, querier.isMember info.sender none = some power
      ∧ s.proposalCount + 1 ≤ Uint64.MAX
      ∧ takeDepositMessages L s.config info.sender env.contractAddress = .ok ms
      ∧ s' = { s with
          proposalCount := s.proposalCount + 1
          proposals := s.proposals.insert (s.proposalCount + 1)
            (({ title, description, startHeight := env.block.height, expires, msgs,
                status := .open, votes := L.votesYes power,
                threshold := s.config.threshold, totalWeight := querier.totalWeight,
                proposer := info.sender, deposit := s.config.proposalDeposit } :
                  Proposal Exp Thr Dep).updateStatus L env.block)
          ballots := s.ballots.insert (s.proposalCount + 1, info.sender) ⟨power, .yes⟩ } := by
  simp only [execPropose, bind_eq_ok, weightOrUnauthorized_eq_ok, mapError_eq_ok,
    Cw3Fixed.nextId_eq_ok] at h
  obtain ⟨-, -, power, hpower, expires, -, take, htake, id, ⟨hbound, rfl⟩, hs⟩ := h
  simp only [pure_eq_ok, Prod.mk.injEq] at hs
  obtain ⟨hs, rfl⟩ := hs
  exact ⟨power, expires, hpower, hbound, htake, hs.symm⟩

/-- A committed vote: the proposal was open, passed or rejected and not
expired, the sender a voting member at its start height. The new ballot
replaced any previous one, whose weight left its option's tally before
the new weight was added, and the proposal was reopened and its status
recomputed. -/
theorem execVote_eq_ok {proposalId : ℕ} {vote : Vote}
    (h : execVote L s env info querier proposalId vote = .ok (s', ms)) :
    ∃ prop power, s.proposals.lookup proposalId = some prop
      ∧ prop.status ∈ [Status.open, .passed, .rejected]
      ∧ L.isExpired prop.expires env.block = false
      ∧ querier.isVotingMember info.sender prop.startHeight = some power
      ∧ s' = { s with
          ballots := s.ballots.insert (proposalId, info.sender) ⟨power, vote⟩
          proposals := s.proposals.insert proposalId
            ({ prop with
                votes := L.addVote
                  (priorVotes prop.votes (s.ballots.lookup (proposalId, info.sender))) vote power
                status := .open }.updateStatus L env.block) }
      ∧ ms = [] := by
  simp only [execVote, bind_eq_ok, mapError_eq_ok, Cw3Fixed.loadProposal_eq_ok,
    throw_bind, ite_throw_eq_ok, not_not, Bool.not_eq_true, weightOrUnauthorized_eq_ok,
    pure_eq_ok, Prod.mk.injEq] at h
  obtain ⟨prop, hp, hst, hexp, power, hpower, hs, hms⟩ := h
  exact ⟨prop, power, hp, hst, hexp, hpower, hs.symm, hms.symm⟩

/-- A committed execution: the proposal's current status was `Passed`
and the sender an authorized executor; the proposal is stored as
`Executed`, and the response returns the deposit, if any, then
dispatches the proposal's messages. -/
theorem execExecute_eq_ok {proposalId : ℕ}
    (h : execExecute L s env info querier proposalId = .ok (s', ms)) :
    ∃ prop refund, s.proposals.lookup proposalId = some prop
      ∧ L.currentStatus prop env.block = .passed
      ∧ s.config.authorize querier info.sender = .ok ()
      ∧ refundMessages L prop.deposit prop.proposer true = .ok refund
      ∧ s' = { s with
          proposals := s.proposals.insert proposalId { prop with status := .executed } }
      ∧ ms = refund ++ prop.msgs := by
  simp only [execExecute, bind_eq_ok, mapError_eq_ok, Cw3Fixed.loadProposal_eq_ok,
    throw_bind, ite_throw_eq_ok, ne_eq, not_not, Proposal.updateStatus_deposit, Proposal.updateStatus_proposer, pure_eq_ok,
    Prod.mk.injEq] at h
  obtain ⟨prop, hp, hpass, ⟨⟩, hauth, refund, hrefund, hs, hms⟩ := h
  exact ⟨prop, refund, hp, hpass, hauth, hrefund, hs.symm, hms.symm⟩

/-- A committed close: the proposal was neither executed, rejected nor
passed, did not pass now and had expired; it is stored as `Rejected`,
and the response returns the deposit when failed proposals are
refunded. -/
theorem execClose_eq_ok {proposalId : ℕ}
    (h : execClose L s env proposalId = .ok (s', ms)) :
    ∃ prop, s.proposals.lookup proposalId = some prop
      ∧ prop.status ∉ [Status.executed, .rejected, .passed]
      ∧ L.currentStatus prop env.block ≠ .passed
      ∧ L.isExpired prop.expires env.block = true
      ∧ refundMessages L prop.deposit prop.proposer false = .ok ms
      ∧ s' = { s with
          proposals := s.proposals.insert proposalId { prop with status := .rejected } } := by
  simp only [execClose, bind_eq_ok, mapError_eq_ok, Cw3Fixed.loadProposal_eq_ok,
    throw_bind, ite_throw_eq_ok, Bool.not_eq_true', Bool.not_eq_false, pure_eq_ok,
    Prod.mk.injEq] at h
  obtain ⟨prop, hp, hst, hcur, hexp, refund, hrefund, hs, rfl⟩ := h
  exact ⟨prop, hp, hst, hcur, hexp, hrefund, hs.symm⟩

/-- The membership hook, from the group contract, changes nothing. -/
theorem execMembershipHook_eq_ok (h : execMembershipHook s info = .ok (s', ms)) :
    s' = s ∧ ms = [] := by
  unfold execMembershipHook at h
  by_cases hg : info.sender ≠ s.config.groupAddr
  · simp [hg] at h
  · simp only [hg, if_false, Except.ok.injEq, Prod.mk.injEq] at h
    exact ⟨h.1.symm, h.2.symm⟩

end NibiruWasm.Cw3Flex
