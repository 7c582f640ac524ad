/-
What each committed core-cw3-fixed-msig handler did, and the spec
lemmas of the helpers the flex multisig shares with it (`nextId`,
`loadProposal`).

One inversion lemma per handler names every check that passed, the new
storage and the response, so that the lifecycle proofs never unfold a
handler.
-/
import NibiruWasm.Cw3Fixed.Contract
import NibiruWasm.Chain.Except

namespace NibiruWasm.Cw3Fixed

open Cosmwasm Chain Cw3

variable {Exp Dur Thr Dep : Type}

-- ========================================================= helpers

@[simp] theorem nextId_eq_ok {count id : ℕ} :
    nextId count = .ok id ↔ count + 1 ≤ Uint64.MAX ∧ id = count + 1 := by
  simp [nextId]

@[simp] theorem loadProposal_eq_ok {proposals : Store ℕ (Proposal Exp Thr Dep)}
    {proposalId : ℕ} {prop : Proposal Exp Thr Dep} :
    loadProposal proposals proposalId = .ok prop ↔ proposals.lookup proposalId = some prop := by
  unfold loadProposal
  cases proposals.lookup proposalId <;> simp

@[simp] theorem voterWeight_eq_ok {weight : Option ℕ} {power : ℕ} :
    voterWeight weight = .ok power ↔ weight = some power := by
  unfold voterWeight
  cases weight <;> simp

@[simp] theorem votingWeight_eq_ok {weight : Option ℕ} {power : ℕ} :
    votingWeight weight = .ok power ↔ weight = some power ∧ 1 ≤ power := by
  unfold votingWeight
  cases weight with
  | none => simp
  | some w =>
      by_cases hw : 1 ≤ w
      · simp only [ge_iff_le, hw, if_true, Except.ok.injEq, Option.some.injEq]
        constructor
        · rintro rfl
          exact ⟨rfl, hw⟩
        · rintro ⟨rfl, -⟩
          rfl
      · simp only [ge_iff_le, hw, if_false, error_ne_ok, false_iff, not_and,
          Option.some.injEq]
        rintro rfl
        exact hw

variable {L : Cw3Lib Exp Dur Thr Empty} {s s' : State Exp Dur Thr} {ms : List CosmosMsg}
  {env : Env} {info : MessageInfo}

-- ======================================================== handlers

/-- A successful `instantiate` stores no proposal and no ballot. -/
theorem instantiate_eq_ok {addrValidate : String → Except StdError Unit}
    {msg : InstantiateMsg Dur Thr} {s0 : State Exp Dur Thr}
    (h : instantiate L addrValidate msg = .ok s0) :
    s0.proposalCount = 0 ∧ s0.ballots = ∅ ∧ s0.proposals = ∅ := by
  simp only [instantiate, ite_throw_eq_ok, throw_bind, bind_eq_ok] at h
  obtain ⟨-, total, -, -, -, voters, -, hs0⟩ := h
  rw [pure_eq_ok] at hs0
  subst hs0
  exact ⟨rfl, rfl, rfl⟩

/-- A committed proposal: the proposer is a voter, and the proposal got
the next id, the proposer's weight as its yes tally and the proposer's
yes ballot. -/
theorem executePropose_eq_ok {title description : String} {msgs : List CosmosMsg}
    {latest : Option Exp}
    (h : executePropose L s env info title description msgs latest = .ok (s', ms)) :
    ∃ power expires, s.voters.lookup info.sender = some power
      ∧ s.proposalCount + 1 ≤ Uint64.MAX
      ∧ s' = { s with
          proposalCount := s.proposalCount + 1
          proposals := s.proposals.insert (s.proposalCount + 1)
            (({ title, description, startHeight := env.block.height, expires, msgs,
                status := .open, votes := L.votesYes power,
                threshold := s.config.threshold, totalWeight := s.config.totalWeight,
                proposer := info.sender, deposit := none } :
                  Proposal Exp Thr Empty).updateStatus L env.block)
          ballots := s.ballots.insert (s.proposalCount + 1, info.sender) ⟨power, .yes⟩ }
      ∧ ms = [] := by
  simp only [executePropose, bind_eq_ok, voterWeight_eq_ok, mapError_eq_ok,
    nextId_eq_ok] at h
  obtain ⟨power, hpower, expires, -, id, ⟨hbound, rfl⟩, hs⟩ := h
  simp only [pure_eq_ok, Prod.mk.injEq] at hs
  exact ⟨power, expires, hpower, hbound, hs.1.symm, hs.2.symm⟩

/-- A committed vote: the sender is a voter of weight at least one that
had not voted on the proposal, which was open, passed or rejected and
not expired; the ballot is saved and the tally and status updated. -/
theorem executeVote_eq_ok {proposalId : ℕ} {vote : Vote}
    (h : executeVote L s env info proposalId vote = .ok (s', ms)) :
    ∃ prop power, s.voters.lookup info.sender = some power ∧ 1 ≤ power
      ∧ s.proposals.lookup proposalId = some prop
      ∧ prop.status ∈ [Status.open, .passed, .rejected]
      ∧ L.isExpired prop.expires env.block = false
      ∧ s.ballots.lookup (proposalId, info.sender) = none
      ∧ s' = { s with
          ballots := s.ballots.insert (proposalId, info.sender) ⟨power, vote⟩
          proposals := s.proposals.insert proposalId
            ({ prop with votes := L.addVote prop.votes vote power }.updateStatus L env.block) }
      ∧ ms = [] := by
  simp only [executeVote, bind_eq_ok, votingWeight_eq_ok, mapError_eq_ok,
    loadProposal_eq_ok, throw_bind, ite_throw_eq_ok, not_not, Bool.not_eq_true,
    Option.isSome_eq_false_iff, Option.isNone_iff_eq_none, pure_eq_ok, Prod.mk.injEq] at h
  obtain ⟨power, ⟨hpower, hone⟩, prop, hp, hst, hexp, hnone, hs, hms⟩ := h
  exact ⟨prop, power, hpower, hone, hp, hst, hexp, hnone, hs.symm, hms.symm⟩

/-- A committed execution: the proposal's current status was `Passed`;
it is stored as `Executed` and the response dispatches its messages. -/
theorem executeExecute_eq_ok {proposalId : ℕ}
    (h : executeExecute L s env proposalId = .ok (s', ms)) :
    ∃ prop, s.proposals.lookup proposalId = some prop
      ∧ L.currentStatus prop env.block = .passed
      ∧ s' = { s with
          proposals := s.proposals.insert proposalId { prop with status := .executed } }
      ∧ ms = prop.msgs := by
  simp only [executeExecute, bind_eq_ok, mapError_eq_ok, loadProposal_eq_ok,
    throw_bind, ite_throw_eq_ok, ne_eq, not_not, pure_eq_ok, Prod.mk.injEq] at h
  obtain ⟨prop, hp, hpass, hs, hms⟩ := h
  exact ⟨prop, hp, hpass, hs.symm, hms.symm⟩

/-- A committed close: the proposal was neither executed, rejected nor
passed, did not pass now and had expired; it is stored as `Rejected`. -/
theorem executeClose_eq_ok {proposalId : ℕ}
    (h : executeClose L s env proposalId = .ok (s', ms)) :
    ∃ prop, s.proposals.lookup proposalId = some prop
      ∧ prop.status ∉ [Status.executed, .rejected, .passed]
      ∧ L.currentStatus prop env.block ≠ .passed
      ∧ L.isExpired prop.expires env.block = true
      ∧ s' = { s with
          proposals := s.proposals.insert proposalId { prop with status := .rejected } }
      ∧ ms = [] := by
  simp only [executeClose, bind_eq_ok, mapError_eq_ok, loadProposal_eq_ok,
    throw_bind, ite_throw_eq_ok, Bool.not_eq_true', Bool.not_eq_false, pure_eq_ok,
    Prod.mk.injEq] at h
  obtain ⟨prop, hp, hst, hcur, hexp, hs, hms⟩ := h
  exact ⟨prop, hp, hst, hcur, hexp, hs.symm, hms.symm⟩

end NibiruWasm.Cw3Fixed
