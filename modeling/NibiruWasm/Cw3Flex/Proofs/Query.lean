/-
Paging through the flex multisig's proposals, and the proposal ids of
both multisigs.

The flex multisig lists its proposals through the same scans as the
fixed one, so paging is lossless here too; its `ListVotes` is the fixed
multisig's page once `start_after` validates (`listVotes_eq_ok`). Both
multisigs store exactly the proposal ids `1` to `PROPOSAL_COUNT` after
any run from `instantiate`, since both run `Cw3.Lifecycle`
(`run_idsExact`), so a client paging through `ListProposals` reads the
ids `1`, `2`, … in order and through `ReverseProposals` the same ids
backwards (`proposals_paged_by_id`).
-/
import NibiruWasm.Cw3Flex.Query
import NibiruWasm.Cw3Flex.Proofs.Lifecycle
import NibiruWasm.Cw3Fixed.Proofs.Query

namespace NibiruWasm.Cw3Flex

open Cosmwasm Chain Cw3 CwUtils

variable {Exp Dur Thr Dep ThrResp : Type}

/-- With `start_after` a valid address, or none, `list_votes` answers
the fixed multisig's page. -/
theorem listVotes_eq_ok {addrValidate : String → Except StdError Unit}
    {s : State Exp Dur Thr Dep} {proposalId : ℕ} {startAfter : Option String}
    {limit : Option ℕ} (hvalid : ∀ addr, startAfter = some addr → addrValidate addr = .ok ()) :
    listVotes addrValidate s proposalId startAfter limit
      = .ok (Cw3.listVotes s.ballots proposalId (startAfter.map rawKey)
          (pageLimit defaultLimit maxLimit limit)) := by
  cases startAfter with
  | none => rfl
  | some addr =>
      simp only [listVotes, maybeAddr, hvalid addr rfl, ok_bind, pure_bind]
      rfl

section reachable

variable {L : Cw3Lib Exp Dur Thr Dep} {UDep : Type} {addrValidate : String → Except StdError Unit}
  {intoChecked : UDep → Except String Dep} {querier : Cw4Querier}
  {msg : InstantiateMsg Dur Thr UDep} {s0 : State Exp Dur Thr Dep}

/-- Every state a run from `instantiate` reaches stores exactly the
proposal ids `1` to `PROPOSAL_COUNT`. -/
theorem reachable_idsExact (hinit : instantiate L addrValidate intoChecked querier msg = .ok s0)
    (txs : List (Tx Exp)) : IdsExact (run (step L) s0 txs).1.lifecycle := by
  have h0 : IdsExact s0.lifecycle := by
    obtain ⟨hcount, -, hprops⟩ := instantiate_eq_ok hinit
    rw [State.lifecycle, hcount, hprops]
    exact idsExact_empty
  exact run_idsExact State.lifecycle (fun tx => tx.env.block) (fun tx => tx.msg.settled)
    (fun _ _ _ _ h => step_lifecycle h) txs h0

end reachable

-- ================================================= both multisigs

/-- In both multisigs, after any run from `instantiate`, paging through
`ListProposals` from the start with any limit but `Some(0)`, each time
after the last id received, reads the proposal ids `1` to
`PROPOSAL_COUNT` in order, each answer the stored proposal with its
status at the block; paging down through `ReverseProposals` reads the
same ids backwards. -/
theorem proposals_paged_by_id {UDep : Type} {Lx : Cw3Lib Exp Dur Thr Empty}
    {L : Cw3Lib Exp Dur Thr Dep} (toResponse : Thr → ℕ → ThrResp)
    {addrValidate : String → Except StdError Unit}
    {msgx : Cw3Fixed.InstantiateMsg Dur Thr} {sx : Cw3Fixed.State Exp Dur Thr}
    (hx : Cw3Fixed.instantiate Lx addrValidate msgx = .ok sx)
    {intoChecked : UDep → Except String Dep} {querier : Cw4Querier}
    {msgf : InstantiateMsg Dur Thr UDep} {sf : State Exp Dur Thr Dep}
    (hf : instantiate L addrValidate intoChecked querier msgf = .ok sf)
    (txsx : List (Cw3Fixed.Tx Exp)) (txsf : List (Tx Exp)) (env : Env) {limit : Option ℕ}
    (hlimit : limit ≠ some 0) :
    ((walk (fun start => Cw3Fixed.listProposals Lx toResponse (run (Cw3Fixed.step Lx) sx txsx).1
          env start limit) (·.id) ((run (Cw3Fixed.step Lx) sx txsx).1.proposalCount + 1)
          none).map (·.id) = List.range' 1 (run (Cw3Fixed.step Lx) sx txsx).1.proposalCount
      ∧ (walk (fun start => Cw3Fixed.reverseProposals Lx toResponse
          (run (Cw3Fixed.step Lx) sx txsx).1 env start limit) (·.id)
          ((run (Cw3Fixed.step Lx) sx txsx).1.proposalCount + 1) none).map (·.id)
        = (List.range' 1 (run (Cw3Fixed.step Lx) sx txsx).1.proposalCount).reverse
      ∧ ∀ r ∈ walk (fun start => Cw3Fixed.listProposals Lx toResponse
          (run (Cw3Fixed.step Lx) sx txsx).1 env start limit) (·.id)
          ((run (Cw3Fixed.step Lx) sx txsx).1.proposalCount + 1) none,
        ∃ pr, (run (Cw3Fixed.step Lx) sx txsx).1.proposals.lookup r.id = some pr
          ∧ r = mapProposal Lx toResponse env.block (r.id, pr))
    ∧ ((walk (fun start => listProposals L toResponse (run (step L) sf txsf).1 env start limit)
          (·.id) ((run (step L) sf txsf).1.proposalCount + 1) none).map (·.id)
        = List.range' 1 (run (step L) sf txsf).1.proposalCount
      ∧ (walk (fun start => reverseProposals L toResponse (run (step L) sf txsf).1 env start limit)
          (·.id) ((run (step L) sf txsf).1.proposalCount + 1) none).map (·.id)
        = (List.range' 1 (run (step L) sf txsf).1.proposalCount).reverse
      ∧ ∀ r ∈ walk (fun start => listProposals L toResponse (run (step L) sf txsf).1 env start limit)
          (·.id) ((run (step L) sf txsf).1.proposalCount + 1) none,
        ∃ pr, (run (step L) sf txsf).1.proposals.lookup r.id = some pr
          ∧ r = mapProposal L toResponse env.block (r.id, pr)) :=
  ⟨paged_by_id Lx toResponse (Cw3Fixed.reachable_idsExact hx txsx)
      (pageLimit_pos (by decide) (by decide) hlimit),
    paged_by_id L toResponse (reachable_idsExact hf txsf)
      (pageLimit_pos (by decide) (by decide) hlimit)⟩

/-- The paging at the runs of `proposals_settled_at_most_once_absoluteCount`,
one proposal a page. -/
theorem proposals_paged_by_id_alice :
    Cw3Fixed.instantiate (Cw3Lib.absoluteCount Empty) (fun _ => .ok ())
        ⟨[⟨"alice", 1⟩], 1, .height 10⟩ = .ok aliceFixed
      ∧ instantiate (Cw3Lib.absoluteCount Unit) (fun _ => .ok ()) (fun (d : Unit) => .ok d)
        aliceGroup ⟨"group", 1, .height 10, none, none⟩ = .ok aliceFlex
      ∧ some 1 ≠ some 0
      ∧ ((walk (fun start => Cw3Fixed.listProposals (Cw3Lib.absoluteCount Empty) Prod.mk
            (run (Cw3Fixed.step (Cw3Lib.absoluteCount Empty)) aliceFixed settleFixedTxs).1
            ⟨⟨20, 20⟩, "c"⟩ start (some 1)) (·.id)
            ((run (Cw3Fixed.step (Cw3Lib.absoluteCount Empty)) aliceFixed
              settleFixedTxs).1.proposalCount + 1) none).map (·.id)
          = List.range' 1 (run (Cw3Fixed.step (Cw3Lib.absoluteCount Empty)) aliceFixed
              settleFixedTxs).1.proposalCount
        ∧ (walk (fun start => Cw3Fixed.reverseProposals (Cw3Lib.absoluteCount Empty) Prod.mk
            (run (Cw3Fixed.step (Cw3Lib.absoluteCount Empty)) aliceFixed settleFixedTxs).1
            ⟨⟨20, 20⟩, "c"⟩ start (some 1)) (·.id)
            ((run (Cw3Fixed.step (Cw3Lib.absoluteCount Empty)) aliceFixed
              settleFixedTxs).1.proposalCount + 1) none).map (·.id)
          = (List.range' 1 (run (Cw3Fixed.step (Cw3Lib.absoluteCount Empty)) aliceFixed
              settleFixedTxs).1.proposalCount).reverse
        ∧ ∀ r ∈ walk (fun start => Cw3Fixed.listProposals (Cw3Lib.absoluteCount Empty) Prod.mk
            (run (Cw3Fixed.step (Cw3Lib.absoluteCount Empty)) aliceFixed settleFixedTxs).1
            ⟨⟨20, 20⟩, "c"⟩ start (some 1)) (·.id)
            ((run (Cw3Fixed.step (Cw3Lib.absoluteCount Empty)) aliceFixed
              settleFixedTxs).1.proposalCount + 1) none,
          ∃ pr, (run (Cw3Fixed.step (Cw3Lib.absoluteCount Empty)) aliceFixed
              settleFixedTxs).1.proposals.lookup r.id = some pr
            ∧ r = mapProposal (Cw3Lib.absoluteCount Empty) Prod.mk ⟨20, 20⟩ (r.id, pr))
      ∧ ((walk (fun start => listProposals (Cw3Lib.absoluteCount Unit) Prod.mk
            (run (step (Cw3Lib.absoluteCount Unit)) aliceFlex settleFlexTxs).1 ⟨⟨20, 20⟩, "c"⟩
            start (some 1)) (·.id)
            ((run (step (Cw3Lib.absoluteCount Unit)) aliceFlex settleFlexTxs).1.proposalCount + 1)
            none).map (·.id)
          = List.range' 1 (run (step (Cw3Lib.absoluteCount Unit)) aliceFlex
              settleFlexTxs).1.proposalCount
        ∧ (walk (fun start => reverseProposals (Cw3Lib.absoluteCount Unit) Prod.mk
            (run (step (Cw3Lib.absoluteCount Unit)) aliceFlex settleFlexTxs).1 ⟨⟨20, 20⟩, "c"⟩
            start (some 1)) (·.id)
            ((run (step (Cw3Lib.absoluteCount Unit)) aliceFlex settleFlexTxs).1.proposalCount + 1)
            none).map (·.id)
          = (List.range' 1 (run (step (Cw3Lib.absoluteCount Unit)) aliceFlex
              settleFlexTxs).1.proposalCount).reverse
        ∧ ∀ r ∈ walk (fun start => listProposals (Cw3Lib.absoluteCount Unit) Prod.mk
            (run (step (Cw3Lib.absoluteCount Unit)) aliceFlex settleFlexTxs).1 ⟨⟨20, 20⟩, "c"⟩
            start (some 1)) (·.id)
            ((run (step (Cw3Lib.absoluteCount Unit)) aliceFlex settleFlexTxs).1.proposalCount + 1)
            none,
          ∃ pr, (run (step (Cw3Lib.absoluteCount Unit)) aliceFlex
              settleFlexTxs).1.proposals.lookup r.id = some pr
            ∧ r = mapProposal (Cw3Lib.absoluteCount Unit) Prod.mk ⟨20, 20⟩ (r.id, pr)) := by
  refine ⟨?hx, ?hf, by decide,
    proposals_paged_by_id Prod.mk ?hx ?hf settleFixedTxs settleFlexTxs ⟨⟨20, 20⟩, "c"⟩ (by decide)⟩
  · rfl
  · rfl

end NibiruWasm.Cw3Flex
