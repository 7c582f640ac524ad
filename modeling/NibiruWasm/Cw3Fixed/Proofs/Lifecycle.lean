/-
The fixed multisig runs the proposal lifecycle.

`step_lifecycle` reads each handler's inversion lemma as a move of
`Cw3.Lifecycle`, labelled with the proposal an `Execute` or a `Close`
names; `instantiate` starts it with no proposal. The lifecycle's run
theorems then hold of every run of the contract:

- `settled_le_one`: at non-decreasing blocks, each proposal is executed
  or closed by at most one committed transaction;
- `executed_stays`: an executed proposal is never changed again.

`Dispatch` says what a committed transaction sends: an `Execute` sends
the stored messages of the proposal it executes, and nothing else sends
anything, so a proposal's messages leave only with its execution.
-/
import NibiruWasm.Cw3Fixed.Proofs.Handlers
import NibiruWasm.Cw3.Lifecycle

namespace NibiruWasm.Cw3Fixed

open Cosmwasm Chain Cw3

variable {Exp Dur Thr : Type} {L : Cw3Lib Exp Dur Thr Empty}

/-- The proposal a message settles: the one it executes or closes. -/
def ExecuteMsg.settled : ExecuteMsg Exp → Option ℕ
  | .execute proposalId => some proposalId
  | .close proposalId => some proposalId
  | _ => none

/-- The part of the storage the lifecycle moves. -/
def State.lifecycle (s : State Exp Dur Thr) : ℕ × Store ℕ (Proposal Exp Thr Empty) :=
  (s.proposalCount, s.proposals)

/-- Every committed transaction is a move of the lifecycle at its block. -/
theorem step_lifecycle {s s' : State Exp Dur Thr} {tx : Tx Exp} {ms : List CosmosMsg}
    (h : step L s tx = .ok (s', ms)) :
    Lifecycle L tx.env.block s.lifecycle tx.msg.settled s'.lifecycle := by
  obtain ⟨env, info, msg⟩ := tx
  cases msg with
  | propose title description msgs latest =>
      obtain ⟨power, expires, -, -, rfl, -⟩ := executePropose_eq_ok h
      exact .propose _ _ _
  | vote proposalId vote =>
      obtain ⟨prop, power, -, -, hp, hst, hexp, -, rfl, -⟩ := executeVote_eq_ok h
      exact .vote _ _ _ _ _ hp hst hexp rfl
  | execute proposalId =>
      obtain ⟨prop, hp, hpass, rfl, -⟩ := executeExecute_eq_ok h
      exact .execute _ _ _ _ hp hpass
  | close proposalId =>
      obtain ⟨prop, hp, hst, -, hexp, rfl, -⟩ := executeClose_eq_ok h
      exact .close _ _ _ _ hp hst hexp

/-- What one committed transaction of the fixed multisig sends: an
`Execute` the stored messages of the proposal it executes, any other
message nothing. -/
structure Dispatch (c : Commit (State Exp Dur Thr) (Tx Exp) CosmosMsg) : Prop where
  execute : ∀ q, c.tx.msg = .execute q →
    ∃ prop, c.pre.proposals.lookup q = some prop ∧ c.msgs = prop.msgs
  quiet : (∀ q, c.tx.msg ≠ .execute q) → c.msgs = []

theorem dispatch_of_step {s s' : State Exp Dur Thr} {tx : Tx Exp} {ms : List CosmosMsg}
    (h : step L s tx = .ok (s', ms)) : Dispatch ⟨s, tx, s', ms⟩ := by
  obtain ⟨env, info, msg⟩ := tx
  cases msg with
  | propose title description msgs latest =>
      obtain ⟨-, -, -, -, -, rfl⟩ := executePropose_eq_ok h
      exact ⟨nofun, fun _ => rfl⟩
  | vote proposalId vote =>
      obtain ⟨-, -, -, -, -, -, -, -, -, rfl⟩ := executeVote_eq_ok h
      exact ⟨nofun, fun _ => rfl⟩
  | execute proposalId =>
      obtain ⟨prop, hp, -, -, rfl⟩ := executeExecute_eq_ok h
      refine ⟨?_, fun hne => absurd rfl (hne proposalId)⟩
      rintro q ⟨⟩
      exact ⟨prop, hp, rfl⟩
  | close proposalId =>
      obtain ⟨-, -, -, -, -, -, rfl⟩ := executeClose_eq_ok h
      exact ⟨nofun, fun _ => rfl⟩

section reachable

variable {addrValidate : String → Except StdError Unit} {msg : InstantiateMsg Dur Thr}
  {s0 : State Exp Dur Thr}

theorem instantiate_idsBelow (h : instantiate L addrValidate msg = .ok s0) :
    IdsBelow s0.lifecycle := by
  obtain ⟨hcount, -, hprops⟩ := instantiate_eq_ok h
  rw [State.lifecycle, hcount, hprops]
  exact idsBelow_empty

/-- At non-decreasing blocks, each proposal is executed or closed at most
once over a run from `instantiate`. -/
theorem settled_le_one (hS : CurrentStatusSpec L) (hE : IsExpiredSpec L)
    (hinit : instantiate L addrValidate msg = .ok s0) (txs : List (Tx Exp))
    (hchain : List.IsChain (· ≤ ·) (txs.map fun tx => tx.env.block)) (p : ℕ) :
    ((run (step L) s0 txs).2.countP fun c => decide (c.1.msg.settled = some p)) ≤ 1 :=
  run_settled_le_one State.lifecycle (fun tx => tx.env.block) (fun tx => tx.msg.settled)
    (fun _ _ _ _ h => step_lifecycle h) hS hE txs hchain (instantiate_idsBelow hinit) p

/-- A proposal executed after a run from `instantiate` stays as it is
through any further run. -/
theorem executed_stays (hS : CurrentStatusSpec L)
    (hinit : instantiate L addrValidate msg = .ok s0) (pre post : List (Tx Exp)) {p : ℕ}
    {pr : Proposal Exp Thr Empty} (hp : (run (step L) s0 pre).1.proposals.lookup p = some pr)
    (hx : pr.status = .executed) :
    (run (step L) s0 (pre ++ post)).1.proposals.lookup p = some pr := by
  have hlife : ∀ s tx s' ms, step L s tx = .ok (s', ms) →
      Lifecycle L tx.env.block s.lifecycle tx.msg.settled s'.lifecycle :=
    fun _ _ _ _ h => step_lifecycle h
  have hbelow := run_idsBelow State.lifecycle (fun tx => tx.env.block) (fun tx => tx.msg.settled)
    hlife pre (instantiate_idsBelow hinit)
  rw [run_append]
  exact run_executed_stays State.lifecycle (fun tx => tx.env.block) (fun tx => tx.msg.settled)
    hlife hS post hbelow hp hx

end reachable

end NibiruWasm.Cw3Fixed
