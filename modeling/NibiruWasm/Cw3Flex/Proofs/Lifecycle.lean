/-
The flex multisig runs the same proposal lifecycle as the fixed one.

Its votes may reopen a passed or rejected proposal, and its executions
and closes return the proposal's deposit; neither changes which moves of
`Cw3.Lifecycle` its handlers make (`step_lifecycle`). So here too each
proposal is executed or closed at most once per run at non-decreasing
blocks, and an executed proposal never changes again. An execution's or
a close's response is the only one that carries `refundMessages`
(`Dispatch`): a proposal carries the messages that take the deposit,
an execution the refund and then the proposal's messages, a close the
refund when failed proposals are refunded, and a vote or the hook
nothing. So a deposit goes back to its proposer at most once.

`proposals_settled_at_most_once` states this for both multisigs.
-/
import NibiruWasm.Cw3Flex.Proofs.Handlers
import NibiruWasm.Cw3Fixed.Proofs.Lifecycle
import NibiruWasm.Cw3.Utils

namespace NibiruWasm.Cw3Flex

open Cosmwasm Chain Cw3 CwUtils

variable {Exp Dur Thr Dep : Type} {L : Cw3Lib Exp Dur Thr Dep}

/-- The proposal a message settles: the one it executes or closes. -/
def ExecuteMsg.settled : ExecuteMsg Exp → Option ℕ
  | .execute proposalId => some proposalId
  | .close proposalId => some proposalId
  | _ => none

/-- The part of the storage the lifecycle moves. -/
def State.lifecycle (s : State Exp Dur Thr Dep) : ℕ × Store ℕ (Proposal Exp Thr Dep) :=
  (s.proposalCount, s.proposals)

/-- Every committed transaction is a move of the lifecycle at its block. -/
theorem step_lifecycle {s s' : State Exp Dur Thr Dep} {tx : Tx Exp} {ms : List CosmosMsg}
    (h : step L s tx = .ok (s', ms)) :
    Lifecycle L tx.env.block s.lifecycle tx.msg.settled s'.lifecycle := by
  obtain ⟨env, info, msg, querier⟩ := tx
  cases msg with
  | propose title description msgs latest =>
      obtain ⟨power, expires, -, -, -, rfl⟩ := execPropose_eq_ok h
      exact .propose _ _ _
  | vote proposalId vote =>
      obtain ⟨prop, power, hp, hst, hexp, -, rfl, -⟩ := execVote_eq_ok h
      exact .vote _ _ _ _ _ hp hst hexp rfl
  | execute proposalId =>
      obtain ⟨prop, refund, hp, hpass, -, -, rfl, -⟩ := execExecute_eq_ok h
      exact .execute _ _ _ _ hp hpass
  | close proposalId =>
      obtain ⟨prop, hp, hst, -, hexp, -, rfl⟩ := execClose_eq_ok h
      exact .close _ _ _ _ hp hst hexp
  | memberChangedHook =>
      obtain ⟨rfl, -⟩ := execMembershipHook_eq_ok h
      exact .idle _

/-- What one committed transaction of the flex multisig sends. -/
structure Dispatch (L : Cw3Lib Exp Dur Thr Dep)
    (c : Commit (State Exp Dur Thr Dep) (Tx Exp) CosmosMsg) : Prop where
  propose : ∀ title description msgs latest, c.tx.msg = .propose title description msgs latest →
    takeDepositMessages L c.pre.config c.tx.info.sender c.tx.env.contractAddress = .ok c.msgs
  execute : ∀ q, c.tx.msg = .execute q →
    ∃ prop refund, c.pre.proposals.lookup q = some prop
      ∧ refundMessages L prop.deposit prop.proposer true = .ok refund
      ∧ c.msgs = refund ++ prop.msgs
  close : ∀ q, c.tx.msg = .close q →
    ∃ prop, c.pre.proposals.lookup q = some prop
      ∧ refundMessages L prop.deposit prop.proposer false = .ok c.msgs
  quiet : (∃ q v, c.tx.msg = .vote q v) ∨ c.tx.msg = .memberChangedHook → c.msgs = []

theorem dispatch_of_step {s s' : State Exp Dur Thr Dep} {tx : Tx Exp} {ms : List CosmosMsg}
    (h : step L s tx = .ok (s', ms)) : Dispatch L ⟨s, tx, s', ms⟩ := by
  obtain ⟨env, info, msg, querier⟩ := tx
  cases msg with
  | propose title description msgs latest =>
      obtain ⟨-, -, -, -, htake, -⟩ := execPropose_eq_ok h
      refine ⟨?_, nofun, nofun, ?_⟩
      · rintro title' description' msgs' latest' ⟨⟩
        exact htake
      · rintro (⟨_, _, h⟩ | h) <;> cases h
  | vote proposalId vote =>
      obtain ⟨-, -, -, -, -, -, -, rfl⟩ := execVote_eq_ok h
      exact ⟨nofun, nofun, nofun, fun _ => rfl⟩
  | execute proposalId =>
      obtain ⟨prop, refund, hp, -, -, hrefund, -, rfl⟩ := execExecute_eq_ok h
      refine ⟨nofun, ?_, nofun, ?_⟩
      · rintro q ⟨⟩
        exact ⟨prop, refund, hp, hrefund, rfl⟩
      · rintro (⟨_, _, h⟩ | h) <;> cases h
  | close proposalId =>
      obtain ⟨prop, hp, -, -, -, hrefund, -⟩ := execClose_eq_ok h
      refine ⟨nofun, nofun, ?_, ?_⟩
      · rintro q ⟨⟩
        exact ⟨prop, hp, hrefund⟩
      · rintro (⟨_, _, h⟩ | h) <;> cases h
  | memberChangedHook =>
      obtain ⟨-, rfl⟩ := execMembershipHook_eq_ok h
      exact ⟨nofun, nofun, nofun, fun _ => rfl⟩

section reachable

variable {UDep : Type} {addrValidate : String → Except StdError Unit}
  {intoChecked : UDep → Except String Dep} {querier : Cw4Querier}
  {msg : InstantiateMsg Dur Thr UDep} {s0 : State Exp Dur Thr Dep}

theorem instantiate_idsBelow (h : instantiate L addrValidate intoChecked querier msg = .ok s0) :
    IdsBelow s0.lifecycle := by
  obtain ⟨hcount, -, hprops⟩ := instantiate_eq_ok h
  rw [State.lifecycle, hcount, hprops]
  exact idsBelow_empty

/-- At non-decreasing blocks, each proposal is executed or closed at most
once over a run from `instantiate`. -/
theorem settled_le_one (hS : CurrentStatusSpec L) (hE : IsExpiredSpec L)
    (hinit : instantiate L addrValidate intoChecked querier msg = .ok s0) (txs : List (Tx Exp))
    (hchain : List.IsChain (· ≤ ·) (txs.map fun tx => tx.env.block)) (p : ℕ) :
    ((run (step L) s0 txs).2.countP fun c => decide (c.1.msg.settled = some p)) ≤ 1 :=
  run_settled_le_one State.lifecycle (fun tx => tx.env.block) (fun tx => tx.msg.settled)
    (fun _ _ _ _ h => step_lifecycle h) hS hE txs hchain (instantiate_idsBelow hinit) p

/-- A proposal executed after a run from `instantiate` stays as it is
through any further run. -/
theorem executed_stays (hS : CurrentStatusSpec L)
    (hinit : instantiate L addrValidate intoChecked querier msg = .ok s0)
    (pre post : List (Tx Exp)) {p : ℕ} {pr : Proposal Exp Thr Dep}
    (hp : (run (step L) s0 pre).1.proposals.lookup p = some pr) (hx : pr.status = .executed) :
    (run (step L) s0 (pre ++ post)).1.proposals.lookup p = some pr := by
  have hlife : ∀ s tx s' ms, step L s tx = .ok (s', ms) →
      Lifecycle L tx.env.block s.lifecycle tx.msg.settled s'.lifecycle :=
    fun _ _ _ _ h => step_lifecycle h
  have hbelow := run_idsBelow State.lifecycle (fun tx => tx.env.block) (fun tx => tx.msg.settled)
    hlife pre (instantiate_idsBelow hinit)
  rw [run_append]
  exact run_executed_stays State.lifecycle (fun tx => tx.env.block) (fun tx => tx.msg.settled)
    hlife hS post hbelow hp hx

end reachable

-- ================================================= both multisigs

/-- In both multisigs, over runs from `instantiate` at non-decreasing
blocks, each proposal is executed or closed by at most one committed
transaction, and an executed proposal never changes again. Only a
committed `Execute` sends a proposal's messages, and in the flex
multisig only an `Execute` or a `Close` returns a deposit: so a
proposal's messages are dispatched at most once, a closed proposal is
never executed, and the flex deposit is returned at most once. -/
theorem proposals_settled_at_most_once {UDep : Type}
    {Lx : Cw3Lib Exp Dur Thr Empty} (hSx : CurrentStatusSpec Lx) (hEx : IsExpiredSpec Lx)
    (hSf : CurrentStatusSpec L) (hEf : IsExpiredSpec L)
    {addrValidate : String → Except StdError Unit}
    {msgx : Cw3Fixed.InstantiateMsg Dur Thr} {sx : Cw3Fixed.State Exp Dur Thr}
    (hx : Cw3Fixed.instantiate Lx addrValidate msgx = .ok sx)
    {intoChecked : UDep → Except String Dep} {querier : Cw4Querier}
    {msgf : InstantiateMsg Dur Thr UDep} {sf : State Exp Dur Thr Dep}
    (hf : instantiate L addrValidate intoChecked querier msgf = .ok sf)
    (txsx : List (Cw3Fixed.Tx Exp)) (txsf : List (Tx Exp))
    (hchx : List.IsChain (· ≤ ·) (txsx.map fun tx => tx.env.block))
    (hchf : List.IsChain (· ≤ ·) (txsf.map fun tx => tx.env.block)) (p : ℕ) :
    ((run (Cw3Fixed.step Lx) sx txsx).2.countP fun c => decide (c.1.msg.settled = some p)) ≤ 1
      ∧ ((run (step L) sf txsf).2.countP fun c => decide (c.1.msg.settled = some p)) ≤ 1
      ∧ (∀ pre post pr, (run (Cw3Fixed.step Lx) sx pre).1.proposals.lookup p = some pr →
          pr.status = .executed →
          (run (Cw3Fixed.step Lx) sx (pre ++ post)).1.proposals.lookup p = some pr)
      ∧ (∀ pre post pr, (run (step L) sf pre).1.proposals.lookup p = some pr →
          pr.status = .executed → (run (step L) sf (pre ++ post)).1.proposals.lookup p = some pr)
      ∧ (∀ c ∈ trace (Cw3Fixed.step Lx) sx txsx, Cw3Fixed.Dispatch c)
      ∧ (∀ c ∈ trace (step L) sf txsf, Dispatch L c) :=
  ⟨Cw3Fixed.settled_le_one hSx hEx hx txsx hchx p, settled_le_one hSf hEf hf txsf hchf p,
    fun pre post _ hp hexec => Cw3Fixed.executed_stays hSx hx pre post hp hexec,
    fun pre post _ hp hexec => executed_stays hSf hf pre post hp hexec,
    fun _ hc => Cw3Fixed.dispatch_of_step (exec_of_mem_trace hc),
    fun _ hc => dispatch_of_step (exec_of_mem_trace hc)⟩

/-- The group of the flex multisig in `settleFlexTxs`: alice, of weight 1. -/
def aliceGroup : Cw4Querier :=
  ⟨fun addr _ => if addr = "alice" then some 1 else none,
    fun addr _ => if addr = "alice" then some 1 else none, 1⟩

/-- A fixed multisig of one voter, alice, passing at weight 1, after
`instantiate`. -/
def aliceFixed : Cw3Fixed.State Expiration Duration ℕ :=
  ⟨⟨1, 1, .height 10⟩, 0, ∅, ∅, (∅ : Store String ℕ).insert "alice" 1⟩

/-- A flex multisig over `aliceGroup`, passing at weight 1, after
`instantiate`. -/
def aliceFlex : State Expiration Duration ℕ Unit :=
  ⟨⟨1, .height 10, "group", none, none⟩, 0, ∅, ∅⟩

/-- Alice proposes and bob executes proposal 1, then bob tries to execute
it again and to close it after its expiration. -/
def settleFixedTxs : List (Cw3Fixed.Tx Expiration) :=
  [⟨⟨⟨1, 1⟩, "fixed"⟩, ⟨"alice", []⟩, .propose "p" "d" [] none⟩,
   ⟨⟨⟨2, 2⟩, "fixed"⟩, ⟨"bob", []⟩, .execute 1⟩,
   ⟨⟨⟨3, 3⟩, "fixed"⟩, ⟨"bob", []⟩, .execute 1⟩,
   ⟨⟨⟨20, 20⟩, "fixed"⟩, ⟨"bob", []⟩, .close 1⟩]

/-- The same on the flex multisig. -/
def settleFlexTxs : List (Tx Expiration) :=
  [⟨⟨⟨1, 1⟩, "flex"⟩, ⟨"alice", []⟩, .propose "p" "d" [] none, aliceGroup⟩,
   ⟨⟨⟨2, 2⟩, "flex"⟩, ⟨"bob", []⟩, .execute 1, aliceGroup⟩,
   ⟨⟨⟨3, 3⟩, "flex"⟩, ⟨"bob", []⟩, .execute 1, aliceGroup⟩,
   ⟨⟨⟨20, 20⟩, "flex"⟩, ⟨"bob", []⟩, .close 1, aliceGroup⟩]

theorem proposals_settled_at_most_once_absoluteCount :
    CurrentStatusSpec (Cw3Lib.absoluteCount Empty) ∧ IsExpiredSpec (Cw3Lib.absoluteCount Empty)
      ∧ CurrentStatusSpec (Cw3Lib.absoluteCount Unit) ∧ IsExpiredSpec (Cw3Lib.absoluteCount Unit)
      ∧ Cw3Fixed.instantiate (Cw3Lib.absoluteCount Empty) (fun _ => .ok ())
          ⟨[⟨"alice", 1⟩], 1, .height 10⟩ = .ok aliceFixed
      ∧ instantiate (Cw3Lib.absoluteCount Unit) (fun _ => .ok ()) (fun (d : Unit) => .ok d)
          aliceGroup ⟨"group", 1, .height 10, none, none⟩ = .ok aliceFlex
      ∧ List.IsChain (· ≤ ·) (settleFixedTxs.map fun tx => tx.env.block)
      ∧ List.IsChain (· ≤ ·) (settleFlexTxs.map fun tx => tx.env.block)
      ∧ ((run (Cw3Fixed.step (Cw3Lib.absoluteCount Empty)) aliceFixed settleFixedTxs).2.countP
            fun c => decide (c.1.msg.settled = some 1)) ≤ 1
        ∧ ((run (step (Cw3Lib.absoluteCount Unit)) aliceFlex settleFlexTxs).2.countP
            fun c => decide (c.1.msg.settled = some 1)) ≤ 1
        ∧ (∀ pre post pr,
            (run (Cw3Fixed.step (Cw3Lib.absoluteCount Empty)) aliceFixed pre).1.proposals.lookup 1
              = some pr → pr.status = .executed →
            (run (Cw3Fixed.step (Cw3Lib.absoluteCount Empty)) aliceFixed
              (pre ++ post)).1.proposals.lookup 1 = some pr)
        ∧ (∀ pre post pr,
            (run (step (Cw3Lib.absoluteCount Unit)) aliceFlex pre).1.proposals.lookup 1 = some pr →
            pr.status = .executed →
            (run (step (Cw3Lib.absoluteCount Unit)) aliceFlex (pre ++ post)).1.proposals.lookup 1
              = some pr)
        ∧ (∀ c ∈ trace (Cw3Fixed.step (Cw3Lib.absoluteCount Empty)) aliceFixed settleFixedTxs,
            Cw3Fixed.Dispatch c)
        ∧ (∀ c ∈ trace (step (Cw3Lib.absoluteCount Unit)) aliceFlex settleFlexTxs,
            Dispatch (Cw3Lib.absoluteCount Unit) c) := by
  refine ⟨absoluteCount_currentStatus, absoluteCount_isExpired, absoluteCount_currentStatus,
    absoluteCount_isExpired, ?hx, ?hf, by decide, by decide,
    proposals_settled_at_most_once absoluteCount_currentStatus absoluteCount_isExpired
      absoluteCount_currentStatus absoluteCount_isExpired ?hx ?hf settleFixedTxs settleFlexTxs
      (by decide) (by decide) 1⟩
  · rfl
  · rfl

-- only the first execution commits: the second finds the proposal
-- executed, and the close finds it not open
example : ((run (step (Cw3Lib.absoluteCount Unit)) aliceFlex settleFlexTxs).2.countP
    fun c => decide (c.1.msg.settled = some 1)) = 1 := by decide

end NibiruWasm.Cw3Flex
