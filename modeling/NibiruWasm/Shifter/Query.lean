/-
core-shifter's queries (`contract.rs`, `query`).

`Perms` answers the owner and the operators. `HasPerms` answers, with
them, whether the address is an operator, `Permissions::is_operator`,
and not `Permissions::has`, which the execute messages check: the
owner, whom `check_perms_operator` admits, is answered `false` unless an
`EditOpers` made it an operator too. `Permissions::load` cannot fail
once `instantiate` has saved both items. The JSON encoding of the
answer is left out.

Over a run from `instantiate`, `HasPerms` answers what the committed
operator edits say (`hasPerms_of_edits`): `AddOper` inserts the address
the `Api` validates, `RemoveOper` erases the address as given, and the
last committed edit that names an address decides its answer.
-/
import NibiruWasm.Shifter.Proofs

namespace NibiruWasm.Shifter

open Cosmwasm Chain

/-- `QueryMsg`. -/
inductive QueryMsg
  | hasPerms (address : String)
  | perms
  deriving DecidableEq, Repr

/-- `operator_perms::HasPermsResponse`. -/
structure HasPermsResponse where
  hasPerms : Bool
  addr : String
  perms : Permissions

/-- What `query` answers: `HasPermsResponse` and `PermsResponse`. -/
inductive QueryResponse
  | hasPerms (r : HasPermsResponse)
  | perms (perms : Permissions)

/-- The `HasPerms` arm. -/
def queryHasPerms (s : State) (address : String) : HasPermsResponse :=
  let perms := Permissions.load s
  { hasPerms := perms.isOperator address, addr := address, perms }

/-- `query`. -/
def query (s : State) : QueryMsg → QueryResponse
  | .hasPerms address => .hasPerms (queryHasPerms s address)
  | .perms => .perms (Permissions.load s)

-- ====================================== the operators after a run

variable {svc : Services} {s s' : State} {ms : List CosmosMsg} {env : Env} {info : MessageInfo}

/-- What a message says of whether `x` is an operator: `some true` for
an `AddOper` whose address the `Api` validates to `x`, `some false` for
a `RemoveOper` of `x`, `none` for a message that leaves `x` alone. -/
def ExecuteMsg.operatorEdit (svc : Services) (x : String) : ExecuteMsg → Option Bool
  | .editOpers (.addOper address) => if svc.addrValidate address = .ok x then some true else none
  | .editOpers (.removeOper address) => if address = x then some false else none
  | _ => none

theorem addOper_operators {address : String}
    (h : execute svc s env info (.editOpers (.addOper address)) = .ok (s', ms)) :
    ∃ addr, svc.addrValidate address = .ok addr ∧ s'.operators = insert addr s.operators := by
  simp only [execute, bind_eq_ok, checkPermsOperator_eq_ok, editOpers, mapError_eq_ok,
    pure_eq_ok, Prod.mk.injEq] at h
  obtain ⟨-, -, addr, haddr, rfl, -⟩ := h
  exact ⟨addr, haddr, rfl⟩

theorem removeOper_operators {address : String}
    (h : execute svc s env info (.editOpers (.removeOper address)) = .ok (s', ms)) :
    s'.operators = s.operators.erase address := by
  simp only [execute, bind_eq_ok, checkPermsOperator_eq_ok, editOpers, pure_eq_ok,
    Prod.mk.injEq] at h
  obtain ⟨-, -, rfl, -⟩ := h
  rfl

/-- One committed step moves whether `x` is an operator as its message
says. -/
theorem step_operatorEdit {tx : Tx} (x : String) (h : step svc s tx = .ok (s', ms)) :
    decide (x ∈ s'.operators) = (tx.msg.operatorEdit svc x).getD (decide (x ∈ s.operators)) := by
  obtain ⟨env, info, msg⟩ := tx
  cases msg with
  | shiftSwapInvariant pair n =>
      obtain ⟨-, rfl, -⟩ := shiftSwapInvariant_eq_ok h
      rfl
  | shiftPegMultiplier pair p =>
      obtain ⟨-, rfl, -⟩ := shiftPegMultiplier_eq_ok h
      rfl
  | updateOwnership action =>
      obtain ⟨o', -, rfl, -⟩ := updateOwnership_eq_ok h
      rfl
  | editOpers action =>
      cases action with
      | addOper address =>
          obtain ⟨addr, haddr, hops⟩ := addOper_operators h
          rw [hops]
          -- the inserted address is `x` exactly when the `Api` validates the address to `x`
          by_cases hx : addr = x
          · subst hx
            simp [ExecuteMsg.operatorEdit, haddr]
          · have hne : svc.addrValidate address ≠ .ok x := by
              rw [haddr]
              exact fun h => hx (Except.ok.inj h)
            simp [ExecuteMsg.operatorEdit, hne, Finset.mem_insert, Ne.symm hx]
      | removeOper address =>
          rw [removeOper_operators h]
          by_cases hx : address = x
          · subst hx
            simp [ExecuteMsg.operatorEdit]
          · simp [ExecuteMsg.operatorEdit, hx, Finset.mem_erase, Ne.symm hx]

/-- After any run from `instantiate`, `HasPerms` answers `true` for an
address exactly when the last committed operator edit naming it added
it; with no such edit it answers `false`, also for the owner. Every
committed edit came from an operator or the owner. -/
theorem hasPerms_of_edits (svc : Services) (msg : InitMsg) (txs : List Tx) (x : String) :
    (queryHasPerms (run (step svc) (instantiate msg) txs).1 x).hasPerms
        = ((run (step svc) (instantiate msg) txs).2.map (·.1.msg)).foldl
            (fun b m => (m.operatorEdit svc x).getD b) false
      ∧ ∀ c ∈ trace (step svc) (instantiate msg) txs, ∀ action, c.tx.msg = .editOpers action →
          (Permissions.load c.pre).has c.tx.info.sender = true := by
  refine ⟨?_, fun c hc action hmsg => ?_⟩
  · have hrun := run_observe_foldl (fun s : State => decide (x ∈ s.operators))
      (fun b tx => (tx.msg.operatorEdit svc x).getD b)
      (fun _ _ _ _ h => step_operatorEdit x h) (instantiate msg) txs
    -- `instantiate` saves no operators
    have h0 : decide (x ∈ (instantiate msg).operators) = false := by
      simp [instantiate, instantiatePerms]
    rw [h0, List.foldl_map] at hrun
    rw [List.foldl_map]
    exact hrun
  · have hstep := exec_of_mem_trace hc
    rw [step, hmsg] at hstep
    exact (editOpers_eq_ok hstep).1

-- the owner of a fresh contract passes the check, and `HasPerms` answers no
example : (CanExecute.new (instantiate ⟨"admin"⟩) "admin").checkPermsOperator = .ok ()
    ∧ (queryHasPerms (instantiate ⟨"admin"⟩) "admin").hasPerms = false := by
  decide

end NibiruWasm.Shifter
