/-
Who may do what in core-shifter.

One inversion lemma per arm of `execute` names the check that passed
and the effect. The x/perp calls and `EditOpers` pass the same
`check_perms_operator`, so `ShifterAudit` holds of every committed
transaction: a Stargate message, and any change to `OPERATORS`, comes
from a sender that is an operator or the owner at that moment, and the
ownership moves only by `update_ownership`.

`EditOpers` is not reserved to the owner: an operator who is not the
owner adds and removes operators, as the run `operatorEditTxs` shows
from `instantiate` on (`operator_edits_operators`).
-/
import NibiruWasm.Shifter.Contract
import NibiruWasm.Ownable.Proofs
import NibiruWasm.Cosmwasm.DecimalFormat

namespace NibiruWasm.Shifter

open Cosmwasm Chain CwUtils Ownable NibiruStd Text

variable {svc : Services} {s s' : State} {ms : List CosmosMsg} {env : Env} {info : MessageInfo}

-- ================================================ the permission check

theorem Permissions.has_load {addr : String} :
    (Permissions.load s).has addr = true ↔ addr ∈ s.operators ∨ s.ownership.owner = some addr := by
  unfold Permissions.has Permissions.isOperator Permissions.isOwner Permissions.load
  cases hown : s.ownership.owner with
  | none => simp
  | some owner => simp

@[simp] theorem checkPermsOperator_eq_ok {sender : String} {u : Unit} :
    (CanExecute.new s sender).checkPermsOperator = .ok u ↔ (Permissions.load s).has sender = true := by
  simp only [CanExecute.checkPermsOperator, CanExecute.new, Permissions.has]
  cases (Permissions.load s).isOperator sender || (Permissions.load s).isOwner sender <;> simp

-- ========================================================== handlers

theorem shiftSwapInvariant_eq_ok {pair : String} {newSwapInvariant : ℕ}
    (h : execute svc s env info (.shiftSwapInvariant pair newSwapInvariant) = .ok (s', ms)) :
    (Permissions.load s).has info.sender = true ∧ s' = s
      ∧ ms = [(PerpMsg.shiftSwapInvariant env.contractAddress pair
          (String.ofList (render newSwapInvariant))).intoStargateMsg svc] := by
  simp only [execute, bind_eq_ok, checkPermsOperator_eq_ok, pure_eq_ok, Prod.mk.injEq] at h
  obtain ⟨-, hperms, hs, hms⟩ := h
  exact ⟨hperms, hs.symm, hms.symm⟩

theorem shiftPegMultiplier_eq_ok {pair newPegMult : String}
    (h : execute svc s env info (.shiftPegMultiplier pair newPegMult) = .ok (s', ms)) :
    (Permissions.load s).has info.sender = true ∧ s' = s
      ∧ ∃ sdkDec, SdkDec.fromStr svc.decimalLib newPegMult.toList = .ok sdkDec
        ∧ ms = [(PerpMsg.shiftPegMultiplier env.contractAddress pair
            (String.ofList sdkDec.pbRepr)).intoStargateMsg svc] := by
  simp only [execute, bind_eq_ok, checkPermsOperator_eq_ok, mapError_eq_ok, pure_eq_ok,
    Prod.mk.injEq] at h
  obtain ⟨-, hperms, sdkDec, hdec, hs, hms⟩ := h
  exact ⟨hperms, hs.symm, sdkDec, hdec, hms.symm⟩

theorem editOpers_eq_ok {action : OperAction}
    (h : execute svc s env info (.editOpers action) = .ok (s', ms)) :
    (Permissions.load s).has info.sender = true ∧ s'.ownership = s.ownership ∧ ms = [] := by
  simp only [execute, bind_eq_ok, checkPermsOperator_eq_ok] at h
  obtain ⟨-, hperms, hedit⟩ := h
  refine ⟨hperms, ?_⟩
  cases action with
  | addOper address =>
      simp only [editOpers, bind_eq_ok, mapError_eq_ok, pure_eq_ok, Prod.mk.injEq] at hedit
      obtain ⟨-, -, rfl, rfl⟩ := hedit
      exact ⟨rfl, rfl⟩
  | removeOper address =>
      simp only [editOpers, pure_eq_ok, Prod.mk.injEq] at hedit
      obtain ⟨rfl, rfl⟩ := hedit
      exact ⟨rfl, rfl⟩

theorem updateOwnership_eq_ok {action : Action}
    (h : execute svc s env info (.updateOwnership action) = .ok (s', ms)) :
    ∃ o', updateOwnership s.ownership env.block info.sender action = .ok o'
      ∧ s' = { s with ownership := o' } ∧ ms = [] := by
  simp only [execute, executeUpdateOwnership, mapError_eq_ok, bind_eq_ok, pure_eq_ok,
    Prod.mk.injEq] at h
  obtain ⟨o', hupd, hs, hms⟩ := h
  exact ⟨o', hupd, hs.symm, hms.symm⟩

-- ============================================================== audit

/-- The permission rules of core-shifter for one committed
transaction: it emits a message only as one Stargate x/perp call, for a
sender that is an operator or the owner; the operator set changes only
by `EditOpers` from such a sender; and the ownership changes only by
`update_ownership`. -/
structure ShifterAudit (svc : Services) (c : Commit State Tx CosmosMsg) : Prop where
  stargate : c.msgs ≠ [] → (Permissions.load c.pre).has c.tx.info.sender = true
    ∧ ((∃ pair n, c.tx.msg = .shiftSwapInvariant pair n) ∨ ∃ pair p, c.tx.msg = .shiftPegMultiplier pair p)
    ∧ ∃ perpMsg : PerpMsg, c.msgs = [perpMsg.intoStargateMsg svc]
  operators : c.post.operators ≠ c.pre.operators →
    (∃ action, c.tx.msg = .editOpers action) ∧ (Permissions.load c.pre).has c.tx.info.sender = true
  ownership : c.post.ownership ≠ c.pre.ownership →
    ∃ action, c.tx.msg = .updateOwnership action
      ∧ updateOwnership c.pre.ownership c.tx.env.block c.tx.info.sender action = .ok c.post.ownership

theorem shifterAudit_of_step {tx : Tx} (h : step svc s tx = .ok (s', ms)) :
    ShifterAudit svc ⟨s, tx, s', ms⟩ := by
  obtain ⟨env, info, msg⟩ := tx
  cases msg with
  | shiftSwapInvariant pair n =>
      obtain ⟨hperms, rfl, rfl⟩ := shiftSwapInvariant_eq_ok h
      exact ⟨fun _ => ⟨hperms, .inl ⟨pair, n, rfl⟩, _, rfl⟩, fun h => absurd rfl h,
        fun h => absurd rfl h⟩
  | shiftPegMultiplier pair p =>
      obtain ⟨hperms, rfl, sdkDec, -, rfl⟩ := shiftPegMultiplier_eq_ok h
      exact ⟨fun _ => ⟨hperms, .inr ⟨pair, p, rfl⟩, _, rfl⟩, fun h => absurd rfl h,
        fun h => absurd rfl h⟩
  | editOpers action =>
      obtain ⟨hperms, hown, rfl⟩ := editOpers_eq_ok h
      exact ⟨fun h => absurd rfl h, fun _ => ⟨⟨action, rfl⟩, hperms⟩, fun h => absurd hown h⟩
  | updateOwnership action =>
      obtain ⟨o', hupd, rfl, rfl⟩ := updateOwnership_eq_ok h
      exact ⟨fun h => absurd rfl h, fun h => absurd rfl h, fun _ => ⟨action, rfl, hupd⟩⟩

/-- In every run of core-shifter from `instantiate`, by any senders in
any order, every committed transaction keeps the permission rules: the
x/perp Stargate calls and the operator edits come from senders that are
operators or the owner when they send. -/
theorem shifter_permissions (svc : Services) (msg : InitMsg) (txs : List Tx) :
    ∀ c ∈ trace (step svc) (instantiate msg) txs, ShifterAudit svc c :=
  fun _ hc => shifterAudit_of_step (exec_of_mem_trace hc)

-- ===================================================== the operator run

/-- Services whose `Api` accepts every address. -/
def acceptingServices : Services := ⟨fun address => .ok address, fun _ => "", DecimalLib.std⟩

/-- The owner `admin` makes `op` an operator; then `op`, not the owner,
makes `op2` one. -/
def operatorEditTxs : List Tx :=
  [⟨⟨⟨1, 1⟩, "shifter"⟩, ⟨"admin", []⟩, .editOpers (.addOper "op")⟩,
   ⟨⟨⟨2, 2⟩, "shifter"⟩, ⟨"op", []⟩, .editOpers (.addOper "op2")⟩]

/-- The permission rules at the second commit of `operatorEditTxs`,
sent by `op`. -/
theorem shifter_permissions_operatorEdit :
    ∃ c ∈ trace (step acceptingServices) (instantiate ⟨"admin"⟩) operatorEditTxs,
      c.tx.info.sender = "op" ∧ ShifterAudit acceptingServices c := by
  have hlen : 1 < (trace (step acceptingServices) (instantiate ⟨"admin"⟩) operatorEditTxs).length := by
    decide
  exact ⟨_, List.getElem_mem hlen, by decide +revert,
    shifter_permissions acceptingServices ⟨"admin"⟩ operatorEditTxs _ (List.getElem_mem hlen)⟩

/-- From `instantiate` with owner `admin`, both edits of
`operatorEditTxs` commit: the second, sent by `op` while `admin` owns
the contract, changes `OPERATORS` from `{op}` to `{op, op2}`. -/
theorem operator_edits_operators :
    (trace (step acceptingServices) (instantiate ⟨"admin"⟩) operatorEditTxs).map
        (fun c => (c.tx.info.sender, c.pre.ownership.owner, c.pre.operators, c.post.operators))
      = [("admin", some "admin", ∅, {"op"}), ("op", some "admin", {"op"}, {"op", "op2"})] := by
  decide

end NibiruWasm.Shifter
