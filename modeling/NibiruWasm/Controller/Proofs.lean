/-
Who edits the core-controller whitelist, and what it holds after a run.

`execute_eq_ok` says once what a committed transaction can be: an edit
sent by the admin of the stored whitelist, with no message. The four
deprecated messages never commit: a non-member is refused by
`check_member`, and a member reaches `todo!()` (`executePerp_eq_error`).
So along every run, from any whitelist, each committed transaction is
one of the admin's three edits (`committed_by_admin`).

Each edit names one address, and an address's membership is decided by
the last edit that names it: added by `AddMember` and by `ChangeAdmin`,
removed by `RemoveMember` (`ExecuteMsg.membership`); the admin is the
one the last `ChangeAdmin` named (`ExecuteMsg.newAdmin`). After any run
the whitelist is what the committed edits say (`whitelist_of_edits`),
through the fold rule `run_observe_foldl`.
-/
import NibiruWasm.Controller.Contract
import NibiruWasm.Chain.Run
import NibiruWasm.Chain.Except

namespace NibiruWasm.Controller

open Cosmwasm Chain

variable {wl wl' : Whitelist} {env : Env} {info : MessageInfo} {msg : ExecuteMsg}
  {ms : List CosmosMsg}

@[simp] theorem canExecute_whitelist (sender : String) :
    (canExecute wl sender).whitelist = wl := rfl

/-- `check_admin` passes exactly for the admin. -/
theorem checkAdmin_eq_ok {sender : String} :
    checkAdmin (canExecute wl sender) = .ok () ↔ sender = wl.admin := by
  unfold checkAdmin canExecute Whitelist.isAdmin
  by_cases h : wl.admin = sender
  · simp [h]
  · simp [h, Ne.symm h]

/-- The deprecated arms fail: a non-member with `check_member`'s error,
a member with the panic of `todo!()`. -/
theorem executePerp_eq_error (sender : String) :
    executePerp (canExecute wl sender) = .error (if sender ∈ wl.members
      then .panic "not yet implemented"
      else .genericErr ("unauthorized : sender " ++ sender ++ " is not a whitelist member")) := by
  unfold executePerp checkMember canExecute Whitelist.isMember
  by_cases h : sender ∈ wl.members
  · simp [h, throw, throwThe, MonadExceptOf.throw]
  · simp [h]

/-- What a committed transaction did: the admin of the stored whitelist
sent one of the three edits, and no message left. -/
theorem execute_eq_ok (h : execute wl env info msg = .ok (wl', ms)) :
    info.sender = wl.admin ∧ ms = []
      ∧ ((∃ a, msg = .addMember a ∧ wl' = { wl with members := insert a wl.members })
        ∨ (∃ a, msg = .removeMember a ∧ wl' = { wl with members := wl.members.erase a })
        ∨ (∃ a, msg = .changeAdmin a ∧ wl' = ⟨insert a wl.members, a⟩)) := by
  cases msg with
  | withdrawPerpFund amount toAddr =>
      rw [execute, executePerp_eq_error] at h
      cases h
  | setMarketEnabled pair enabled =>
      rw [execute, executePerp_eq_error] at h
      cases h
  | createMarket pair pegMult sqrtDepth =>
      rw [execute, executePerp_eq_error] at h
      cases h
  | editOracleParams =>
      rw [execute, executePerp_eq_error] at h
      cases h
  | addMember a =>
      simp only [execute, canExecute_whitelist, bind_eq_ok, pure_eq_ok, Prod.mk.injEq] at h
      obtain ⟨⟨⟩, hchk, rfl, rfl⟩ := h
      exact ⟨checkAdmin_eq_ok.mp hchk, rfl, .inl ⟨a, rfl, rfl⟩⟩
  | removeMember a =>
      simp only [execute, canExecute_whitelist, bind_eq_ok, pure_eq_ok, Prod.mk.injEq] at h
      obtain ⟨⟨⟩, hchk, rfl, rfl⟩ := h
      exact ⟨checkAdmin_eq_ok.mp hchk, rfl, .inr (.inl ⟨a, rfl, rfl⟩)⟩
  | changeAdmin a =>
      simp only [execute, canExecute_whitelist, bind_eq_ok, pure_eq_ok, Prod.mk.injEq] at h
      obtain ⟨⟨⟩, hchk, rfl, rfl⟩ := h
      exact ⟨checkAdmin_eq_ok.mp hchk, rfl, .inr (.inr ⟨a, rfl, rfl⟩)⟩

/-- Along every run, from any whitelist, every committed transaction was
sent by the admin of the whitelist it started from, emitted no message,
and was `AddMember`, `RemoveMember` or `ChangeAdmin` with its effect on
the whitelist; so the four x/perp and x/oracle messages never commit,
and no one but the admin of the moment changes the whitelist. -/
theorem committed_by_admin (s : Whitelist) (txs : List Tx) :
    ∀ c ∈ trace step s txs, c.tx.info.sender = c.pre.admin ∧ c.msgs = []
      ∧ ((∃ a, c.tx.msg = .addMember a ∧ c.post = { c.pre with members := insert a c.pre.members })
        ∨ (∃ a, c.tx.msg = .removeMember a
            ∧ c.post = { c.pre with members := c.pre.members.erase a })
        ∨ (∃ a, c.tx.msg = .changeAdmin a ∧ c.post = ⟨insert a c.pre.members, a⟩)) :=
  fun _ hc => execute_eq_ok (exec_of_mem_trace hc)

/-- `cait` adds `alice`; `alice`, a member, tries `SetMarketEnabled`;
`cait` hands the admin over to `brock`, who removes `cait`. -/
def handoverTxs : List Tx :=
  [⟨⟨⟨1, 1⟩, "controller"⟩, ⟨"cait", []⟩, .addMember "alice"⟩,
    ⟨⟨⟨2, 2⟩, "controller"⟩, ⟨"alice", []⟩, .setMarketEnabled "ubtc:unusd" false⟩,
    ⟨⟨⟨3, 3⟩, "controller"⟩, ⟨"cait", []⟩, .changeAdmin "brock"⟩,
    ⟨⟨⟨4, 4⟩, "controller"⟩, ⟨"brock", []⟩, .removeMember "cait"⟩]

/-- The rules at the last commit of `handoverTxs`, sent by `brock`. -/
theorem committed_by_admin_handover :
    ∃ c ∈ trace step (instantiate ⟨"cait"⟩) handoverTxs, c.tx.info.sender = "brock"
      ∧ c.tx.info.sender = c.pre.admin ∧ c.msgs = []
      ∧ ((∃ a, c.tx.msg = .addMember a ∧ c.post = { c.pre with members := insert a c.pre.members })
        ∨ (∃ a, c.tx.msg = .removeMember a
            ∧ c.post = { c.pre with members := c.pre.members.erase a })
        ∨ (∃ a, c.tx.msg = .changeAdmin a ∧ c.post = ⟨insert a c.pre.members, a⟩)) := by
  have hlen : 2 < (trace step (instantiate ⟨"cait"⟩) handoverTxs).length := by
    decide
  exact ⟨_, List.getElem_mem hlen, by decide +revert,
    committed_by_admin _ handoverTxs _ (List.getElem_mem hlen)⟩

-- alice's `SetMarketEnabled` fails, so three transactions commit
example : (trace step (instantiate ⟨"cait"⟩) handoverTxs).map (·.tx.info.sender)
    = ["cait", "cait", "brock"] := by
  decide

-- ============================================ the whitelist after a run

/-- What an edit says of an address's membership: `some true` where it
adds the address, `some false` where it removes it, `none` where it does
not name it. -/
def ExecuteMsg.membership (addr : String) : ExecuteMsg → Option Bool
  | .addMember a => if a = addr then some true else none
  | .changeAdmin a => if a = addr then some true else none
  | .removeMember a => if a = addr then some false else none
  | _ => none

/-- The admin an edit names, if it is a `ChangeAdmin`. -/
def ExecuteMsg.newAdmin : ExecuteMsg → Option String
  | .changeAdmin a => some a
  | _ => none

/-- One committed step moves each address's membership as its edit
says. -/
theorem step_membership {tx : Tx} (addr : String) (h : step wl tx = .ok (wl', ms)) :
    decide (addr ∈ wl'.members) = (tx.msg.membership addr).getD (decide (addr ∈ wl.members)) := by
  obtain ⟨-, -, ⟨a, hmsg, rfl⟩ | ⟨a, hmsg, rfl⟩ | ⟨a, hmsg, rfl⟩⟩ := execute_eq_ok h
  -- the edit names `addr`, or leaves its membership alone
  all_goals
    rw [hmsg]
    by_cases ha : a = addr
    · subst ha
      simp [ExecuteMsg.membership]
  · simp [ExecuteMsg.membership, ha, Finset.mem_insert, Ne.symm ha]
  · simp [ExecuteMsg.membership, ha, Finset.mem_erase, Ne.symm ha]
  · simp [ExecuteMsg.membership, ha, Finset.mem_insert, Ne.symm ha]

/-- One committed step changes the admin only by `ChangeAdmin`. -/
theorem step_admin {tx : Tx} (h : step wl tx = .ok (wl', ms)) :
    wl'.admin = tx.msg.newAdmin.getD wl.admin := by
  obtain ⟨-, -, ⟨a, hmsg, rfl⟩ | ⟨a, hmsg, rfl⟩ | ⟨a, hmsg, rfl⟩⟩ := execute_eq_ok h
  all_goals
    rw [hmsg]
    rfl

/-- After any run, from any whitelist, the whitelist is what the
committed edits say: an address is a member exactly when the last
committed edit naming it added it, or none names it and it was a member
at the start; the admin is the one the last committed `ChangeAdmin`
named, or the admin at the start. -/
theorem whitelist_of_edits (s : Whitelist) (txs : List Tx) :
    (∀ addr, decide (addr ∈ (run step s txs).1.members)
      = ((run step s txs).2.map (·.1.msg)).foldl (fun b msg => (msg.membership addr).getD b)
          (decide (addr ∈ s.members)))
    ∧ (run step s txs).1.admin
      = ((run step s txs).2.map (·.1.msg)).foldl (fun adm msg => msg.newAdmin.getD adm)
          s.admin := by
  refine ⟨fun addr => ?_, ?_⟩
  · have hrun := run_observe_foldl (fun wl : Whitelist => decide (addr ∈ wl.members))
      (fun b tx => (tx.msg.membership addr).getD b)
      (fun _ _ _ _ h => step_membership addr h) s txs
    rw [hrun, List.foldl_map, List.foldl_map]
  · have hrun := run_observe_foldl Whitelist.admin (fun adm tx => tx.msg.newAdmin.getD adm)
      (fun _ _ _ _ h => step_admin h) s txs
    rw [hrun, List.foldl_map, List.foldl_map]

-- the admin removes itself: `IsMember` answers no, and it stays the admin
example : query (run step (instantiate ⟨"cait"⟩)
      [⟨⟨⟨1, 1⟩, "controller"⟩, ⟨"cait", []⟩, .removeMember "cait"⟩]).1 (.isMember "cait")
    = .isMember false ⟨∅, "cait"⟩ := by
  decide

end NibiruWasm.Controller
