/-
How ownership moves under nibiru-ownable.

One spec lemma per update says exactly when it commits and what it
stores. From them, for any sequence of updates by any senders at any
blocks:

- `Ownership.Consistent`: a transfer is pending only while there is an
  owner, so once the owner is gone nothing can commit again
  (`updateOwnership_of_owner_none`) and the ownership stays empty;
- `updateOwnership_owner_ne`: the owner changes to an account only when
  that account accepts the pending transfer before its deadline;
- `updateOwnership_pendingOwner`: a transfer is pending only right after
  the owner proposed it.

`ownership_transfer_discipline` puts these together over the history of
committed updates: the proposal is the committed update just before
the acceptance.
-/
import NibiruWasm.Ownable.Ownership
import NibiruWasm.Chain.Run
import NibiruWasm.Chain.Except

namespace NibiruWasm.Ownable

open Cosmwasm Chain CwUtils

variable {o o' : Ownership} {block : BlockInfo} {sender : String}

-- ===================================================== spec lemmas

@[simp] theorem checkOwner_eq_ok {u : Unit} :
    checkOwner o sender = .ok u ↔ o.owner = some sender := by
  unfold checkOwner
  cases h : o.owner with
  | none => simp
  | some owner =>
      by_cases hs : sender = owner
      · simp [hs]
      · simp [hs, Ne.symm hs]

theorem transferOwnership_eq_ok {newOwner : String} {expiry : Option Expiration} :
    transferOwnership o sender newOwner expiry = .ok o' ↔
      o.owner = some sender ∧ o' = { o with pendingOwner := some newOwner, pendingExpiry := expiry } := by
  simp only [transferOwnership, bind_eq_ok, checkOwner_eq_ok, pure_eq_ok, exists_const]
  exact and_congr_right fun _ => eq_comm

theorem acceptOwnership_eq_ok :
    acceptOwnership o block sender = .ok o' ↔
      o.pendingOwner = some sender ∧ pendingExpired o block = false ∧ o' = ⟨some sender, none, none⟩ := by
  unfold acceptOwnership
  cases hp : o.pendingOwner with
  | none => simp
  | some pending =>
      by_cases hs : sender = pending
      · subst hs
        cases pendingExpired o block <;> simp [eq_comm]
      · simp [hs, Ne.symm hs]

theorem renounceOwnership_eq_ok :
    renounceOwnership o sender = .ok o' ↔ o.owner = some sender ∧ o' = ⟨none, none, none⟩ := by
  simp only [renounceOwnership, bind_eq_ok, checkOwner_eq_ok, pure_eq_ok, exists_const]
  exact and_congr_right fun _ => eq_comm

-- ======================================================= invariant

/-- A transfer is pending only while there is an owner. -/
def Ownership.Consistent (o : Ownership) : Prop :=
  o.owner = none → o.pendingOwner = none

theorem initializeOwner_consistent (owner : Option String) :
    (initializeOwner owner).Consistent :=
  fun _ => rfl

theorem updateOwnership_consistent {action : Action}
    (h : updateOwnership o block sender action = .ok o') : o'.Consistent := by
  cases action with
  | transferOwnership newOwner expiry =>
      obtain ⟨hown, rfl⟩ := transferOwnership_eq_ok.mp h
      intro hnone
      simp [hown] at hnone
  | acceptOwnership =>
      obtain ⟨-, -, rfl⟩ := acceptOwnership_eq_ok.mp h
      intro hnone
      cases hnone
  | renounceOwnership =>
      obtain ⟨-, rfl⟩ := renounceOwnership_eq_ok.mp h
      intro _
      rfl

/-- Without an owner, and so without a pending transfer, no update
commits. -/
theorem updateOwnership_of_owner_none {action : Action} (hc : o.Consistent)
    (hnone : o.owner = none) : updateOwnership o block sender action ≠ .ok o' := by
  intro h
  cases action with
  | transferOwnership newOwner expiry =>
      obtain ⟨hown, -⟩ := transferOwnership_eq_ok.mp h
      simp [hnone] at hown
  | acceptOwnership =>
      obtain ⟨hpend, -, -⟩ := acceptOwnership_eq_ok.mp h
      simp [hc hnone] at hpend
  | renounceOwnership =>
      obtain ⟨hown, -⟩ := renounceOwnership_eq_ok.mp h
      simp [hnone] at hown

-- ================================================== who may change

/-- The owner becomes an account only by that account's acceptance of
the transfer pending to it, before the transfer's deadline. -/
theorem updateOwnership_owner_ne {action : Action} {x : String}
    (h : updateOwnership o block sender action = .ok o') (hx : o'.owner = some x)
    (hne : o.owner ≠ some x) :
    action = .acceptOwnership ∧ sender = x ∧ o.pendingOwner = some x
      ∧ pendingExpired o block = false := by
  cases action with
  | transferOwnership newOwner expiry =>
      -- a proposal leaves the owner alone
      obtain ⟨-, rfl⟩ := transferOwnership_eq_ok.mp h
      exact absurd hx hne
  | acceptOwnership =>
      obtain ⟨hpend, hexp, rfl⟩ := acceptOwnership_eq_ok.mp h
      obtain rfl : sender = x := Option.some.inj hx
      exact ⟨rfl, rfl, hpend, hexp⟩
  | renounceOwnership =>
      obtain ⟨-, rfl⟩ := renounceOwnership_eq_ok.mp h
      cases hx

/-- A transfer is pending after an update only if the update was the
owner's proposal of it. -/
theorem updateOwnership_pendingOwner {action : Action} {x : String}
    (h : updateOwnership o block sender action = .ok o') (hx : o'.pendingOwner = some x) :
    action = .transferOwnership x o'.pendingExpiry ∧ o.owner = some sender := by
  cases action with
  | transferOwnership newOwner expiry =>
      obtain ⟨hown, rfl⟩ := transferOwnership_eq_ok.mp h
      obtain rfl : newOwner = x := Option.some.inj hx
      exact ⟨rfl, hown⟩
  | acceptOwnership =>
      obtain ⟨-, -, rfl⟩ := acceptOwnership_eq_ok.mp h
      cases hx
  | renounceOwnership =>
      obtain ⟨-, rfl⟩ := renounceOwnership_eq_ok.mp h
      cases hx

theorem step_eq_ok {tx : Tx} {ms : List CosmosMsg} (h : step o tx = .ok (o', ms)) :
    updateOwnership o tx.block tx.sender tx.action = .ok o' := by
  obtain ⟨o'', hupd, hpair⟩ := map_eq_ok.mp h
  cases hpair
  exact hupd

-- ============================================================= runs

/-- The committed updates of a contract whose owner was initialized to
`owner0`, with the ownership before and after each. -/
def history (owner0 : Option String) (txs : List Tx) : List (Commit Ownership Tx CosmosMsg) :=
  trace step (initializeOwner owner0) txs

theorem run_consistent (owner0 : Option String) (txs : List Tx) :
    (run step (initializeOwner owner0) txs).1.Consistent :=
  run_invariant Ownership.Consistent (fun _ _ _ _ _ h => updateOwnership_consistent (step_eq_ok h))
    txs (initializeOwner_consistent owner0)

/-- The owner of the `i`-th committed update's result, if new, accepted
the transfer the committed update just before proposed. -/
theorem history_owner_ne {owner0 : Option String} {txs : List Tx} {i : ℕ}
    {c : Commit Ownership Tx CosmosMsg} {x : String} (hc : (history owner0 txs)[i]? = some c)
    (hx : c.post.owner = some x) (hne : c.pre.owner ≠ some x) :
    c.tx.action = .acceptOwnership ∧ c.tx.sender = x ∧ c.pre.pendingOwner = some x
      ∧ pendingExpired c.pre c.tx.block = false
      ∧ ∃ c₀ expiry, 0 < i ∧ (history owner0 txs)[i - 1]? = some c₀
          ∧ c₀.tx.action = .transferOwnership x expiry ∧ c₀.pre.owner = some c₀.tx.sender
          ∧ c.pre.pendingExpiry = expiry := by
  have hstep := step_eq_ok (exec_of_mem_trace (List.mem_of_getElem? hc))
  obtain ⟨haction, hsender, hpend, hexp⟩ := updateOwnership_owner_ne hstep hx hne
  refine ⟨haction, hsender, hpend, hexp, ?_⟩
  cases i with
  | zero =>
      -- the first update starts from `initialize_owner`, which proposes nothing
      have hpre := trace_head_pre hc
      rw [hpre] at hpend
      cases hpend
  | succ k =>
      obtain ⟨c₀, hc₀⟩ : ∃ c₀, (history owner0 txs)[k]? = some c₀ := by
        have hlt : k < (history owner0 txs).length :=
          Nat.lt_of_succ_lt (List.getElem?_eq_some_iff.mp hc).1
        exact ⟨_, List.getElem?_eq_getElem hlt⟩
      have hlink : c.pre = c₀.post := trace_pre_succ hc₀ hc
      have hstep₀ := step_eq_ok (exec_of_mem_trace (List.mem_of_getElem? hc₀))
      rw [hlink] at hpend
      obtain ⟨haction₀, hown₀⟩ := updateOwnership_pendingOwner hstep₀ hpend
      exact ⟨c₀, c₀.post.pendingExpiry, Nat.succ_pos k, hc₀, haction₀, hown₀, by rw [hlink]⟩

/-- Starting from `initialize_owner` and updating ownership any number
of times, by any senders at any blocks: every account that becomes the
owner was named pending owner, by the then owner, in the committed
update just before, and accepted that transfer itself before its
deadline; a transfer is pending only while there is an owner; and once
there is no owner, there is never an owner or a pending transfer
again. -/
theorem ownership_transfer_discipline (owner0 : Option String) (txs : List Tx) :
    (∀ i c x, (history owner0 txs)[i]? = some c → c.post.owner = some x → c.pre.owner ≠ some x →
      c.tx.action = .acceptOwnership ∧ c.tx.sender = x ∧ c.pre.pendingOwner = some x
        ∧ pendingExpired c.pre c.tx.block = false
        ∧ ∃ c₀ expiry, 0 < i ∧ (history owner0 txs)[i - 1]? = some c₀
            ∧ c₀.tx.action = .transferOwnership x expiry ∧ c₀.pre.owner = some c₀.tx.sender
            ∧ c.pre.pendingExpiry = expiry)
    ∧ ((run step (initializeOwner owner0) txs).1.pendingOwner.isSome →
        (run step (initializeOwner owner0) txs).1.owner.isSome)
    ∧ (∀ pre post, txs = pre ++ post → (run step (initializeOwner owner0) pre).1.owner = none →
        (run step (initializeOwner owner0) txs).1.owner = none
          ∧ (run step (initializeOwner owner0) txs).1.pendingOwner = none) := by
  refine ⟨fun i c x hc hx hne => history_owner_ne hc hx hne, ?_, ?_⟩
  · -- a pending transfer needs an owner
    intro hpend
    cases hown : (run step (initializeOwner owner0) txs).1.owner with
    | some _ => rfl
    | none =>
        rw [run_consistent owner0 txs hown] at hpend
        cases hpend
  · -- from an ownerless state no update commits, so the state is final
    rintro pre post rfl hnone
    have hcons := run_consistent owner0 pre
    have hstuck : ∀ tx o' ms, step (run step (initializeOwner owner0) pre).1 tx ≠ .ok (o', ms) :=
      fun tx o' ms h => updateOwnership_of_owner_none hcons hnone (step_eq_ok h)
    rw [run_append, run_of_forall_ne_ok hstuck post]
    exact ⟨hnone, hcons hnone⟩

end NibiruWasm.Ownable
