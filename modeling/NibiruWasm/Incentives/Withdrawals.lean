/-
No epoch is paid twice to one sender.

`WithdrawRewards` pays its sender for the epochs of `EPOCH_INFO` under
the program past the one `WITHDRAWALS` holds for the sender, and saves
the last epoch it paid. The scan walks the epochs in ascending order
(`prefixRange_pairwise_lt`) and every epoch is saved under its own
identifier (`EpochsKeyed`), so the last epoch paid is the largest one,
and the next withdrawal starts past it.

# The invariant

`PaidBelow p u cs S`: the epochs the commits `cs` paid sender `u` out of
program `p`, in the order paid, are strictly ascending, and each is at
most the epoch `WITHDRAWALS` holds for them in `S`. `trace_invariant`
carries it along every run of the chain (`epochs_paid_once`). Neither
the heights nor the lockup's answers enter: they decide how much an
epoch pays, not which epochs are paid.
-/
import NibiruWasm.Incentives.Handlers
import NibiruWasm.Incentives.System

namespace NibiruWasm.Incentives

open Cosmwasm Chain

-- ======================================================= epoch keys

/-- Every stored epoch is saved under its own identifier. -/
def EpochsKeyed (s : State) : Prop :=
  ∀ p e epoch, s.epochInfo.lookup (p, e) = some epoch → epoch.epochIdentifier = e

theorem epochsKeyed_instantiate (lockupContractAddress : String) :
    EpochsKeyed (instantiate lockupContractAddress) := by
  intro p e epoch h
  simp [instantiate] at h

variable {querier : LockupQuerier} {s s' : State} {env : Env} {info : MessageInfo}
  {ms : List CosmosMsg}

/-- Only `ProcessEpoch` writes `EPOCH_INFO`, under the epoch it saves;
only `WithdrawRewards` writes `WITHDRAWALS`, under its sender. -/
theorem execute_frame {msg : ExecuteMsg} (hs : Stored s)
    (h : execute querier s env info msg = .ok (s', ms)) :
    (s'.epochInfo = s.epochInfo ∨ ∃ programId epoch,
        s'.epochInfo = s.epochInfo.insert (programId, epoch.epochIdentifier) epoch)
      ∧ (s'.withdrawals = s.withdrawals ∨ ∃ programId lastPaidEpoch,
        msg = .withdrawRewards programId
          ∧ s'.withdrawals = s.withdrawals.insert (programId, info.sender) lastPaidEpoch) := by
  cases msg with
  | createProgram denom epochs epochBlockDuration minLockupBlocks =>
      obtain ⟨-, -, rfl, -⟩ := executeCreateProgram_eq_ok h
      exact ⟨.inl rfl, .inl rfl⟩
  | fundProgram id =>
      obtain ⟨-, program, payFromEpoch, -, -, -, hsave, -⟩ := executeFundProgram_eq_ok h
      obtain ⟨-, hframe, -⟩ := saveFundings_eq_ok (fun _ => 0) (fun _ => rfl) hs.funding_le hsave
      have hinfo : s'.epochInfo = s.epochInfo := by rw [← hframe]
      have hwithdrawals : s'.withdrawals = s.withdrawals := by rw [← hframe]
      exact ⟨.inl hinfo, .inl hwithdrawals⟩
  | processEpoch id =>
      obtain ⟨_, epoch, -, -, -, -, -, -, rfl, -⟩ := executeProcessEpoch_eq_ok h
      exact ⟨.inr ⟨id, epoch, rfl⟩, .inl rfl⟩
  | withdrawRewards id =>
      obtain ⟨_, lastPaidEpoch, _, -, -, -, rfl, -⟩ := executeWithdrawRewards_eq_ok h
      exact ⟨.inl rfl, .inr ⟨id, lastPaidEpoch, rfl, rfl⟩⟩

/-- Every committed message saves each epoch under its own identifier. -/
theorem execute_epochsKeyed {msg : ExecuteMsg} (hs : Stored s) (hk : EpochsKeyed s)
    (h : execute querier s env info msg = .ok (s', ms)) : EpochsKeyed s' := by
  intro p e epoch' he
  rcases (execute_frame hs h).1 with hinfo | ⟨programId, epoch, hinfo⟩
  · rw [hinfo] at he
    exact hk p e epoch' he
  · rw [hinfo] at he
    rcases Store.lookup_insert_cases he with ⟨hkey, rfl⟩ | ⟨-, he⟩
    · exact (Prod.mk.inj hkey).2.symm
    · exact hk p e epoch' he

/-- A message other than a withdrawal of sender `u` out of program `p`
leaves the epoch `WITHDRAWALS` holds for them. -/
theorem execute_withdrawal_of_ne {msg : ExecuteMsg} {p : ℕ} {u : String} (hs : Stored s)
    (hne : ¬(msg = .withdrawRewards p ∧ info.sender = u))
    (h : execute querier s env info msg = .ok (s', ms)) :
    s'.withdrawals.lookup (p, u) = s.withdrawals.lookup (p, u) := by
  rcases (execute_frame hs h).2 with hw | ⟨programId, lastPaidEpoch, rfl, hw⟩
  · rw [hw]
  · rw [hw]
    apply AList.lookup_insert_ne
    intro hkey
    obtain ⟨rfl, rfl⟩ := Prod.mk.inj hkey
    exact hne ⟨rfl, rfl⟩

-- ================================================== epochs to pay

/-- The identifiers of the epochs to pay are their keys. -/
theorem epochsToPay_ids (hk : EpochsKeyed s) (p : ℕ) (u : String) :
    ∃ lo, (epochsToPay s p u).map (·.epochIdentifier)
        = (prefixRange p (some lo) none s.epochInfo).map (·.1)
      ∧ ∀ w, s.withdrawals.lookup (p, u) = some w → lo = .exclusive w := by
  -- whatever the bound, every scanned epoch is saved under its identifier
  have hkeys : ∀ lo, (prefixRange p (some lo) none s.epochInfo).map (·.2.epochIdentifier)
      = (prefixRange p (some lo) none s.epochInfo).map (·.1) := by
    intro lo
    apply List.map_congr_left
    rintro ⟨e, epoch⟩ hmem
    exact hk p e epoch (mem_prefixRange.mp hmem).1
  cases hw : s.withdrawals.lookup (p, u) with
  | none =>
      refine ⟨.inclusive 0, ?_, fun w h => by cases h⟩
      simp only [epochsToPay, hw, List.map_map]
      exact hkeys _
  | some w =>
      refine ⟨.exclusive w, ?_, fun w' h => by cases h; rfl⟩
      simp only [epochsToPay, hw, List.map_map]
      exact hkeys _

/-- The epochs to pay are strictly ascending, and past the last one
paid. -/
theorem epochsToPay_ascending (hk : EpochsKeyed s) (p : ℕ) (u : String) :
    ((epochsToPay s p u).map (·.epochIdentifier)).Pairwise (· < ·)
      ∧ ∀ w, s.withdrawals.lookup (p, u) = some w →
        ∀ e ∈ (epochsToPay s p u).map (·.epochIdentifier), w < e := by
  obtain ⟨lo, hids, hlo⟩ := epochsToPay_ids hk p u
  rw [hids]
  refine ⟨prefixRange_pairwise_lt p (some lo) none s.epochInfo, fun w hw e he => ?_⟩
  obtain ⟨⟨e', epoch⟩, hmem, rfl⟩ := List.mem_map.mp he
  have hadmit := (mem_prefixRange.mp hmem).2.1
  rw [hlo w hw, Bound.lowerAdmits_exclusive] at hadmit
  exact hadmit

/-- The epoch the loop of `WithdrawRewards` ends with is the last one it
paid, or where it started when it paid none. -/
theorem payEpochs_last {program : Program} {sender : String} :
    ∀ {lastPaidEpoch : ℕ} {toDistribute : List Coin} {epochs : List EpochInfo}
      {r : ℕ × List Coin},
      payEpochs querier s program sender lastPaidEpoch toDistribute epochs = .ok r →
      r.1 = ((epochs.map (·.epochIdentifier)).getLast?).getD lastPaidEpoch
  | _, _, [], r, h => by
      simp only [payEpochs, Except.ok.injEq] at h
      subst h
      rfl
  | _, _, epoch :: rest, r, h => by
      simp only [payEpochs, bind_eq_ok, mapError_eq_ok] at h
      obtain ⟨_, -, _, -, _, -, _, -, h⟩ := h
      rw [payEpochs_last h, List.map_cons, List.getLast?_cons]
      rfl

/-- A committed withdrawal paid at least one epoch, and saved the
largest one it paid. -/
theorem executeWithdrawRewards_paid {p : ℕ} (hk : EpochsKeyed s)
    (h : executeWithdrawRewards querier s info p = .ok (s', ms)) :
    (epochsToPay s p info.sender).map (·.epochIdentifier) ≠ []
      ∧ ∃ last, s'.withdrawals.lookup (p, info.sender) = some last
        ∧ ∀ e ∈ (epochsToPay s p info.sender).map (·.epochIdentifier), e ≤ last := by
  obtain ⟨program, last, toDistribute, -, hpay, hlast, hs', -⟩ := executeWithdrawRewards_eq_ok h
  have hl : last = _ := payEpochs_last hpay
  -- the loop paid some epoch: `NothingToWithdraw` fails the message otherwise
  have hne : (epochsToPay s p info.sender).map (·.epochIdentifier) ≠ [] := by
    intro hnil
    rw [hnil] at hl
    exact hlast hl
  refine ⟨hne, last, by rw [hs', AList.lookup_insert], fun e he => ?_⟩
  rw [hl, List.getLast?_eq_some_getLast hne, Option.getD_some]
  exact ((epochsToPay_ascending hk p info.sender).1.imp le_of_lt).rel_getLast he

/-- Epochs past every one paid before, themselves ascending, extend an
ascending record of payments; a saved epoch at least as large as the
new ones bounds them all. -/
theorem paid_append {old new : List ℕ} {w w' : Option ℕ}
    (hold : old.Pairwise (· < ·)) (hbelow : ∀ e ∈ old, ∃ v, w = some v ∧ e ≤ v)
    (hnew : new.Pairwise (· < ·)) (hafter : ∀ v, w = some v → ∀ e ∈ new, v < e)
    (hne : new ≠ []) (hlast : ∃ v, w' = some v ∧ ∀ e ∈ new, e ≤ v) :
    (old ++ new).Pairwise (· < ·) ∧ ∀ e ∈ old ++ new, ∃ v, w' = some v ∧ e ≤ v := by
  obtain ⟨last, hw', hle⟩ := hlast
  obtain ⟨b, hb⟩ := List.exists_mem_of_ne_nil new hne
  refine ⟨List.pairwise_append.mpr ⟨hold, hnew, fun a ha c hc => ?_⟩, fun e he => ?_⟩
  · obtain ⟨v, hv, hav⟩ := hbelow a ha
    exact lt_of_le_of_lt hav (hafter v hv c hc)
  · refine ⟨last, hw', ?_⟩
    rcases List.mem_append.mp he with he | he
    · -- an epoch paid before is below every new one
      obtain ⟨v, hv, hev⟩ := hbelow e he
      have hvb := hafter v hv b hb
      have hbl := hle b hb
      omega
    · exact hle e he

-- ============================================================= runs

/-- The epochs a committed transaction of the chain paid sender `u` for
out of program `p`, in the order paid. -/
def paidEpochs (p : ℕ) (u : String) (c : Commit System SysTx CosmosMsg) : List ℕ :=
  match c.tx.msg with
  | .incentives (.withdrawRewards id) =>
      if id = p ∧ c.tx.sender = u then (epochsToPay c.pre.incentives p u).map (·.epochIdentifier)
      else []
  | _ => []

/-- What the commits `cs` paid sender `u` out of program `p`: strictly
ascending, and each epoch at most the one `WITHDRAWALS` holds for them. -/
structure PaidBelow (p : ℕ) (u : String) (cs : List (Commit System SysTx CosmosMsg))
    (S : System) : Prop where
  stored : Stored S.incentives
  keyed : EpochsKeyed S.incentives
  ascending : (cs.flatMap (paidEpochs p u)).Pairwise (· < ·)
  below : ∀ e ∈ cs.flatMap (paidEpochs p u),
    ∃ w, S.incentives.withdrawals.lookup (p, u) = some w ∧ e ≤ w

variable (p : ℕ) (u : String) (lockupAddr incentivesAddr : String)

theorem paidBelow_genesis (bank : Bank) : PaidBelow p u [] (genesis lockupAddr bank) :=
  ⟨stored_instantiate lockupAddr, epochsKeyed_instantiate lockupAddr, List.Pairwise.nil,
    by simp⟩

/-- What a committed transaction of the chain pays sender `u` out of
program `p`: nothing, leaving the epoch saved for them; or, when it is a
withdrawal of theirs, ascending epochs past the saved one, saving one at
least as large as all of them. -/
theorem step_paid {S S' : System} {tx : SysTx} {ms : List CosmosMsg}
    (hs : Stored S.incentives) (hk : EpochsKeyed S.incentives)
    (h : step lockupAddr incentivesAddr S tx = .ok (S', ms)) :
    Stored S'.incentives ∧ EpochsKeyed S'.incentives
      ∧ ((paidEpochs p u ⟨S, tx, S', ms⟩ = []
          ∧ S'.incentives.withdrawals.lookup (p, u) = S.incentives.withdrawals.lookup (p, u))
        ∨ (paidEpochs p u ⟨S, tx, S', ms⟩ ≠ []
          ∧ (paidEpochs p u ⟨S, tx, S', ms⟩).Pairwise (· < ·)
          ∧ (∀ w, S.incentives.withdrawals.lookup (p, u) = some w →
              ∀ e ∈ paidEpochs p u ⟨S, tx, S', ms⟩, w < e)
          ∧ ∃ last, S'.incentives.withdrawals.lookup (p, u) = some last
              ∧ ∀ e ∈ paidEpochs p u ⟨S, tx, S', ms⟩, e ≤ last)) := by
  unfold step at h
  cases hmsg : tx.msg with
  | lockup msg =>
      rw [hmsg] at h
      simp only [bind_eq_ok, mapError_eq_ok, pure_eq_ok, Prod.mk.injEq] at h
      obtain ⟨_, -, _, -, _, -, rfl, -⟩ := h
      -- a lockup transaction leaves the incentives contract as it is
      exact ⟨hs, hk, .inl ⟨by simp [paidEpochs, hmsg], rfl⟩⟩
  | incentives msg =>
      rw [hmsg] at h
      simp only [bind_eq_ok, mapError_eq_ok, pure_eq_ok, Prod.mk.injEq] at h
      obtain ⟨_, -, ⟨incentives, ms'⟩, hx, _, -, rfl, -⟩ := h
      refine ⟨execute_stored hs hx, execute_epochsKeyed hs hk hx, ?_⟩
      by_cases hw : msg = .withdrawRewards p ∧ tx.sender = u
      · obtain ⟨rfl, rfl⟩ := hw
        have hpaid : ∀ post, paidEpochs p tx.sender ⟨S, tx, post, ms⟩
            = (epochsToPay S.incentives p tx.sender).map (·.epochIdentifier) := fun _ => by
          simp [paidEpochs, hmsg]
        obtain ⟨hne, hlast⟩ := executeWithdrawRewards_paid hk hx
        obtain ⟨hnew, hafter⟩ := epochsToPay_ascending hk p tx.sender
        rw [hpaid]
        exact .inr ⟨hne, hnew, hafter, hlast⟩
      · have hpaid : ∀ post, paidEpochs p u ⟨S, tx, post, ms⟩ = [] := fun _ => by
          cases msg
          case withdrawRewards id =>
            have hne : ¬(id = p ∧ tx.sender = u) := fun h => hw ⟨by rw [h.1], h.2⟩
            simp [paidEpochs, hmsg, hne]
          all_goals simp [paidEpochs, hmsg]
        exact .inl ⟨hpaid _, execute_withdrawal_of_ne hs hw hx⟩

/-- Every committed transaction of the chain keeps `PaidBelow`. -/
theorem step_paidBelow {cs : List (Commit System SysTx CosmosMsg)} {S S' : System} {tx : SysTx}
    {ms : List CosmosMsg} (hP : PaidBelow p u cs S)
    (h : step lockupAddr incentivesAddr S tx = .ok (S', ms)) :
    PaidBelow p u (cs ++ [⟨S, tx, S', ms⟩]) S' := by
  obtain ⟨hs, hk, hasc, hbelow⟩ := hP
  obtain ⟨hs', hk', hcase⟩ := step_paid p u lockupAddr incentivesAddr hs hk h
  -- the commit's payments go after those of the commits before it
  have happend : (cs ++ [(⟨S, tx, S', ms⟩ : Commit System SysTx CosmosMsg)]).flatMap
      (paidEpochs p u) = cs.flatMap (paidEpochs p u) ++ paidEpochs p u ⟨S, tx, S', ms⟩ := by
    simp
  rcases hcase with ⟨hnil, hw⟩ | ⟨hne, hnew, hafter, hlast⟩
  · rw [hnil, List.append_nil] at happend
    refine ⟨hs', hk', ?_, ?_⟩
    · rw [happend]
      exact hasc
    · rw [happend, hw]
      exact hbelow
  · obtain ⟨hasc', hbelow'⟩ := paid_append hasc hbelow hnew hafter hne hlast
    refine ⟨hs', hk', ?_, ?_⟩
    · rw [happend]
      exact hasc'
    · rw [happend]
      exact hbelow'

/-- No epoch is paid twice to one sender: along every run of the chain
from its genesis, by any senders, at any heights, the epochs the
withdrawals of sender `u` out of program `p` settle, in the order they
settle them, are strictly ascending. -/
theorem epochs_paid_once (bank : Bank) (txs : List SysTx) :
    ((trace (step lockupAddr incentivesAddr) (genesis lockupAddr bank) txs).flatMap
      (paidEpochs p u)).Pairwise (· < ·) := by
  have h := @trace_invariant _ _ _ _ (step lockupAddr incentivesAddr) (PaidBelow p u)
    (fun _ _ _ _ _ hP h => step_paidBelow p u lockupAddr incentivesAddr hP h) [] _ txs
    (paidBelow_genesis p u lockupAddr bank)
  rw [List.nil_append] at h
  exact h.ascending

end NibiruWasm.Incentives
