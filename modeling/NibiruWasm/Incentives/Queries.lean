/-
The incentives contract's queries, at every state of the chain.

# The invariants

- `FundingKeyed`: every funding is stored under its own id. `FundProgram`
  saves each new funding under the id it writes into it, and nothing
  else writes `FUNDING`.
- `EpochsProcessed`: the epochs stored under a program are exactly `1`
  to its last processed epoch. `ProcessEpoch` saves the epoch after the
  last processed and makes it the last, and nothing else writes
  `EPOCH_INFO` or `LAST_EPOCH_PROCESSED`.

With `Stored` (`Handlers`) and `EpochsKeyed` (`Withdrawals`) they hold at
genesis and after every committed transaction of the chain
(`step_queriesOk`): a lockup transaction leaves the incentives contract
as it is (`step_incentives`).

# What they give

`ProgramFunding` answers every stored funding of the program exactly
once, in strictly ascending order of (`pay_from_epoch`, id), the order
of the `pay_from_epoch` index (`subPrefixRange_pairwise_lt`).
`EpochInfo` answers the record of epoch `e`, carrying `e` as its
identifier, exactly for the processed epochs, and not found for every
other (`reachable_queries`).
-/
import NibiruWasm.Incentives.Query
import NibiruWasm.Incentives.Withdrawals
import NibiruWasm.Incentives.Budget

namespace NibiruWasm.Incentives

open Cosmwasm Chain

/-- Every funding is stored under its own id. -/
def FundingKeyed (s : State) : Prop :=
  ∀ k f, s.funding.lookup k = some f → f.id = k

/-- The epochs stored under a program are exactly `1` to its last
processed epoch. -/
def EpochsProcessed (s : State) : Prop :=
  ∀ p e, (s.epochInfo.lookup (p, e)).isSome ↔ 1 ≤ e ∧ e ≤ lastProcessed p s

/-- What the queries rely on. -/
structure QueriesOk (s : State) : Prop where
  stored : Stored s
  keyed : EpochsKeyed s
  funding : FundingKeyed s
  processed : EpochsProcessed s

section contract

variable {querier : LockupQuerier} {s s' : State} {env : Env} {info : MessageInfo}
  {ms : List CosmosMsg}

theorem queriesOk_instantiate (lockupContractAddress : String) :
    QueriesOk (instantiate lockupContractAddress) := by
  refine ⟨stored_instantiate _, epochsKeyed_instantiate _,
    fun k f h => by simp [instantiate] at h, fun p e => ?_⟩
  -- nothing is stored, and nothing processed
  simp only [instantiate, lastProcessed, AList.lookup_empty, Option.isSome_none, Option.getD_none,
    Bool.false_eq_true, false_iff, not_and, Nat.le_zero]
  omega

/-- `FundProgram`'s loop stores each funding under its own id. -/
theorem saveFundings_fundingKeyed {programId payFromEpoch epochs : ℕ} :
    ∀ {coins : List Coin} {s s' : State}, FundingKeyed s →
      saveFundings programId payFromEpoch epochs s coins = .ok s' → FundingKeyed s'
  | [], s, s', hs, h => by
      simp only [saveFundings, Except.ok.injEq] at h
      exact h ▸ hs
  | coin :: rest, s, s', hs, h => by
      simp only [saveFundings, bind_eq_ok, mapError_eq_ok, addU64_eq_ok] at h
      obtain ⟨_, ⟨-, rfl⟩, h⟩ := h
      refine saveFundings_fundingKeyed (fun k f hf => ?_) h
      rcases Store.lookup_insert_cases hf with ⟨rfl, rfl⟩ | ⟨-, hprev⟩
      · rfl
      · exact hs k f hprev

/-- Processing the epoch after the last makes it the last, and stores
it. -/
theorem EpochsProcessed.process {p : ℕ} {epoch : EpochInfo} (he : EpochsProcessed s)
    (hid : epoch.epochIdentifier = lastProcessed p s + 1) :
    EpochsProcessed { s with
      lastEpochProcessed := s.lastEpochProcessed.insert p epoch.epochIdentifier
      epochInfo := s.epochInfo.insert (p, epoch.epochIdentifier) epoch } := by
  intro q e
  have hold := he q e
  unfold lastProcessed at hid hold ⊢
  by_cases hq : q = p
  · subst hq
    rw [AList.lookup_insert, Option.getD_some]
    by_cases hlast : e = epoch.epochIdentifier
    · subst hlast
      rw [AList.lookup_insert, Option.isSome_some]
      exact iff_of_true rfl (by omega)
    · rw [AList.lookup_insert_ne (fun h => hlast (Prod.mk.inj h).2), hold]
      omega
  · rw [AList.lookup_insert_ne (fun h => hq (Prod.mk.inj h).1), AList.lookup_insert_ne hq]
    exact hold

/-- Every committed message keeps what the queries rely on. -/
theorem execute_queriesOk {msg : ExecuteMsg} (hs : QueriesOk s)
    (h : execute querier s env info msg = .ok (s', ms)) : QueriesOk s' := by
  suffices FundingKeyed s' ∧ EpochsProcessed s' from
    ⟨execute_stored hs.stored h, execute_epochsKeyed hs.stored hs.keyed h, this.1, this.2⟩
  cases msg with
  | createProgram denom epochs epochBlockDuration minLockupBlocks =>
      obtain ⟨-, -, rfl, -⟩ := executeCreateProgram_eq_ok h
      exact ⟨hs.funding, hs.processed⟩
  | fundProgram id =>
      obtain ⟨-, program, payFromEpoch, -, -, -, hsave, -⟩ := executeFundProgram_eq_ok h
      obtain ⟨-, hframe, -⟩ :=
        saveFundings_eq_ok (fun _ => 0) (fun _ => rfl) hs.stored.funding_le hsave
      -- the loop writes `FUNDING` and `FUNDING_ID` only
      have hinfo : s'.epochInfo = s.epochInfo := by rw [← hframe]
      have hlast : s'.lastEpochProcessed = s.lastEpochProcessed := by rw [← hframe]
      refine ⟨saveFundings_fundingKeyed hs.funding hsave, fun p e => ?_⟩
      rw [lastProcessed, hinfo, hlast]
      exact hs.processed p e
  | processEpoch id =>
      obtain ⟨_, epoch, -, hid, -, -, -, -, rfl, -⟩ := executeProcessEpoch_eq_ok h
      exact ⟨hs.funding, hs.processed.process hid⟩
  | withdrawRewards id =>
      obtain ⟨_, _, _, -, -, -, rfl, -⟩ := executeWithdrawRewards_eq_ok h
      exact ⟨hs.funding, hs.processed⟩

end contract

section chain

variable (lockupAddr incentivesAddr : String) {ms : List CosmosMsg}

/-- A committed transaction of the chain leaves the incentives contract
as it is, or is one of its messages, with the lockup's answers at its
block. -/
theorem step_incentives {S S' : System} {tx : SysTx}
    (h : step lockupAddr incentivesAddr S tx = .ok (S', ms)) :
    S'.incentives = S.incentives
      ∨ ∃ msg ms', execute (querier lockupAddr S.lockup tx.block) S.incentives
          ⟨tx.block, incentivesAddr⟩ ⟨tx.sender, tx.funds⟩ msg = .ok (S'.incentives, ms') := by
  unfold step at h
  cases hmsg : tx.msg with
  | lockup msg =>
      rw [hmsg] at h
      simp only [bind_eq_ok, mapError_eq_ok, pure_eq_ok, Prod.mk.injEq] at h
      obtain ⟨_, -, _, -, _, -, rfl, -⟩ := h
      exact .inl rfl
  | incentives msg =>
      rw [hmsg] at h
      simp only [bind_eq_ok, mapError_eq_ok, pure_eq_ok, Prod.mk.injEq] at h
      obtain ⟨_, -, ⟨incentives, ms'⟩, hx, _, -, rfl, -⟩ := h
      exact .inr ⟨msg, ms', hx⟩

theorem step_queriesOk {S S' : System} {tx : SysTx} (hS : QueriesOk S.incentives)
    (h : step lockupAddr incentivesAddr S tx = .ok (S', ms)) : QueriesOk S'.incentives := by
  rcases step_incentives lockupAddr incentivesAddr h with hsame | ⟨msg, ms', hx⟩
  · exact hsame ▸ hS
  · exact execute_queriesOk hS hx

end chain

-- ===================================================== the answers

variable {s : State}

/-- With every funding under its own id, `ProgramFunding` answers
exactly the stored fundings of the program. -/
theorem mem_queryProgramFunding (hk : FundingKeyed s) (p : ℕ) (f : Funding) :
    f ∈ queryProgramFunding s p ↔ s.funding.lookup f.id = some f ∧ f.programId = p := by
  unfold queryProgramFunding
  rw [List.mem_map]
  constructor
  · rintro ⟨⟨k, g⟩, hmem, rfl⟩
    obtain ⟨hl, hp, -, -⟩ := mem_subPrefixRange.mp hmem
    rw [hk k g hl]
    exact ⟨hl, hp⟩
  · rintro ⟨hl, hp⟩
    exact ⟨(f.id, f), mem_subPrefixRange.mpr ⟨hl, hp, rfl, rfl⟩, rfl⟩

/-- With every funding under its own id, `ProgramFunding` answers in
strictly ascending order of (`pay_from_epoch`, id). -/
theorem queryProgramFunding_pairwise (hk : FundingKeyed s) (p : ℕ) :
    (queryProgramFunding s p).Pairwise fun f f' =>
      toLex (f.payFromEpoch, f.id) < toLex (f'.payFromEpoch, f'.id) := by
  unfold queryProgramFunding
  rw [List.pairwise_map]
  refine (subPrefixRange_pairwise_lt _ p none none s.funding).imp_of_mem ?_
  intro e e' he he' hlt
  -- a scan's entry is stored under its key, which is its id
  have hkey : ∀ e ∈ subPrefixRange Funding.payFromEpochKey p none none s.funding,
      e.2.id = e.1 :=
    fun e he => hk e.1 e.2 (mem_subPrefixRange.mp he).1
  rwa [hkey e he, hkey e' he']

/-- Where the processed epochs are stored under their identifiers,
`EpochInfo` answers the record of each processed epoch and not found
for every other. -/
theorem queryEpochInfo_processed (hk : EpochsKeyed s) (he : EpochsProcessed s) (p e : ℕ) :
    (1 ≤ e ∧ e ≤ lastProcessed p s → ∃ epoch, queryEpochInfo s p e = .ok epoch
        ∧ epoch.epochIdentifier = e)
      ∧ (¬ (1 ≤ e ∧ e ≤ lastProcessed p s) →
        queryEpochInfo s p e = .error (.notFound "incentives::state::EpochInfo")) := by
  unfold queryEpochInfo
  cases hl : s.epochInfo.lookup (p, e) with
  | none =>
      have hnot : ¬ (1 ≤ e ∧ e ≤ lastProcessed p s) := by
        rw [← he p e, hl]
        simp
      exact ⟨fun h => absurd h hnot, fun _ => rfl⟩
  | some epoch =>
      have hin : 1 ≤ e ∧ e ≤ lastProcessed p s := by
        rw [← he p e, hl]
        rfl
      exact ⟨fun _ => ⟨epoch, rfl, hk p e epoch hl⟩, fun h => absurd hin h⟩

/-- After every run of the chain from its genesis, by any senders, at
any heights: `ProgramFunding` of a program answers exactly its stored
fundings, each once, in strictly ascending order of
(`pay_from_epoch`, id); `EpochInfo` of a program and an epoch answers a
record of that epoch exactly for the epochs `1` to the last processed
one, and not found for every other. -/
theorem reachable_queries (lockupAddr incentivesAddr : String) (bank : Bank) (txs : List SysTx)
    (p : ℕ) :
    (∀ f, f ∈ queryProgramFunding
          (run (step lockupAddr incentivesAddr) (genesis lockupAddr bank) txs).1.incentives p
        ↔ (run (step lockupAddr incentivesAddr) (genesis lockupAddr bank)
            txs).1.incentives.funding.lookup f.id = some f
          ∧ f.programId = p)
      ∧ (queryProgramFunding
          (run (step lockupAddr incentivesAddr) (genesis lockupAddr bank) txs).1.incentives
          p).Pairwise (fun f f' => toLex (f.payFromEpoch, f.id) < toLex (f'.payFromEpoch, f'.id))
      ∧ ∀ e,
        (1 ≤ e ∧ e ≤ lastProcessed p
            (run (step lockupAddr incentivesAddr) (genesis lockupAddr bank) txs).1.incentives →
          ∃ epoch, queryEpochInfo
              (run (step lockupAddr incentivesAddr) (genesis lockupAddr bank) txs).1.incentives p e
            = .ok epoch ∧ epoch.epochIdentifier = e)
        ∧ (¬ (1 ≤ e ∧ e ≤ lastProcessed p
            (run (step lockupAddr incentivesAddr) (genesis lockupAddr bank) txs).1.incentives) →
          queryEpochInfo
              (run (step lockupAddr incentivesAddr) (genesis lockupAddr bank) txs).1.incentives p e
            = .error (.notFound "incentives::state::EpochInfo")) := by
  have hS : QueriesOk
      (run (step lockupAddr incentivesAddr) (genesis lockupAddr bank) txs).1.incentives :=
    run_invariant (fun S : System => QueriesOk S.incentives)
      (fun _ _ _ _ hS h => step_queriesOk lockupAddr incentivesAddr hS h) txs
      (queriesOk_instantiate lockupAddr)
  exact ⟨mem_queryProgramFunding hS.funding p, queryProgramFunding_pairwise hS.funding p,
    queryEpochInfo_processed hS.keyed hS.processed p⟩

end NibiruWasm.Incentives
