/-
The budget of an incentives program: its processed epochs never
distribute more than it was funded with.

`FundProgram` saves, for each coin, a funding that pays
`initial_amount / (epochs - pay_from_epoch + 1)` per epoch, rounded down;
`ProcessEpoch` of epoch `e` puts into `EPOCH_INFO` the per-epoch amounts
of every funding of the program that pays from `e` or earlier.

# The invariant

`Budget p denom`: what the processed epochs of program `p` distribute in
`denom`, plus what its fundings still owe for the epochs after the last
processed one (`Funding.owed`), is at most what they were funded with.
Processing the next epoch moves one per-epoch amount of each funding
that pays from it from owed to distributed (`Funding.owed_process`); a
new funding owes at most its amount (`Funding.owed_le`); no other write
touches the three sums. None of this reads a height or an answer of the
lockup contract, so the bound holds for every run of the chain
(`distributed_le_funded`), at any heights. What each withdrawal pays out
of an epoch is another matter (`Incentives.Proofs`).
-/
import NibiruWasm.Incentives.Handlers
import NibiruWasm.Incentives.System
import NibiruWasm.Lockup.Proofs.Lifecycle

namespace NibiruWasm.Incentives

open Cosmwasm Chain
open Lockup (coinsOf coinsOf_cons)

-- ============================================================ coins

/-- What a list of coins holds of `denom`, coin by coin. -/
theorem coinsOf_eq_sum (denom : String) (coins : List Coin) :
    coinsOf denom coins = (coins.map fun coin => if coin.denom = denom then coin.amount else 0).sum := by
  rw [List.sum_map_ite]
  simp [coinsOf]

/-- `add_coins` adds the coin to what the list holds. -/
theorem addCoins_coinsOf (denom : String) :
    ∀ {coins : List Coin} {coin : Coin} {r : List Coin}, addCoins coins coin = .ok r →
      coinsOf denom r = coinsOf denom coins + coinsOf denom [coin]
  | [], coin, r, h => by
      simp only [addCoins, Except.ok.injEq] at h
      subst h
      simp [coinsOf]
  | c :: cs, coin, r, h => by
      unfold addCoins at h
      by_cases hd : c.denom = coin.denom
      · -- the coin joins the first one of its denom
        rw [if_pos hd] at h
        simp only [bind_eq_ok, add_eq_ok, pure_eq_ok] at h
        obtain ⟨_, ⟨-, rfl⟩, rfl⟩ := h
        simp only [coinsOf_cons]
        by_cases hc : coin.denom = denom
        · simp [hd, hc, coinsOf]
          omega
        · simp [hd, hc, coinsOf]
      · rw [if_neg hd] at h
        simp only [bind_eq_ok, pure_eq_ok] at h
        obtain ⟨cs', hcs', rfl⟩ := h
        rw [coinsOf_cons, coinsOf_cons, addCoins_coinsOf denom hcs']
        omega

/-- `ProcessEpoch`'s loop of `add_coins` holds what the coins it adds hold. -/
theorem foldlM_addCoins_coinsOf (denom : String) :
    ∀ {coins acc r : List Coin}, coins.foldlM addCoins acc = .ok r →
      coinsOf denom r = coinsOf denom acc + coinsOf denom coins
  | [], acc, r, h => by
      simp only [List.foldlM_nil, pure_eq_ok] at h
      subst h
      simp [coinsOf]
  | coin :: rest, acc, r, h => by
      simp only [List.foldlM_cons, bind_eq_ok] at h
      obtain ⟨acc', hacc, h⟩ := h
      have hnil : coinsOf denom ([] : List Coin) = 0 := rfl
      rw [foldlM_addCoins_coinsOf denom h, addCoins_coinsOf denom hacc,
        coinsOf_cons denom coin rest, coinsOf_cons denom coin [], hnil]
      omega

-- ============================================================ sums

/-- What a funding still owes once its program has processed the epochs
up to `last`: its per-epoch amount for each later epoch, from the one it
pays from up to the program's last. -/
def Funding.owed (epochs last : ℕ) (f : Funding) : ℕ :=
  f.toPayEachEpoch * (epochs + 1 - max f.payFromEpoch (last + 1))

/-- The number of epochs of program `p`, zero while it is not stored. -/
def epochsOf (p : ℕ) (s : State) : ℕ := ((s.programs.lookup p).map (·.epochs)).getD 0

/-- The last processed epoch of program `p`: `LAST_EPOCH_PROCESSED`'s
`unwrap_or_default`. -/
def lastProcessed (p : ℕ) (s : State) : ℕ := (s.lastEpochProcessed.lookup p).getD 0

/-- What the fundings of program `p` brought in `denom`. -/
def fundedOf (p : ℕ) (denom : String) (s : State) : ℕ :=
  Store.sumBy (fun _ f => if f.programId = p ∧ f.denom = denom then f.initialAmount else 0)
    s.funding

/-- What the fundings of program `p` in `denom` still owe. -/
def owedOf (p : ℕ) (denom : String) (s : State) : ℕ :=
  Store.sumBy (fun _ f => if f.programId = p ∧ f.denom = denom
    then f.owed (epochsOf p s) (lastProcessed p s) else 0) s.funding

/-- What the processed epochs of program `p` distribute in `denom`: the
sum of their `to_distribute`. -/
def distributedOf (p : ℕ) (denom : String) (s : State) : ℕ :=
  Store.sumBy (fun k epoch => if k.1 = p then coinsOf denom epoch.toDistribute else 0) s.epochInfo

/-- The budget of program `p` in `denom`: what its processed epochs
distribute plus what its fundings still owe is at most what they
brought. -/
def Budget (p : ℕ) (denom : String) (s : State) : Prop :=
  distributedOf p denom s + owedOf p denom s ≤ fundedOf p denom s

/-- What a message funds program `p` with in `denom`, out of the coins
sent with it. -/
def ExecuteMsg.fundedOf (p : ℕ) (denom : String) (funds : List Coin) : ExecuteMsg → ℕ
  | .fundProgram id => if id = p then coinsOf denom funds else 0
  | _ => 0

/-- What a transaction of the chain funds program `p` with in `denom`:
the coins sent with `FundProgram`. -/
def SysTx.fundedOf (p : ℕ) (denom : String) (tx : SysTx) : ℕ :=
  match tx.msg with
  | .incentives msg => msg.fundedOf p denom tx.funds
  | .lockup _ => 0

theorem budget_instantiate (p : ℕ) (denom lockupContractAddress : String) :
    Budget p denom (instantiate lockupContractAddress) := by
  simp [Budget, distributedOf, owedOf, fundedOf, instantiate, Store.sumBy]

-- ================================================== one funding

/-- A new funding owes at most its amount: the per-epoch amount, rounded
down, times at most the number of epochs it was divided by. -/
theorem Funding.owed_le (epochs last i programId payFromEpoch : ℕ) (coin : Coin) :
    (⟨i, programId, payFromEpoch, coin.denom, coin.amount,
      coin.amount / (epochs - payFromEpoch + 1)⟩ : Funding).owed epochs last ≤ coin.amount :=
  calc coin.amount / (epochs - payFromEpoch + 1) * (epochs + 1 - max payFromEpoch (last + 1))
      ≤ coin.amount / (epochs - payFromEpoch + 1) * (epochs - payFromEpoch + 1) := by
        apply Nat.mul_le_mul_left
        omega
    _ ≤ coin.amount := Nat.div_mul_le_self _ _

/-- Processing epoch `last + 1` of a program that has it takes one
per-epoch amount off what a funding owes, when it pays from that epoch
or earlier. -/
theorem Funding.owed_process {epochs last : ℕ} (f : Funding) (he : last + 1 ≤ epochs) :
    f.owed epochs last
      = f.owed epochs (last + 1) + if f.payFromEpoch ≤ last + 1 then f.toPayEachEpoch else 0 := by
  unfold Funding.owed
  by_cases hpay : f.payFromEpoch ≤ last + 1
  · have hmax : max f.payFromEpoch (last + 1) = last + 1 := max_eq_right hpay
    have hmax' : max f.payFromEpoch (last + 1 + 1) = last + 1 + 1 := max_eq_right (by omega)
    have hsucc : epochs + 1 - (last + 1) = epochs + 1 - (last + 1 + 1) + 1 := by omega
    rw [if_pos hpay, hmax, hmax', hsucc, Nat.mul_succ]
  · have hmax : max f.payFromEpoch (last + 1) = f.payFromEpoch := max_eq_left (by omega)
    have hmax' : max f.payFromEpoch (last + 1 + 1) = f.payFromEpoch := max_eq_left (by omega)
    rw [if_neg hpay, hmax, hmax']
    rfl

-- ============================================================ steps

variable {querier : LockupQuerier} {s s' : State} {env : Env} {info : MessageInfo}
  {ms : List CosmosMsg} (p : ℕ) (denom : String)

/-- The coins `FundProgram` sends for program `programId`, counted for
program `p`. -/
theorem sum_funded_coins (programId : ℕ) (coins : List Coin) :
    (coins.map fun coin => if programId = p ∧ coin.denom = denom then coin.amount else 0).sum
      = if programId = p then coinsOf denom coins else 0 := by
  by_cases hp : programId = p
  · simp [hp, coinsOf_eq_sum]
  · simp [hp]

/-- What the fundings owe reads only the fundings, the epochs of the
program and its last processed epoch; and the epochs only once a funding
names the program. -/
theorem owedOf_congr (hs : Stored s) (hfunding : s'.funding = s.funding)
    (hlast : lastProcessed p s' = lastProcessed p s)
    (hepochs : s.programs.lookup p ≠ none → epochsOf p s' = epochsOf p s) :
    owedOf p denom s' = owedOf p denom s := by
  unfold owedOf
  rw [hfunding]
  apply Store.sumBy_congr
  intro id f hf
  by_cases hfp : f.programId = p ∧ f.denom = denom
  · have hprogram : s.programs.lookup p ≠ none := hfp.1 ▸ hs.funding_program id f hf
    rw [if_pos hfp, if_pos hfp, hepochs hprogram, hlast]
  · rw [if_neg hfp, if_neg hfp]

/-- What `ProcessEpoch` distributes of `denom` is at most the per-epoch
amounts of the program's fundings of `denom` that pay from the epoch or
earlier: the scan's upper bound `(epoch, u64::MAX)` admits no later
one. -/
theorem toDistribute_coinsOf_le {programId e : ℕ} {fundings : Store ℕ Funding}
    {toDistribute : List Coin}
    (h : ((subPrefixRange Funding.payFromEpochKey programId none
          (some (.inclusive (toLex (e, Uint64.MAX)))) fundings).map
            fun f => (⟨f.2.denom, f.2.toPayEachEpoch⟩ : Coin)).foldlM addCoins []
          = .ok toDistribute) :
    coinsOf denom toDistribute ≤ Store.sumBy (fun _ f =>
      if f.programId = programId ∧ f.denom = denom ∧ f.payFromEpoch ≤ e
      then f.toPayEachEpoch else 0) fundings := by
  have hsum := sum_subPrefixRange Funding.payFromEpochKey programId none
    (some (.inclusive (toLex (e, Uint64.MAX)))) fundings
    (fun _ f => if f.denom = denom then f.toPayEachEpoch else 0)
  have hnil : coinsOf denom ([] : List Coin) = 0 := rfl
  rw [foldlM_addCoins_coinsOf denom h, hnil, Nat.zero_add, coinsOf_eq_sum, List.map_map]
  refine Nat.le_trans (le_of_eq hsum) (Store.sumBy_le_sumBy fun k f _ => ?_)
  simp only [Funding.payFromEpochKey, Bound.lowerAdmits_none, Bound.upperAdmits_inclusive,
    Prod.Lex.toLex_le_toLex, true_and]
  by_cases hscan : f.programId = programId ∧ (f.payFromEpoch < e ∨ f.payFromEpoch = e ∧ k ≤ Uint64.MAX)
  · have hpay : f.payFromEpoch ≤ e := by
      rcases hscan.2 with hlt | ⟨heq, -⟩ <;> omega
    by_cases hd : f.denom = denom
    · simp [hscan, hd, hpay]
    · simp [hscan, hd]
  · rw [if_neg hscan]
    exact Nat.zero_le _

/-- `CreateProgram` saves a program under a fresh id, which no funding
names: none of the three sums moves. -/
theorem executeCreateProgram_sums {denom' : String} {epochs epochDurationBlocks minLockupBlocks : ℕ}
    (hs : Stored s)
    (h : executeCreateProgram s env denom' epochs epochDurationBlocks minLockupBlocks
      = .ok (s', ms)) :
    distributedOf p denom s' = distributedOf p denom s ∧ owedOf p denom s' = owedOf p denom s
      ∧ fundedOf p denom s' = fundedOf p denom s := by
  obtain ⟨-, -, hs', -⟩ := executeCreateProgram_eq_ok h
  have hfunding : s'.funding = s.funding := by rw [hs']
  have hinfo : s'.epochInfo = s.epochInfo := by rw [hs']
  refine ⟨by rw [distributedOf, distributedOf, hinfo], owedOf_congr p denom hs hfunding ?_ ?_,
    by rw [fundedOf, fundedOf, hfunding]⟩
  · rw [hs']
    rfl
  · -- a stored program stays as it is
    intro hprogram
    obtain ⟨program, hp⟩ := Option.ne_none_iff_exists'.mp hprogram
    rw [hs']
    simp only [epochsOf, hs.lookup_program hp, hp]

/-- `FundProgram` adds what it was sent to what its program was funded
with, and at most that to what it owes. -/
theorem executeFundProgram_sums {programId : ℕ} (hs : Stored s)
    (h : executeFundProgram s env info programId = .ok (s', ms)) :
    distributedOf p denom s' = distributedOf p denom s
      ∧ owedOf p denom s' ≤ owedOf p denom s + (if programId = p then coinsOf denom info.funds else 0)
      ∧ fundedOf p denom s' = fundedOf p denom s
          + (if programId = p then coinsOf denom info.funds else 0) := by
  obtain ⟨-, program, payFromEpoch, hp, -, -, hsave, -⟩ := executeFundProgram_eq_ok h
  obtain ⟨-, hframe, -, hfunded⟩ := saveFundings_eq_ok
    (fun f => if f.programId = p ∧ f.denom = denom then f.initialAmount else 0) (fun _ => rfl)
    hs.funding_le hsave
  obtain ⟨-, -, -, howed⟩ := saveFundings_eq_ok
    (fun f => if f.programId = p ∧ f.denom = denom
      then f.owed (epochsOf p s) (lastProcessed p s) else 0) (fun _ => rfl)
    hs.funding_le hsave
  dsimp only at hfunded howed
  -- the loop writes the fundings only
  have hepochs : epochsOf p s' = epochsOf p s := by rw [← hframe]; rfl
  have hlast : lastProcessed p s' = lastProcessed p s := by rw [← hframe]; rfl
  have hinfo : s'.epochInfo = s.epochInfo := by rw [← hframe]
  refine ⟨by rw [distributedOf, distributedOf, hinfo], ?_, ?_⟩
  · -- each new funding owes at most its coin
    unfold owedOf
    rw [hepochs, hlast, howed, ← sum_funded_coins p denom]
    apply Nat.add_le_add_left
    apply List.sum_le_sum
    intro coin _
    by_cases hc : programId = p ∧ coin.denom = denom
    · have hE : epochsOf p s = program.epochs := by
        rw [← hc.1]
        simp [epochsOf, hp]
      rw [if_pos hc, if_pos hc, hE]
      exact Funding.owed_le _ _ _ _ _ coin
    · rw [if_neg hc, if_neg hc]
  · unfold fundedOf
    rw [hfunded, sum_funded_coins p denom]

/-- Saving an epoch adds at most what it distributes to the sum of its
program, and nothing to the others. -/
theorem distributedOf_of_insert {k : ℕ × ℕ} {epoch : EpochInfo}
    (hinfo : s'.epochInfo = s.epochInfo.insert k epoch) :
    distributedOf p denom s'
      ≤ (if k.1 = p then coinsOf denom epoch.toDistribute else 0) + distributedOf p denom s := by
  have hins := Store.sumBy_insert_add
    (fun k epoch => if k.1 = p then coinsOf denom epoch.toDistribute else 0) s.epochInfo k epoch
  rw [distributedOf, distributedOf, hinfo]
  omega

/-- Processing the next epoch of program `p` takes one per-epoch amount
off what each of its fundings that pays from that epoch owes. -/
theorem owedOf_of_process (hfunding : s'.funding = s.funding)
    (hepochs : epochsOf p s' = epochsOf p s) (hlast : lastProcessed p s' = lastProcessed p s + 1)
    (hnext : lastProcessed p s + 1 ≤ epochsOf p s) :
    owedOf p denom s = owedOf p denom s' + Store.sumBy (fun _ f =>
      if f.programId = p ∧ f.denom = denom ∧ f.payFromEpoch ≤ lastProcessed p s + 1
      then f.toPayEachEpoch else 0) s.funding := by
  unfold owedOf
  rw [hfunding, hepochs, hlast, ← Store.sumBy_add]
  apply Store.sumBy_congr
  intro id f _
  by_cases hfp : f.programId = p ∧ f.denom = denom
  · rw [if_pos hfp, if_pos hfp, Funding.owed_process f hnext]
    by_cases hpay : f.payFromEpoch ≤ lastProcessed p s + 1
    · rw [if_pos hpay, if_pos ⟨hfp.1, hfp.2, hpay⟩]
    · rw [if_neg hpay, if_neg fun h => hpay h.2.2]
  · rw [if_neg hfp, if_neg hfp, if_neg fun h => hfp ⟨h.1, h.2.1⟩]

/-- `ProcessEpoch` of its own program moves from owed to distributed no
more than the per-epoch amounts of the fundings that pay from the epoch;
of another program it moves nothing. -/
theorem executeProcessEpoch_sums {programId : ℕ} (hs : Stored s)
    (h : executeProcessEpoch querier s env programId = .ok (s', ms)) :
    distributedOf p denom s' + owedOf p denom s' ≤ distributedOf p denom s + owedOf p denom s
      ∧ fundedOf p denom s' = fundedOf p denom s := by
  obtain ⟨program, epoch, hp, hid, hle, -, -, htd, hs', -⟩ := executeProcessEpoch_eq_ok h
  have hfunding : s'.funding = s.funding := by rw [hs']
  have hinfo : s'.epochInfo = s.epochInfo.insert (programId, epoch.epochIdentifier) epoch := by
    rw [hs']
  have hlast : s'.lastEpochProcessed
      = s.lastEpochProcessed.insert programId epoch.epochIdentifier := by rw [hs']
  have hepochs : epochsOf p s' = epochsOf p s := by rw [hs']; rfl
  have hdist := distributedOf_of_insert p denom hinfo
  refine ⟨?_, by rw [fundedOf, fundedOf, hfunding]⟩
  by_cases hpid : programId = p
  · subst hpid
    -- the epoch processed is the one after the last, and the program has it
    have hid' : epoch.epochIdentifier = lastProcessed programId s + 1 := hid
    have hlast' : lastProcessed programId s' = lastProcessed programId s + 1 := by
      rw [lastProcessed, hlast, AList.lookup_insert, Option.getD_some, hid']
    have hnext : lastProcessed programId s + 1 ≤ epochsOf programId s := by
      rw [epochsOf, hp, Option.map_some, Option.getD_some, ← hid']
      exact hle
    have howed := owedOf_of_process programId denom hfunding hepochs hlast' hnext
    have hscan := toDistribute_coinsOf_le denom htd
    rw [hid'] at hscan
    rw [if_pos rfl] at hdist
    omega
  · -- another program's epoch is in none of the sums of `p`
    have howed : owedOf p denom s' = owedOf p denom s := by
      refine owedOf_congr p denom hs hfunding ?_ fun _ => hepochs
      rw [lastProcessed, lastProcessed, hlast, AList.lookup_insert_ne (Ne.symm hpid)]
    rw [if_neg hpid] at hdist
    omega

/-- `WithdrawRewards` writes the withdrawals only. -/
theorem executeWithdrawRewards_sums {programId : ℕ} (hs : Stored s)
    (h : executeWithdrawRewards querier s info programId = .ok (s', ms)) :
    distributedOf p denom s' = distributedOf p denom s ∧ owedOf p denom s' = owedOf p denom s
      ∧ fundedOf p denom s' = fundedOf p denom s := by
  obtain ⟨_, _, _, -, -, -, hs', -⟩ := executeWithdrawRewards_eq_ok h
  have hfunding : s'.funding = s.funding := by rw [hs']
  have hinfo : s'.epochInfo = s.epochInfo := by rw [hs']
  refine ⟨by rw [distributedOf, distributedOf, hinfo],
    owedOf_congr p denom hs hfunding (by rw [hs']; rfl) fun _ => by rw [hs']; rfl,
    by rw [fundedOf, fundedOf, hfunding]⟩

/-- Every committed message keeps the budget, and adds to what the
program was funded with exactly what `FundProgram` sends it. -/
theorem execute_budget {msg : ExecuteMsg} (hs : Stored s) (hb : Budget p denom s)
    (h : execute querier s env info msg = .ok (s', ms)) :
    Budget p denom s' ∧ fundedOf p denom s' = fundedOf p denom s + msg.fundedOf p denom info.funds := by
  unfold Budget at hb ⊢
  cases msg with
  | createProgram denom' epochs epochBlockDuration minLockupBlocks =>
      obtain ⟨hd, ho, hf⟩ := executeCreateProgram_sums p denom hs h
      exact ⟨by omega, by rw [hf]; rfl⟩
  | fundProgram id =>
      obtain ⟨hd, ho, hf⟩ := executeFundProgram_sums p denom hs h
      exact ⟨by omega, hf⟩
  | processEpoch id =>
      obtain ⟨hdo, hf⟩ := executeProcessEpoch_sums p denom hs h
      exact ⟨by omega, by rw [hf]; rfl⟩
  | withdrawRewards id =>
      obtain ⟨hd, ho, hf⟩ := executeWithdrawRewards_sums p denom hs h
      exact ⟨by omega, by rw [hf]; rfl⟩

-- ============================================================= runs

variable (lockupAddr incentivesAddr : String)

/-- A committed transaction of the chain keeps `Stored` and the budget
of the incentives contract, and adds to what a program was funded with
what the transaction funds it with: a lockup transaction leaves the
incentives contract as it is, and an incentives one is `execute` with
the lockup's answers at its block. -/
theorem step_budget {S S' : System} {tx : SysTx} {ms : List CosmosMsg}
    (hS : Stored S.incentives ∧ Budget p denom S.incentives)
    (h : step lockupAddr incentivesAddr S tx = .ok (S', ms)) :
    (Stored S'.incentives ∧ Budget p denom S'.incentives)
      ∧ fundedOf p denom S'.incentives + 0 = fundedOf p denom S.incentives + tx.fundedOf p denom := by
  obtain ⟨hs, hb⟩ := hS
  unfold step at h
  cases hmsg : tx.msg with
  | lockup msg =>
      rw [hmsg] at h
      simp only [bind_eq_ok, mapError_eq_ok, pure_eq_ok, Prod.mk.injEq] at h
      obtain ⟨_, -, _, -, _, -, rfl, -⟩ := h
      refine ⟨⟨hs, hb⟩, ?_⟩
      simp [SysTx.fundedOf, hmsg]
  | incentives msg =>
      rw [hmsg] at h
      simp only [bind_eq_ok, mapError_eq_ok, pure_eq_ok, Prod.mk.injEq] at h
      obtain ⟨_, -, ⟨incentives, ms'⟩, hx, _, -, rfl, -⟩ := h
      obtain ⟨hb', hf⟩ := execute_budget p denom hs hb hx
      refine ⟨⟨execute_stored hs hx, hb'⟩, ?_⟩
      rw [Nat.add_zero, hf, SysTx.fundedOf, hmsg]

/-- No program's processed epochs distribute more than it was funded
with: for every run of the chain from its genesis, by any senders, at
any heights, whatever the lockup contract holds, and for every program
and denom, the sum of `to_distribute` over the program's processed
epochs is at most what its fundings brought, which is exactly what the
committed `FundProgram` transactions sent it. -/
theorem distributed_le_funded (bank : Bank) (txs : List SysTx) :
    distributedOf p denom
        (run (step lockupAddr incentivesAddr) (genesis lockupAddr bank) txs).1.incentives
      ≤ fundedOf p denom
        (run (step lockupAddr incentivesAddr) (genesis lockupAddr bank) txs).1.incentives
    ∧ fundedOf p denom
        (run (step lockupAddr incentivesAddr) (genesis lockupAddr bank) txs).1.incentives
      = ((run (step lockupAddr incentivesAddr) (genesis lockupAddr bank) txs).2.map
          fun c => c.1.fundedOf p denom).sum := by
  have h0 : Stored (genesis lockupAddr bank).incentives
      ∧ Budget p denom (genesis lockupAddr bank).incentives :=
    ⟨stored_instantiate lockupAddr, budget_instantiate p denom lockupAddr⟩
  have hinv := @run_invariant _ _ _ _ (step lockupAddr incentivesAddr)
    (fun S => Stored S.incentives ∧ Budget p denom S.incentives)
    (fun _ _ _ _ hS h => (step_budget p denom lockupAddr incentivesAddr hS h).1) _ txs h0
  have hbal := @run_balance _ _ _ _ (step lockupAddr incentivesAddr)
    (fun S => Stored S.incentives ∧ Budget p denom S.incentives)
    (fun S => fundedOf p denom S.incentives) (SysTx.fundedOf p denom) (fun _ => 0)
    (fun _ _ _ _ hS h => step_budget p denom lockupAddr incentivesAddr hS h) _ txs h0
  have hfunded0 : fundedOf p denom (genesis lockupAddr bank).incentives = 0 := by
    simp [fundedOf, genesis, instantiate, Store.sumBy]
  refine ⟨le_trans (Nat.le_add_right _ _) hinv.2, ?_⟩
  simpa [hfunded0] using hbal

end NibiruWasm.Incentives
