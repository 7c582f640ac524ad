/-
What each committed incentives transaction writes.

One inversion per handler returns the guards it passed and the state it
saved: `executeCreateProgram_eq_ok`, `executeFundProgram_eq_ok` with
`saveFundings_eq_ok` for its loop, `executeProcessEpoch_eq_ok` and
`executeWithdrawRewards_eq_ok`. None of them reads the querier's answers
beyond their success, so what follows holds whatever the lockup contract
answers.

`Stored` is what every reachable state keeps: `PROGRAMS_ID` and
`FUNDING_ID` are past every stored id, so no save overwrites a program
or a funding, and every funding is for a stored program.
`Incentives.Budget` rests on these.
-/
import NibiruWasm.Incentives.Contract
import NibiruWasm.Chain.Except

namespace NibiruWasm.Incentives

open Cosmwasm Chain

-- ======================================================= inversions

@[simp] theorem loadProgram_eq_ok {programs : Store ℕ Program} {id : ℕ} {program : Program} :
    loadProgram programs id = .ok program ↔ programs.lookup id = some program := by
  unfold loadProgram
  cases programs.lookup id <;> simp

variable {querier : LockupQuerier} {s s' : State} {env : Env} {info : MessageInfo}
  {ms : List CosmosMsg}

theorem executeCreateProgram_eq_ok {denom : String} {epochs epochDurationBlocks minLockupBlocks : ℕ}
    (h : executeCreateProgram s env denom epochs epochDurationBlocks minLockupBlocks
      = .ok (s', ms)) :
    s.programsId + 1 ≤ Uint64.MAX ∧ env.block.height + epochs * epochDurationBlocks ≤ Uint64.MAX
      ∧ s' = { s with
          programsId := s.programsId + 1
          programs := s.programs.insert (s.programsId + 1)
            ⟨s.programsId + 1, epochs, epochDurationBlocks, minLockupBlocks, denom,
              env.block.height, env.block.height + epochs * epochDurationBlocks⟩ }
      ∧ ms = [] := by
  simp only [executeCreateProgram, bind_eq_ok, mapError_eq_ok, addU64_eq_ok, mulU64_eq_ok,
    pure_eq_ok, Prod.mk.injEq] at h
  obtain ⟨_, ⟨hid, rfl⟩, _, ⟨-, rfl⟩, _, ⟨hend, rfl⟩, rfl, rfl⟩ := h
  exact ⟨hid, hend, rfl, rfl⟩

/-- `FundProgram`'s loop saves one funding per coin under the ids past
`FUNDING_ID` and writes nothing else. A sum over the fundings of any
weight that does not read the id grows by the weights of the new
fundings. -/
theorem saveFundings_eq_ok {programId payFromEpoch epochs : ℕ} (g : Funding → ℕ)
    (hg : ∀ f, g { f with id := 0 } = g f) :
    ∀ {coins : List Coin} {s s' : State}, Store.KeysLe s.funding s.fundingId →
      saveFundings programId payFromEpoch epochs s coins = .ok s' →
      Store.KeysLe s'.funding s'.fundingId
        ∧ { s' with fundingId := s.fundingId, funding := s.funding } = s
        ∧ (∀ id f, s'.funding.lookup id = some f →
            s.funding.lookup id = some f ∨ f.programId = programId)
        ∧ Store.sumBy (fun _ => g) s'.funding = Store.sumBy (fun _ => g) s.funding
            + (coins.map fun coin => g ⟨0, programId, payFromEpoch, coin.denom, coin.amount,
                coin.amount / (epochs - payFromEpoch + 1)⟩).sum
  | [], s, s', hs, h => by
      simp only [saveFundings, Except.ok.injEq] at h
      subst h
      exact ⟨hs, rfl, fun id f hf => .inl hf, by simp⟩
  | coin :: rest, s, s', hs, h => by
      simp only [saveFundings, bind_eq_ok, mapError_eq_ok, addU64_eq_ok] at h
      obtain ⟨_, ⟨-, rfl⟩, h⟩ := h
      -- the coin's funding goes under the free id past `FUNDING_ID`
      obtain ⟨hs', hframe, hnew, hsum⟩ := saveFundings_eq_ok g hg (hs.insert_succ _) h
      refine ⟨hs', ?_, fun id f hf => ?_, ?_⟩
      · exact congrArg (fun t : State => { t with fundingId := s.fundingId, funding := s.funding })
          hframe
      · rcases hnew id f hf with hf | hf
        · rcases Store.lookup_insert_cases hf with ⟨-, rfl⟩ | ⟨-, hf⟩
          · exact .inr rfl
          · exact .inl hf
        · exact .inr hf
      · have hins := Store.sumBy_insert_add (fun _ => g) s.funding (s.fundingId + 1)
          ⟨s.fundingId + 1, programId, payFromEpoch, coin.denom, coin.amount,
            coin.amount / (epochs - payFromEpoch + 1)⟩
        rw [Store.part_of_lookup_none _ hs.lookup_succ] at hins
        -- the weight does not read the id the funding is saved under
        have hid : g ⟨0, programId, payFromEpoch, coin.denom, coin.amount,
              coin.amount / (epochs - payFromEpoch + 1)⟩
            = g ⟨s.fundingId + 1, programId, payFromEpoch, coin.denom, coin.amount,
              coin.amount / (epochs - payFromEpoch + 1)⟩ :=
          hg ⟨s.fundingId + 1, programId, payFromEpoch, coin.denom, coin.amount,
            coin.amount / (epochs - payFromEpoch + 1)⟩
        rw [hsum, List.map_cons, List.sum_cons, hid]
        dsimp only
        omega

theorem executeFundProgram_eq_ok {programId : ℕ}
    (h : executeFundProgram s env info programId = .ok (s', ms)) :
    info.funds ≠ [] ∧ ∃ program payFromEpoch, s.programs.lookup programId = some program
      ∧ env.block.height < program.endBlock
      ∧ calcEpochToPayFrom env.block.height program = .ok payFromEpoch
      ∧ saveFundings programId payFromEpoch program.epochs s info.funds = .ok s'
      ∧ ms = [] := by
  simp only [executeFundProgram, ite_throw_eq_ok, bind_eq_ok, loadProgram_eq_ok,
    mapError_eq_ok, pure_eq_ok, Prod.mk.injEq, List.isEmpty_iff] at h
  obtain ⟨hfunds, program, hp, hend, payFromEpoch, hpay, s1, hsave, rfl, rfl⟩ := h
  exact ⟨hfunds, program, payFromEpoch, hp, Nat.lt_of_not_le hend, hpay, hsave, rfl⟩

theorem executeProcessEpoch_eq_ok {programId : ℕ}
    (h : executeProcessEpoch querier s env programId = .ok (s', ms)) :
    ∃ program info, s.programs.lookup programId = some program
      ∧ info.epochIdentifier = (s.lastEpochProcessed.lookup programId).getD 0 + 1
      ∧ info.epochIdentifier ≤ program.epochs
      ∧ info.forCoinsLockedBefore = program.startBlock + info.epochIdentifier * program.epochDuration
      ∧ info.forCoinsLockedBefore < env.block.height
      ∧ ((subPrefixRange Funding.payFromEpochKey programId none
          (some (.inclusive (toLex (info.epochIdentifier, Uint64.MAX)))) s.funding).map
            fun f => (⟨f.2.denom, f.2.toPayEachEpoch⟩ : Coin)).foldlM addCoins []
          = .ok info.toDistribute
      ∧ s' = { s with
          lastEpochProcessed := s.lastEpochProcessed.insert programId info.epochIdentifier
          epochInfo := s.epochInfo.insert (programId, info.epochIdentifier) info }
      ∧ ms = [] := by
  simp only [executeProcessEpoch, bind_eq_ok, loadProgram_eq_ok, mapError_eq_ok, addU64_eq_ok,
    mulU64_eq_ok, ite_throw_eq_ok, pure_eq_ok, Prod.mk.injEq] at h
  obtain ⟨program, hp, _, ⟨-, rfl⟩, hle, _, ⟨-, rfl⟩, _, ⟨-, rfl⟩, hh, _, ⟨-, rfl⟩,
    _, -, _, -, toDistribute, htd, rfl, rfl⟩ := h
  exact ⟨program, ⟨_, _, _, toDistribute, _⟩, hp, rfl, Nat.le_of_not_lt hle, rfl,
    Nat.lt_of_not_le hh, htd, rfl, rfl⟩

theorem executeWithdrawRewards_eq_ok {programId : ℕ}
    (h : executeWithdrawRewards querier s info programId = .ok (s', ms)) :
    ∃ program lastPaidEpoch toDistribute, s.programs.lookup programId = some program
      ∧ payEpochs querier s program info.sender 0 [] (epochsToPay s programId info.sender)
        = .ok (lastPaidEpoch, toDistribute)
      ∧ lastPaidEpoch ≠ 0
      ∧ s' = { s with
          withdrawals := s.withdrawals.insert (programId, info.sender) lastPaidEpoch }
      ∧ ms = if (toDistribute.filter fun coin => coin.amount ≠ 0).isEmpty then []
          else [.bank (.send info.sender (toDistribute.filter fun coin => coin.amount ≠ 0))] := by
  simp only [executeWithdrawRewards, bind_eq_ok, loadProgram_eq_ok, ite_throw_eq_ok] at h
  obtain ⟨program, hp, ⟨lastPaidEpoch, toDistribute⟩, hpay, hlast, h⟩ := h
  refine ⟨program, lastPaidEpoch, toDistribute, hp, hpay, hlast, ?_⟩
  -- the two responses differ only in the send
  by_cases hempty : (toDistribute.filter fun coin => coin.amount ≠ 0).isEmpty = true
  · rw [if_pos hempty] at h ⊢
    simp only [pure_eq_ok, Prod.mk.injEq] at h
    exact ⟨h.1.symm, h.2.symm⟩
  · rw [if_neg hempty] at h ⊢
    simp only [pure_eq_ok, Prod.mk.injEq] at h
    exact ⟨h.1.symm, h.2.symm⟩

-- ================================================ the epoch paid from

/-- For a program as `CreateProgram` saves it, ending `epochs` epochs
after its start, and a funding block from its start to before its end,
`calc_epoch_to_pay_from` returns the first epoch whose block is past the
funding block: its `todo!` is never reached, and since the epoch is at
most `epochs`, the divisor `epochs - pay_from_epoch + 1` of
`FundProgram` does not wrap and is at least one. -/
theorem calcEpochToPayFrom_least {program : Program} {fundingBlock : ℕ}
    (hend : program.endBlock = program.startBlock + program.epochs * program.epochDuration)
    (hstart : program.startBlock ≤ fundingBlock) (hlt : fundingBlock < program.endBlock) :
    ∃ i, calcEpochToPayFrom fundingBlock program = .ok i
      ∧ 1 ≤ i ∧ i ≤ program.epochs
      ∧ fundingBlock < program.startBlock + i * program.epochDuration
      ∧ (∀ j, 1 ≤ j → j < i → program.startBlock + j * program.epochDuration ≤ fundingBlock)
      ∧ 1 ≤ program.epochs - i + 1 := by
  unfold calcEpochToPayFrom
  split
  · next i hfind =>
      rw [List.find?_range'_eq_some, List.mem_range'_1] at hfind
      obtain ⟨hpast, hrange, hbefore⟩ := hfind
      refine ⟨i, rfl, hrange.1, by omega, by simpa [Nat.add_comm] using hpast, ?_, by omega⟩
      intro j hj hji
      simpa [Nat.add_comm] using hbefore j hj hji
  · next hfind =>
      -- the last epoch ends at the program's end, past the funding block
      rw [List.find?_range'_eq_none] at hfind
      have hepochs : 1 ≤ program.epochs := by
        rcases Nat.eq_zero_or_pos program.epochs with h0 | hpos
        · rw [h0, Nat.zero_mul, Nat.add_zero] at hend
          omega
        · exact hpos
      have hlast := hfind program.epochs hepochs (by omega)
      simp only [gt_iff_lt, Bool.not_eq_eq_eq_not, Bool.not_true, decide_eq_false_iff_not,
        not_lt] at hlast
      omega

/-- Ten epochs of 100 blocks from block 0, as `CreateProgram` saves them. -/
def tenEpochs : Program := ⟨1, 10, 100, 0, "unibi", 0, 1000⟩

/-- Funded at block 250, the program pays from epoch 3. -/
theorem tenEpochs_funded_at_250 :
    tenEpochs.endBlock = tenEpochs.startBlock + tenEpochs.epochs * tenEpochs.epochDuration
      ∧ tenEpochs.startBlock ≤ 250 ∧ 250 < tenEpochs.endBlock
      ∧ ∃ i, calcEpochToPayFrom 250 tenEpochs = .ok i
        ∧ 1 ≤ i ∧ i ≤ tenEpochs.epochs
        ∧ 250 < tenEpochs.startBlock + i * tenEpochs.epochDuration
        ∧ (∀ j, 1 ≤ j → j < i → tenEpochs.startBlock + j * tenEpochs.epochDuration ≤ 250)
        ∧ 1 ≤ tenEpochs.epochs - i + 1 :=
  ⟨rfl, by decide, by decide, calcEpochToPayFrom_least rfl (by decide) (by decide)⟩

example : calcEpochToPayFrom 250 tenEpochs = .ok 3 := by decide

-- ====================================================== stored ids

/-- What every reachable state keeps: the counters are past the stored
ids, and every funding is for a stored program. -/
structure Stored (s : State) : Prop where
  programs_le : Store.KeysLe s.programs s.programsId
  funding_le : Store.KeysLe s.funding s.fundingId
  funding_program : ∀ id f, s.funding.lookup id = some f → s.programs.lookup f.programId ≠ none

theorem stored_instantiate (lockupContractAddress : String) :
    Stored (instantiate lockupContractAddress) :=
  ⟨Store.keysLe_empty 0, Store.keysLe_empty 0, fun id f h => by simp [instantiate] at h⟩

/-- A stored program stays stored: no save overwrites it. -/
theorem Stored.lookup_program {p : ℕ} {program : Program} (hs : Stored s)
    (hp : s.programs.lookup p = some program) (program' : Program) :
    (s.programs.insert (s.programsId + 1) program').lookup p = some program := by
  have hne : p ≠ s.programsId + 1 := fun h => by
    rw [h, hs.programs_le.lookup_succ] at hp
    cases hp
  rw [AList.lookup_insert_ne hne]
  exact hp

theorem executeCreateProgram_stored {denom : String} {epochs epochDurationBlocks minLockupBlocks : ℕ}
    (hs : Stored s)
    (h : executeCreateProgram s env denom epochs epochDurationBlocks minLockupBlocks
      = .ok (s', ms)) : Stored s' := by
  obtain ⟨-, -, rfl, -⟩ := executeCreateProgram_eq_ok h
  refine ⟨hs.programs_le.insert_succ _, hs.funding_le, fun id f hf => ?_⟩
  obtain ⟨program, hp⟩ := Option.ne_none_iff_exists'.mp (hs.funding_program id f hf)
  rw [hs.lookup_program hp]
  exact Option.some_ne_none program

theorem executeFundProgram_stored {programId : ℕ} (hs : Stored s)
    (h : executeFundProgram s env info programId = .ok (s', ms)) : Stored s' := by
  obtain ⟨-, program, payFromEpoch, hp, -, -, hsave, -⟩ := executeFundProgram_eq_ok h
  obtain ⟨hs', hframe, hnew, -⟩ := saveFundings_eq_ok (fun _ => 0) (fun _ => rfl) hs.funding_le hsave
  have hprograms : s'.programs = s.programs := by rw [← hframe]
  have hprogramsId : s'.programsId = s.programsId := by rw [← hframe]
  refine ⟨?_, hs', fun id f hf => ?_⟩
  · rw [hprograms, hprogramsId]
    exact hs.programs_le
  · rw [hprograms]
    rcases hnew id f hf with hf | rfl
    · exact hs.funding_program id f hf
    · rw [hp]
      exact Option.some_ne_none program

theorem executeProcessEpoch_stored {programId : ℕ} (hs : Stored s)
    (h : executeProcessEpoch querier s env programId = .ok (s', ms)) : Stored s' := by
  obtain ⟨-, -, -, -, -, -, -, -, rfl, -⟩ := executeProcessEpoch_eq_ok h
  exact ⟨hs.programs_le, hs.funding_le, hs.funding_program⟩

theorem executeWithdrawRewards_stored {programId : ℕ} (hs : Stored s)
    (h : executeWithdrawRewards querier s info programId = .ok (s', ms)) : Stored s' := by
  obtain ⟨-, -, -, -, -, -, rfl, -⟩ := executeWithdrawRewards_eq_ok h
  exact ⟨hs.programs_le, hs.funding_le, hs.funding_program⟩

/-- Every committed message keeps `Stored`, whatever the querier answers. -/
theorem execute_stored {msg : ExecuteMsg} (hs : Stored s)
    (h : execute querier s env info msg = .ok (s', ms)) : Stored s' := by
  cases msg with
  | createProgram denom epochs epochBlockDuration minLockupBlocks =>
      exact executeCreateProgram_stored hs h
  | fundProgram id => exact executeFundProgram_stored hs h
  | processEpoch id => exact executeProcessEpoch_stored hs h
  | withdrawRewards id => exact executeWithdrawRewards_stored hs h

end NibiruWasm.Incentives
