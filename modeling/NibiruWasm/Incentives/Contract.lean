/-
incentives: reward programs for the holders of lockup locks
(`contract.rs`, `state.rs`, `error.rs`, `lib.rs`).

A program pays, for each of its epochs, the coins funded for it to the
owners of locks of its denom. `FundProgram` splits each coin sent evenly
over the epochs from the next one on (`calc_epoch_to_pay_from`);
`ProcessEpoch` fixes an epoch's `EpochInfo`: the coins to distribute and
`total_locked`, the sum of the locks that `LocksByDenomBetween` returns
at the height of processing; `WithdrawRewards` pays the sender, for each
epoch processed since its last withdrawal, each coin times the sender's
own `LocksByDenomAndAddressBetween` sum, asked again at the height of
the withdrawal, over `total_locked`.

The lockup contract is reached through its queries only: `execute`
takes the querier, the answers of the contract at an address at the
current block, as a parameter; `Incentives.System` wires it to the lockup
model. Events, the response data of `ProcessEpoch` and the `println!`s
are left out; this contract's own queries are in `Incentives.Query`.
-/
import NibiruWasm.Lockup.Query
import NibiruWasm.Cosmwasm.Decimal
import NibiruWasm.Chain.Index

namespace NibiruWasm.Incentives

open Cosmwasm Chain

/-- `Funding`. -/
structure Funding where
  id : ℕ
  programId : ℕ
  payFromEpoch : ℕ
  denom : String
  initialAmount : ℕ
  toPayEachEpoch : ℕ
  deriving DecidableEq, Repr

/-- `Program`. -/
structure Program where
  id : ℕ
  epochs : ℕ
  epochDuration : ℕ
  minLockupDurationBlocks : ℕ
  lockupDenom : String
  startBlock : ℕ
  endBlock : ℕ
  deriving DecidableEq, Repr

/-- `EpochInfo`. -/
structure EpochInfo where
  epochIdentifier : ℕ
  forCoinsLockedBefore : ℕ
  forCoinsUnlockingAfter : ℕ
  toDistribute : List Coin
  totalLocked : ℕ
  deriving DecidableEq, Repr

/-- `ContractError`, the variants the handlers return. -/
inductive ContractError
  | std (e : StdError)
  | nothingToWithdraw (msg : String)
  | fundsRequired
  | epochOutOfBounds (epoch programId : ℕ)
  | epochProcessBlock (epoch programId block : ℕ)
  | programFinished (programId endBlock currentBlock : ℕ)
  deriving DecidableEq, Repr

/-- `ContractError`'s `Display`. -/
def ContractError.display : ContractError → String
  | .std e => e.display
  | .nothingToWithdraw msg => "no rewards to withdraw: " ++ msg
  | .fundsRequired => "funds required"
  | .epochOutOfBounds epoch programId =>
      "epoch out of bounds for program " ++ toString programId ++ ": " ++ toString epoch
  | .epochProcessBlock epoch programId block =>
      "epoch " ++ toString epoch ++ " for program " ++ toString programId
        ++ " can be processed after block " ++ toString block
  | .programFinished programId endBlock currentBlock =>
      "incentives program has finished at block " ++ toString endBlock
        ++ " (current block: " ++ toString currentBlock ++ "): " ++ toString programId

/-- Contract storage after `instantiate`. `PROGRAMS_ID`, `FUNDING_ID`
and `LOCKUP_ADDR` are saved by `instantiate`, so their loads cannot fail. -/
structure State where
  lockupAddr : String
  programs : Store ℕ Program
  programsId : ℕ
  lastEpochProcessed : Store ℕ ℕ
  epochInfo : Store (ℕ × ℕ) EpochInfo
  withdrawals : Store (ℕ × String) ℕ
  fundingId : ℕ
  funding : Store ℕ Funding

/-- `instantiate`. -/
def instantiate (lockupContractAddress : String) : State :=
  ⟨lockupContractAddress, ∅, 0, ∅, ∅, ∅, 0, ∅⟩

/-- `ExecuteMsg`. -/
inductive ExecuteMsg
  | createProgram (denom : String) (epochs epochBlockDuration minLockupBlocks : ℕ)
  | fundProgram (id : ℕ)
  | processEpoch (id : ℕ)
  | withdrawRewards (id : ℕ)
  deriving DecidableEq, Repr

/-- What the lockup contract answers a query sent to an address, at the
current block. -/
abbrev LockupQuerier := String → Lockup.QueryMsg → Except StdError (List Lockup.Lock)

-- ========================================================== helpers

/-- `add_coins`: adds a coin to the first one of its denom, or appends
it; `+=` on `Uint128` panics on overflow. -/
def addCoins : List Coin → Coin → Except StdError (List Coin)
  | [], coin => .ok [coin]
  | c :: cs, coin =>
      if c.denom = coin.denom then do
        let amount ← add c.amount coin.amount
        pure (⟨c.denom, amount⟩ :: cs)
      else do
        let cs ← addCoins cs coin
        pure (c :: cs)

/-- `PROGRAMS.load`. -/
def loadProgram (programs : Store ℕ Program) (id : ℕ) : Except ContractError Program :=
  match programs.lookup id with
  | some program => .ok program
  | none => .error (.std (.notFound "incentives::state::Program"))

/-- `calc_epoch_to_pay_from`: the first epoch whose block is past the
funding block, `todo!` when there is none. The blocks are at most the
program's end block, which `CreateProgram` computed without overflow. -/
def calcEpochToPayFrom (fundingBlock : ℕ) (program : Program) : Except StdError ℕ :=
  match (List.range' 1 program.epochs).find?
      (fun i => i * program.epochDuration + program.startBlock > fundingBlock) with
  | some i => .ok i
  | none => .error (.panic "not yet implemented: cover")

/-- The `funding().idx.pay_from_epoch` index key: program, then the epoch
the funding pays from. -/
def Funding.payFromEpochKey (f : Funding) : ℕ × ℕ := (f.programId, f.payFromEpoch)

/-- `checked_multiply_ratio(..).unwrap()`: an error is a panic. -/
def unwrapMultiplyRatio (e : CheckedMultiplyRatioError) : StdError :=
  .panic ("called `Result::unwrap()` on an `Err` value: " ++ e.debug)

variable (querier : LockupQuerier) (s : State) (env : Env) (info : MessageInfo)

-- ========================================================= handlers

/-- `execute_create_program`: the next program id, from the current
block for `epochs * epoch_duration_blocks` blocks. -/
def executeCreateProgram (denom : String) (epochs epochDurationBlocks minLockupBlocks : ℕ) :
    Except ContractError (State × List CosmosMsg) := do
  let id ← (addU64 s.programsId 1).mapError .std
  let span ← (mulU64 epochs epochDurationBlocks).mapError .std
  let endBlock ← (addU64 env.block.height span).mapError .std
  let program : Program :=
    ⟨id, epochs, epochDurationBlocks, minLockupBlocks, denom, env.block.height, endBlock⟩
  pure ({ s with programsId := id, programs := s.programs.insert id program }, [])

/-- The loop of `execute_fund_program`: one funding per coin, each under
the next id of `FUNDING_ID`, paying its amount over the epochs left. -/
def saveFundings (programId payFromEpoch epochs : ℕ) : State → List Coin → Except ContractError State
  | s, [] => .ok s
  | s, coin :: rest => do
      let fundingId ← (addU64 s.fundingId 1).mapError .std
      let f : Funding := ⟨fundingId, programId, payFromEpoch, coin.denom, coin.amount,
        coin.amount / (epochs - payFromEpoch + 1)⟩
      saveFundings programId payFromEpoch epochs
        { s with fundingId, funding := s.funding.insert fundingId f } rest

/-- `execute_fund_program`: coins for a program that has not ended. -/
def executeFundProgram (programId : ℕ) : Except ContractError (State × List CosmosMsg) :=
  if info.funds.isEmpty then throw .fundsRequired
  else do
    let program ← loadProgram s.programs programId
    if program.endBlock ≤ env.block.height then
      throw (.programFinished programId program.endBlock env.block.height)
    else do
      let payFromEpoch ← (calcEpochToPayFrom env.block.height program).mapError .std
      let s' ← saveFundings programId payFromEpoch program.epochs s info.funds
      pure (s', [])

/-- `execute_process_epoch`: the next epoch of a program, once its block
has passed; the coins to distribute are the per-epoch amounts of the
fundings that pay from this epoch or earlier. -/
def executeProcessEpoch (programId : ℕ) : Except ContractError (State × List CosmosMsg) := do
  let program ← loadProgram s.programs programId
  let epochToProcess ← (addU64 ((s.lastEpochProcessed.lookup programId).getD 0) 1).mapError .std
  if epochToProcess > program.epochs then
    throw (.epochOutOfBounds epochToProcess programId)
  else do
    let span ← (mulU64 epochToProcess program.epochDuration).mapError .std
    let epochProcessBlock ← (addU64 program.startBlock span).mapError .std
    if env.block.height ≤ epochProcessBlock then
      throw (.epochProcessBlock epochToProcess programId epochProcessBlock)
    else do
      let lockupQualificationBlock ←
        (addU64 epochProcessBlock program.minLockupDurationBlocks).mapError .std
      let locks ← (querier s.lockupAddr (.locksByDenomBetween program.lockupDenom
        epochProcessBlock lockupQualificationBlock)).mapError .std
      let totalLocked ← (sum (locks.map (·.coin.amount))).mapError .std
      let fundings := subPrefixRange Funding.payFromEpochKey programId none
        (some (.inclusive (toLex (epochToProcess, Uint64.MAX)))) s.funding
      let toDistribute ← ((fundings.map fun f => (⟨f.2.denom, f.2.toPayEachEpoch⟩ : Coin)).foldlM
        addCoins []).mapError .std
      let epochInfo : EpochInfo := ⟨epochToProcess, epochProcessBlock, lockupQualificationBlock,
        toDistribute, totalLocked⟩
      pure ({ s with
        lastEpochProcessed := s.lastEpochProcessed.insert programId epochToProcess
        epochInfo := s.epochInfo.insert (programId, epochToProcess) epochInfo }, [])

/-- One epoch's coins for the sender: each coin times the sender's
qualified locked amount over the epoch's `total_locked`. -/
def epochRewards (toDistribute : List Coin) (epoch : EpochInfo) (qualifiedLockedAmount : ℕ) :
    Except StdError (List Coin) :=
  epoch.toDistribute.foldlM (fun acc coin => do
      let coinAmount ← (checkedMultiplyRatio coin.amount qualifiedLockedAmount
        epoch.totalLocked).mapError unwrapMultiplyRatio
      addCoins acc ⟨coin.denom, coinAmount⟩) toDistribute

/-- The loop of `execute_withdraw_rewards`: for each epoch, the sender's
qualified locks asked of the lockup contract now, and its share of each
coin. Returns the last epoch paid and the coins. -/
def payEpochs (program : Program) (sender : String) :
    ℕ → List Coin → List EpochInfo → Except ContractError (ℕ × List Coin)
  | lastPaidEpoch, toDistribute, [] => .ok (lastPaidEpoch, toDistribute)
  | _, toDistribute, epoch :: rest => do
      let epochQualifiedLocks ← (querier s.lockupAddr (.locksByDenomAndAddressBetween
        program.lockupDenom sender epoch.forCoinsLockedBefore
        epoch.forCoinsUnlockingAfter)).mapError .std
      let qualifiedLockedAmount ← (sum (epochQualifiedLocks.map (·.coin.amount))).mapError .std
      -- `user_ownership_ratio` is only printed, but `from_ratio` panics on a zero total
      let _ ← (Decimal.fromRatio qualifiedLockedAmount epoch.totalLocked).mapError .std
      let toDistribute ← (epochRewards toDistribute epoch qualifiedLockedAmount).mapError .std
      payEpochs program sender epoch.epochIdentifier toDistribute rest

/-- The epochs the sender has not been paid for: `EPOCH_INFO` under the
program, after the sender's last withdrawal, or from 0 without one. -/
def epochsToPay (programId : ℕ) (sender : String) : List EpochInfo :=
  let lo : Bound ℕ := match s.withdrawals.lookup (programId, sender) with
    | some lastWithdrawal => .exclusive lastWithdrawal
    | none => .inclusive 0
  (prefixRange programId (some lo) none s.epochInfo).map (·.2)

/-- `execute_withdraw_rewards`: the sender's rewards for the epochs since
its last withdrawal, sent without the zero coins. -/
def executeWithdrawRewards (programId : ℕ) : Except ContractError (State × List CosmosMsg) := do
  let program ← loadProgram s.programs programId
  let (lastPaidEpoch, toDistribute) ←
    payEpochs querier s program info.sender 0 [] (epochsToPay s programId info.sender)
  if lastPaidEpoch = 0 then throw (.nothingToWithdraw "")
  else
    let s' := { s with withdrawals := s.withdrawals.insert (programId, info.sender) lastPaidEpoch }
    let toDistribute := toDistribute.filter fun coin => coin.amount ≠ 0
    if toDistribute.isEmpty then pure (s', [])
    else pure (s', [.bank (.send info.sender toDistribute)])

/-- `execute`. -/
def execute : ExecuteMsg → Except ContractError (State × List CosmosMsg)
  | .createProgram denom epochs epochBlockDuration minLockupBlocks =>
      executeCreateProgram s env denom epochs epochBlockDuration minLockupBlocks
  | .fundProgram id => executeFundProgram s env info id
  | .processEpoch id => executeProcessEpoch querier s env id
  | .withdrawRewards id => executeWithdrawRewards querier s info id

end NibiruWasm.Incentives
