/-
pricefeed: an oracle contract. Whitelisted oracles post raw prices for
asset pairs, and at the start of every block the contract turns the
unexpired prices of each active pair into a current price, their median,
and a time-weighted average (`contract.rs`, `state.rs`, `lib.rs`,
`error.rs`).

The chain drives it through `sudo`: `AddOracleProposal` whitelists
oracles for pairs, and `BeginBlock` computes the prices. An oracle would
call `execute` with `PostPrice`, but `execute` has no `#[entry_point]`:
the contract's wasm exports only `instantiate`, `query` and `sudo`, so
on chain no `PostPrice` ever commits and no raw price is ever posted.
The model keeps `execute` as the source writes it, and `step` runs it as
if it were exported; a run of the deployed contract is a run whose
transactions are all `sudo` calls. A pair is the text `token0:token1`:
`AssetPair::try_from` splits a text at every `:` and asks for exactly
two parts, and the pair's `Display` joins them back.

Three places in the code do not do what the names around them say, and
the model keeps each of them as the source has it:

- `PostPrice` asks the whitelist the same question twice, once as
  `whitelisted` and once as `inverse_whitelist`, so every accepted price
  is inverted (`Decimal::one() / price`);
- `AssetPair::inverse` returns the pair itself, unswapped;
- no handler writes `ACTIVE_PAIRS`.

A transaction reads only `env.block.time` of its environment, a
`Timestamp` in nanoseconds. The events, the comparison of a median with
the previous price (a `todo`) and the removal of a current price just
before `BeginBlock` fails (the failure reverts it) are left out. A
response carries no message.
-/
import NibiruWasm.Cosmwasm.Decimal
import NibiruWasm.Chain.Index
import Mathlib.Data.String.Basic
import Mathlib.Data.Finset.Dedup

namespace NibiruWasm.Pricefeed

open Cosmwasm Chain

/-- `PAIR_SEPARATOR`. -/
def pairSeparator : Char := ':'

/-- `ContractError`, the variants the handlers raise. -/
inductive ContractError
  | std (e : StdError)
  | invalidAssetPair (msg : String)
  | unauthorized (addr : String)
  | expired
  | negativePrice
  | noValidPrice
  deriving DecidableEq, Repr

/-- `ContractError`'s `Display`. -/
def ContractError.display : ContractError → String
  | .std e => e.display
  | .invalidAssetPair msg => "invalid asset pair: " ++ msg
  | .unauthorized addr => "action unauthorized: for " ++ addr
  | .expired => "expired"
  | .negativePrice => "negative price"
  | .noValidPrice => "no valid price"

-- ======================================================== asset pairs

/-- `AssetPair`. -/
structure AssetPair where
  token0 : String
  token1 : String
  deriving DecidableEq, Repr

namespace AssetPair

/-- `AssetPair::new`. -/
def new (token0 token1 : String) : AssetPair := ⟨token0, token1⟩

/-- `AssetPair::inverse`: as written, the pair itself. -/
def inverse (p : AssetPair) : AssetPair := ⟨p.token0, p.token1⟩

/-- `AssetPair`'s `Display`: `token0:token1`. -/
def toString (p : AssetPair) : String :=
  p.token0 ++ String.singleton pairSeparator ++ p.token1

/-- `AssetPair::try_from`: the text split at every `:`, which must give
exactly two parts. -/
def tryFrom (value : String) : Except ContractError AssetPair :=
  match value.toList.splitOn pairSeparator with
  | [token0, token1] => .ok ⟨String.ofList token0, String.ofList token1⟩
  | _ => .error (.invalidAssetPair "invalid separator")

/-- `AssetPair::try_from(..).unwrap()`: a text that is not a pair panics
with the `Debug` of the one error `try_from` raises. -/
def unwrapFrom (value : String) : Except ContractError AssetPair :=
  match tryFrom value with
  | .ok p => .ok p
  | .error _ => .error (.std (.panic
      "called `Result::unwrap()` on an `Err` value: InvalidAssetPair(\"invalid separator\")"))

end AssetPair

-- ============================================================ storage

/-- `PostedPrice`. -/
structure PostedPrice where
  pairId : String
  oracle : String
  price : Decimal
  expiry : Timestamp
  deriving DecidableEq

/-- `CurrentTWAP`: the running sums of the average and their quotient. -/
structure CurrentTWAP where
  pairId : String
  numerator : Decimal
  denominator : Decimal
  price : Decimal
  deriving DecidableEq

/-- Contract storage: `ORACLE_PAIR_WHITELIST` and `RAW_PRICES` keyed by
(pair, oracle), and `ACTIVE_PAIRS`, `CURRENT_PRICES` and `CURRENT_TWAP`
keyed by pair. -/
structure State where
  oraclePairWhitelist : Store (String × String) Unit
  activePairs : Store String Unit
  rawPrices : Store (String × String) PostedPrice
  currentPrices : Store String Decimal
  currentTwap : Store String CurrentTWAP

/-- `instantiate`: writes nothing. -/
def instantiate : State := ⟨∅, ∅, ∅, ∅, ∅⟩

/-- `ExecuteMsg`. -/
inductive ExecuteMsg
  | postPrice (token0 token1 : String) (price : Decimal) (expiry : Timestamp)

/-- `SudoMsg`. -/
inductive SudoMsg
  | beginBlock
  | addOracleProposal (oracles pairs : List String)

-- ========================================================= PostPrice

/-- `execute` `PostPrice`: a whitelisted oracle saves a price for the
pair under its own address. -/
def postPrice (s : State) (time : Timestamp) (info : MessageInfo) (token0 token1 : String)
    (price : Decimal) (expiry : Timestamp) : Except ContractError (State × List CosmosMsg) := do
  let assetPair := AssetPair.new token0 token1
  let whitelisted := decide ((assetPair.toString, info.sender) ∈ s.oraclePairWhitelist)
  -- meant for the inverse pair, the source asks about the pair itself again
  let inverseWhitelist := decide ((assetPair.toString, info.sender) ∈ s.oraclePairWhitelist)
  if !whitelisted && !inverseWhitelist then throw (.unauthorized info.sender)
  let price ← if inverseWhitelist then (Decimal.one.div price).mapError .std else pure price
  if expiry.nanos < time.nanos then throw .expired
  if price.atomics < Decimal.zero.atomics then throw .negativePrice
  let assetPair :=
    if assetPair.inverse.toString ∈ s.activePairs then assetPair.inverse else assetPair
  if (assetPair.toString, info.sender) ∉ s.oraclePairWhitelist then
    throw (.unauthorized info.sender)
  let posted : PostedPrice := ⟨assetPair.toString, info.sender, price, expiry⟩
  pure ({ s with rawPrices := s.rawPrices.insert (assetPair.toString, info.sender) posted }, [])

-- ======================================================== BeginBlock

/-- `calculate_median_price`: the middle price of the sorted prices or,
for an even count, the sum of the two middle ones divided by
`Decimal::new(Uint128::new(2))`, which is two units (`2·10^-18`), not
the number two. An empty list panics at `prices[0]`. -/
def calculateMedianPrice (prices : List Decimal) : Except StdError Decimal :=
  let l := prices.length
  if l = 0 then .error (.panic "index out of bounds: the len is 0 but the index is 0")
  else
    -- `sort` is stable, and prices with the same units are equal, so
    -- every sort by units gives this list
    let prices := prices.insertionSort fun a b => a.atomics ≤ b.atomics
    if l % 2 = 0 then do
      let sum ← (prices.getD (l / 2 - 1) Decimal.zero).add (prices.getD (l / 2) Decimal.zero)
      sum.div (Decimal.new 2 (by norm_num))
    else .ok (prices.getD (l / 2) Decimal.zero)

/-- `Decimal::new(Uint128::from(time.seconds()))`: the block's seconds,
read as units, are the weight of its median in the average. -/
def secondsWeight (time : Timestamp) : Decimal := Decimal.new time.seconds time.seconds_lt

/-- The prices `BeginBlock` reads for a pair: the raw prices under it,
in oracle order, that expire after the block. -/
def validPrices (s : State) (time : Timestamp) (pairId : String) : List Decimal :=
  (((prefixRange pairId none none s.rawPrices).map Prod.snd).filter
    fun o => decide (time.nanos < o.expiry.nanos)).map PostedPrice.price

/-- `CURRENT_TWAP.load(..).unwrap_or(..)`: a pair without an average
starts from zero sums. -/
def loadTwap (s : State) (key : String) : CurrentTWAP :=
  (s.currentTwap.lookup key).getD ⟨key, Decimal.zero, Decimal.zero, Decimal.zero⟩

/-- The body of `BeginBlock`'s loop for one active pair: the median of
its valid prices becomes its current price, and the average takes the
median in. -/
def updatePair (time : Timestamp) (s : State) (assetPair : AssetPair) :
    Except ContractError State := do
  let key := assetPair.toString
  let rawPrices := validPrices s time key
  if rawPrices.isEmpty then throw .noValidPrice
  let medianPrice ← (calculateMedianPrice rawPrices).mapError .std
  let s := { s with currentPrices := s.currentPrices.insert key medianPrice }
  let currentTwap := loadTwap s key
  let newDenominator ← (currentTwap.denominator.add (secondsWeight time)).mapError .std
  let newNumerator ← (do
    currentTwap.numerator.add (← medianPrice.mul (secondsWeight time))).mapError .std
  let price ← (newNumerator.div newDenominator).mapError .std
  pure { s with
    currentTwap := s.currentTwap.insert key ⟨key, newNumerator, newDenominator, price⟩ }

/-- `sudo` `BeginBlock`: every active pair, in key order, through
`updatePair`. All keys are parsed first, and one that is not a pair
panics; a pair without a valid price fails the whole block. -/
def beginBlock (s : State) (time : Timestamp) : Except ContractError (State × List CosmosMsg) := do
  let assetPairs ← (s.activePairs.keys.insertionSort (· ≤ ·)).mapM AssetPair.unwrapFrom
  let s' ← assetPairs.foldlM (updatePair time) s
  pure (s', [])

-- ================================================= AddOracleProposal

/-- The body of `AddOracleProposal`'s loop for one pair: the pair must
parse, and then every oracle is whitelisted for it. -/
def whitelistPair (oracles : List String) (s : State) (pair : String) :
    Except ContractError State := do
  let _ ← AssetPair.tryFrom pair
  pure { s with oraclePairWhitelist :=
    oracles.foldl (fun whitelist oracle => whitelist.insert (pair, oracle) ()) s.oraclePairWhitelist }

/-- `sudo` `AddOracleProposal`: a pair that does not parse fails the
whole proposal, the pairs before it included. -/
def addOracleProposal (s : State) (oracles pairs : List String) :
    Except ContractError (State × List CosmosMsg) := do
  let s' ← pairs.foldlM (whitelistPair oracles) s
  pure (s', [])

-- ======================================================= entry points

/-- `execute`. -/
def execute (s : State) (time : Timestamp) (info : MessageInfo) :
    ExecuteMsg → Except ContractError (State × List CosmosMsg)
  | .postPrice token0 token1 price expiry => postPrice s time info token0 token1 price expiry

/-- `sudo`. -/
def «sudo» (s : State) (time : Timestamp) : SudoMsg → Except ContractError (State × List CosmosMsg)
  | .beginBlock => beginBlock s time
  | .addOracleProposal oracles pairs => addOracleProposal s oracles pairs

/-- What a transaction calls: `execute` for a sender, or `sudo` for the
chain. -/
inductive Call
  | execute (info : MessageInfo) (msg : ExecuteMsg)
  | «sudo» (msg : SudoMsg)

/-- One transaction: the block's time and the call. -/
structure Tx where
  time : Timestamp
  call : Call

/-- A transaction as the chain would run it with `execute` exported. The
deployed contract has no `execute` entry point (its wasm exports only
`instantiate`, `query` and `sudo`), so on chain an `.execute` transaction
fails before the contract runs and no `PostPrice` commits. -/
def step (s : State) (tx : Tx) : Except ContractError (State × List CosmosMsg) :=
  match tx.call with
  | .execute info msg => execute s tx.time info msg
  | .«sudo» msg => «sudo» s tx.time msg

-- ============================================================ queries

/-- `CurrentPrice`. -/
structure CurrentPrice where
  pairId : String
  price : Decimal
  deriving DecidableEq

/-- `Market`. -/
structure Market where
  pairId : String
  oracles : List String
  active : Bool
  deriving DecidableEq

/-- `query` `Price`: the pair's current price; a pair without one is
`StdError::NotFound` of `Decimal`. -/
def queryPrice (s : State) (pairId : String) : Except StdError CurrentPrice :=
  match s.currentPrices.lookup pairId with
  | some price => .ok ⟨pairId, price⟩
  | none => .error (.notFound "cosmwasm_std::math::decimal::Decimal")

/-- `query` `Prices`: every current price, in pair order. -/
def queryPrices (s : State) : List CurrentPrice :=
  (s.currentPrices.entries.insertionSort fun a b => a.1 ≤ b.1).map fun e => ⟨e.1, e.2⟩

/-- `query` `RawPrices`: the raw prices under a pair, expired ones
included, in oracle order. -/
def queryRawPrices (s : State) (pairId : String) : List PostedPrice :=
  (prefixRange pairId none none s.rawPrices).map Prod.snd

/-- `query` `Oracles`: the oracles whitelisted for any pair, each once.
They go through a `HashSet`, whose order is not fixed, so the model
answers the set. -/
def queryOracles (s : State) : Finset String :=
  (s.oraclePairWhitelist.keys.map Prod.snd).toFinset

/-- `query` `Markets`: every active pair with its whitelisted oracles,
in pair order. -/
def queryMarkets (s : State) : List Market :=
  (s.activePairs.keys.insertionSort (· ≤ ·)).map fun pair =>
    ⟨pair, (prefixRange pair none none s.oraclePairWhitelist).map Prod.fst, true⟩

end NibiruWasm.Pricefeed
