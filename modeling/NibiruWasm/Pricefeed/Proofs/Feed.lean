/-
What every run of the price feed keeps, from instantiation, for any
transactions in any order, by any senders and at any times.

# Raw prices

Only `PostPrice` saves a raw price, under the key of the pair's text and
the sender, and only after the sender's whitelist check for that pair.
The whitelist only grows, and `AddOracleProposal` adds a pair only when
it parses. So after every run (`raw_prices_posted`):

- every whitelisted pair parses;
- every stored raw price names its own pair and oracle, is whitelisted,
  and was saved by a committed `PostPrice` of that oracle for that pair,
  whitelisted when it posted; what it holds is `Decimal::one()` divided
  by the posted price.

The invariant is a predicate of the history and the state
(`FeedHistory`), carried by `trace_invariant` from one step lemma.

# Current prices

No handler writes `ACTIVE_PAIRS`. It stays empty, so `BeginBlock`
updates no pair, and `CURRENT_PRICES` and `CURRENT_TWAP` stay empty:
after every run the `Price` query fails for every pair
(`no_price_published`).
-/
import NibiruWasm.Pricefeed.Proofs.Median
import NibiruWasm.Chain.Run

namespace NibiruWasm.Pricefeed

open Cosmwasm Chain

-- ========================================================= raw prices

/-- The pairs of the whitelist parse. -/
def PairsParse (s : State) : Prop :=
  ∀ k ∈ s.oraclePairWhitelist, ∃ p, AssetPair.tryFrom k.1 = .ok p

/-- The raw price `v` under `k` came from the history `cs`: a committed
`PostPrice` of the oracle `k.2` for the pair `k.1`, whitelisted when it
posted, saved it as `Decimal::one()` divided by the posted price. -/
def PostedBy (cs : List (Commit State Tx CosmosMsg)) (k : String × String) (v : PostedPrice) :
    Prop :=
  ∃ c ∈ cs, ∃ info token0 token1 price,
    c.tx.call = .execute info (.postPrice token0 token1 price v.expiry)
      ∧ info.sender = k.2 ∧ (AssetPair.new token0 token1).toString = k.1
      ∧ k ∈ c.pre.oraclePairWhitelist ∧ Decimal.one.div price = .ok v.price

/-- What a history and its state keep: the whitelist's pairs parse, and
every raw price names its key, is whitelisted, and was posted in the
history. -/
structure FeedHistory (cs : List (Commit State Tx CosmosMsg)) (s : State) : Prop where
  pairsParse : PairsParse s
  rawPrices : ∀ k v, s.rawPrices.lookup k = some v →
    v.pairId = k.1 ∧ v.oracle = k.2 ∧ k ∈ s.oraclePairWhitelist ∧ PostedBy cs k v

theorem PostedBy.append {cs : List (Commit State Tx CosmosMsg)} {k : String × String}
    {v : PostedPrice} (h : PostedBy cs k v) (c : Commit State Tx CosmosMsg) :
    PostedBy (cs ++ [c]) k v := by
  obtain ⟨c', hc', rest⟩ := h
  exact ⟨c', List.mem_append_left _ hc', rest⟩

theorem feedHistory_instantiate : FeedHistory [] instantiate := by
  constructor
  · intro k hk
    exact absurd hk (AList.notMem_empty k)
  · intro k v hk
    simp [instantiate] at hk

/-- A step that keeps the whitelist and the raw prices keeps the
history, one commit longer. -/
private theorem feedHistory_of_same {cs : List (Commit State Tx CosmosMsg)} {s s' : State}
    (H : FeedHistory cs s) (hwhitelist : s'.oraclePairWhitelist = s.oraclePairWhitelist)
    (hraw : s'.rawPrices = s.rawPrices) (c : Commit State Tx CosmosMsg) :
    FeedHistory (cs ++ [c]) s' := by
  constructor
  · intro k hk
    rw [hwhitelist] at hk
    exact H.pairsParse k hk
  · intro k v hk
    rw [hraw] at hk
    obtain ⟨hpair, horacle, hmem, hposted⟩ := H.rawPrices k v hk
    exact ⟨hpair, horacle, hwhitelist ▸ hmem, hposted.append c⟩

/-- Every committed step keeps the history. -/
theorem step_feedHistory {cs : List (Commit State Tx CosmosMsg)} {s s' : State} {tx : Tx}
    {ms : List CosmosMsg} (H : FeedHistory cs s) (h : step s tx = .ok (s', ms)) :
    FeedHistory (cs ++ [⟨s, tx, s', ms⟩]) s' := by
  obtain ⟨-, -, hpost | hpropose | hblock⟩ := step_eq_ok h
  · -- `PostPrice` saves one raw price, the one this commit posted
    obtain ⟨info, token0, token1, price, expiry, inverted, hcall, hmem, hdiv, rfl⟩ := hpost
    constructor
    · exact H.pairsParse
    · intro k v hk
      rcases Store.lookup_insert_cases hk with ⟨rfl, rfl⟩ | ⟨-, hk⟩
      · refine ⟨rfl, rfl, hmem, ⟨s, tx, _, ms⟩, List.mem_append_right _ List.mem_cons_self,
          info, token0, token1, price, hcall, rfl, rfl, hmem, hdiv⟩
      · obtain ⟨hpair, horacle, hmem', hposted⟩ := H.rawPrices k v hk
        exact ⟨hpair, horacle, hmem', hposted.append _⟩
  · -- `AddOracleProposal` only adds pairs that parse
    obtain ⟨oracles, pairs, -, hparse, hmem, hframe⟩ := hpropose
    have hraw : s'.rawPrices = s.rawPrices := by rw [← hframe]
    constructor
    · intro k hk
      rcases (hmem k).mp hk with hk | ⟨hpair, -⟩
      · exact H.pairsParse k hk
      · exact hparse k.1 hpair
    · intro k v hk
      rw [hraw] at hk
      obtain ⟨hpair, horacle, hmem', hposted⟩ := H.rawPrices k v hk
      exact ⟨hpair, horacle, (hmem k).mpr (.inl hmem'), hposted.append _⟩
  · obtain ⟨-, hsame, -⟩ := hblock
    exact feedHistory_of_same H hsame.whitelist hsame.rawPrices _

/-- After every run, the whitelisted pairs parse, and every raw price
names its pair and oracle, is whitelisted, and was saved by a committed
`PostPrice` of its oracle for its pair, whitelisted when it posted, as
`Decimal::one()` divided by the posted price. -/
theorem raw_prices_posted (txs : List Tx) :
    PairsParse (run step instantiate txs).1
      ∧ ∀ k v, (run step instantiate txs).1.rawPrices.lookup k = some v →
        v.pairId = k.1 ∧ v.oracle = k.2 ∧ k ∈ (run step instantiate txs).1.oraclePairWhitelist
          ∧ ∃ c ∈ trace step instantiate txs, ∃ info token0 token1 price,
            c.tx.call = .execute info (.postPrice token0 token1 price v.expiry)
              ∧ info.sender = k.2 ∧ (AssetPair.new token0 token1).toString = k.1
              ∧ k ∈ c.pre.oraclePairWhitelist ∧ Decimal.one.div price = .ok v.price := by
  have H := trace_invariant FeedHistory
    (fun _ _ _ _ _ H h => step_feedHistory H h) [] txs feedHistory_instantiate
  rw [List.nil_append] at H
  exact ⟨H.pairsParse, H.rawPrices⟩

/-- The price 2: `2·10^18` units. -/
def priceTwo : Decimal := ⟨2 * 10 ^ Decimal.decimalPlaces, by norm_num [Decimal.decimalPlaces]⟩

/-- An oracle whitelisted for `t0:t1`, then its post of the price 2. -/
def inversionTxs : List Tx :=
  [⟨sampleTime, .«sudo» (.addOracleProposal ["oracle"] ["t0:t1"])⟩,
   ⟨sampleTime, .execute ⟨"oracle", []⟩ (.postPrice "t0" "t1" priceTwo sampleExpiry)⟩]

/-- `PostPrice` inverts every price it accepts. A whitelisted oracle's
post of a nonzero price that has not expired commits and saves
`10^36 / price` units, the reciprocal; a post of zero panics in that
division; and a sender is accepted only through the whitelist of the
pair itself, never through that of the inverse pair. After `t0:t1` is
whitelisted for an oracle, its post of 2 saves 0.5. -/
theorem postPrice_stores_reciprocal :
    (∀ (s : State) (time : Timestamp) (info : MessageInfo) (token0 token1 : String)
        (price expiry), ((AssetPair.new token0 token1).toString, info.sender) ∈ s.oraclePairWhitelist →
        price.atomics ≠ 0 → time.nanos ≤ expiry.nanos →
        ∃ inverted : Decimal,
          inverted.atomics = Decimal.one.atomics * 10 ^ Decimal.decimalPlaces / price.atomics
            ∧ postPrice s time info token0 token1 price expiry
              = .ok ({ s with rawPrices := (s.rawPrices.insert
                  ((AssetPair.new token0 token1).toString, info.sender)
                  ⟨(AssetPair.new token0 token1).toString, info.sender, inverted, expiry⟩) }, []))
      ∧ (∀ (s : State) (time : Timestamp) (info : MessageInfo) (token0 token1 : String) expiry,
        ((AssetPair.new token0 token1).toString, info.sender) ∈ s.oraclePairWhitelist →
        postPrice s time info token0 token1 Decimal.zero expiry
          = .error (.std (.panic "Division failed - denominator must not be zero")))
      ∧ (∀ (s : State) (time : Timestamp) (info : MessageInfo) (token0 token1 : String) price
          expiry, ((AssetPair.new token0 token1).toString, info.sender) ∉ s.oraclePairWhitelist →
        postPrice s time info token0 token1 price expiry = .error (.unauthorized info.sender))
      ∧ (run step instantiate inversionTxs).2.length = 2
      ∧ (run step instantiate inversionTxs).1.rawPrices.lookup ("t0:t1", "oracle")
        = some ⟨"t0:t1", "oracle", ⟨5 * 10 ^ 17, by norm_num⟩, sampleExpiry⟩ :=
  ⟨fun _ _ _ _ _ _ _ hmem hprice hexpiry => postPrice_of_whitelisted hmem hprice hexpiry,
    fun _ _ _ _ _ _ hmem => postPrice_zero hmem,
    fun _ _ _ _ _ _ _ hmem => postPrice_of_not_whitelisted hmem, by decide, by decide⟩

-- ===================================================== current prices

/-- What stays empty: no pair is active, priced or averaged. -/
def Unpublished (s : State) : Prop :=
  s.activePairs = ∅ ∧ s.currentPrices = ∅ ∧ s.currentTwap = ∅

/-- No step activates a pair, so none prices one. -/
theorem step_unpublished {s s' : State} {tx : Tx} {ms : List CosmosMsg} (hs : Unpublished s)
    (h : step s tx = .ok (s', ms)) : Unpublished s' := by
  obtain ⟨hactive, hprices, htwap⟩ := hs
  obtain ⟨-, hactive', hpost | hpropose | hblock⟩ := step_eq_ok h
  · obtain ⟨_, _, _, _, _, _, -, -, -, rfl⟩ := hpost
    exact ⟨hactive, hprices, htwap⟩
  · obtain ⟨_, _, -, -, -, hframe⟩ := hpropose
    have hprices' : s'.currentPrices = s.currentPrices := by rw [← hframe]
    have htwap' : s'.currentTwap = s.currentTwap := by rw [← hframe]
    exact ⟨hactive'.trans hactive, hprices'.trans hprices, htwap'.trans htwap⟩
  · obtain ⟨-, -, hquiet⟩ := hblock
    rw [hquiet hactive]
    exact ⟨hactive, hprices, htwap⟩

/-- After every run no pair is active, priced or averaged, and the
`Price` query fails for every pair. -/
theorem no_price_published (txs : List Tx) :
    (run step instantiate txs).1.activePairs = ∅
      ∧ (run step instantiate txs).1.currentPrices = ∅
      ∧ (run step instantiate txs).1.currentTwap = ∅
      ∧ ∀ pairId, queryPrice (run step instantiate txs).1 pairId
          = .error (.notFound "cosmwasm_std::math::decimal::Decimal") := by
  obtain ⟨hactive, hprices, htwap⟩ := run_invariant Unpublished
    (fun _ _ _ _ hs h => step_unpublished hs h) txs
    (show Unpublished instantiate from ⟨rfl, rfl, rfl⟩)
  refine ⟨hactive, hprices, htwap, ?_⟩
  intro pairId
  unfold queryPrice
  rw [hprices, AList.lookup_empty]

end NibiruWasm.Pricefeed
