import NibiruWasm.Pricefeed.Contract
import NibiruWasm.Chain.Except

namespace NibiruWasm.Pricefeed

open Cosmwasm Chain

-- ======================================================== asset pairs

/-- Splitting at `x` gives one part more than there are `x`s. -/
private theorem length_splitOn {α : Type} [BEq α] [LawfulBEq α] (x : α) :
    ∀ l : List α, (l.splitOn x).length = l.count x + 1
  | [] => by simp
  | c :: l => by
      rw [List.splitOn_cons_eq_if_modifyHead, List.count_cons]
      by_cases hc : c = x
      · simp [hc, length_splitOn x l]
      · simp [hc, List.length_modifyHead, length_splitOn x l]

namespace AssetPair

/-- `inverse` changes nothing. -/
theorem inverse_eq (p : AssetPair) : p.inverse = p := rfl

/-- So choosing the inverse when it is active chooses the pair: the
check reads `inverse` inside the condition's instance too, which a
rewrite of `inverse` alone does not reach. -/
@[simp] theorem ite_inverse (c : Prop) [Decidable c] (p : AssetPair) :
    (if c then p.inverse else p) = p := by
  split <;> rfl

theorem toString_toList (p : AssetPair) :
    p.toString.toList = p.token0.toList ++ pairSeparator :: p.token1.toList := by
  simp [toString, String.toList_append]

/-- A pair whose tokens hold no separator parses back from its text. -/
theorem tryFrom_toString {p : AssetPair} (h0 : pairSeparator ∉ p.token0.toList)
    (h1 : pairSeparator ∉ p.token1.toList) : tryFrom p.toString = .ok p := by
  have hsplit : p.toString.toList.splitOn pairSeparator = [p.token0.toList, p.token1.toList] := by
    rw [toString_toList, List.splitOn_append_cons_self_of_not_mem h0, List.splitOn_eq_singleton h1]
  simp [tryFrom, hsplit, String.ofList_toList]

/-- `try_from` accepts exactly the texts with one separator: it returns
the pair around it, whose text is the one parsed. -/
theorem tryFrom_eq_ok_iff {value : String} {p : AssetPair} :
    tryFrom value = .ok p ↔
      pairSeparator ∉ p.token0.toList ∧ pairSeparator ∉ p.token1.toList ∧ p.toString = value := by
  constructor
  · intro h
    unfold tryFrom at h
    split at h
    · next a b hsplit =>
        cases h
        -- the text is the two parts around one separator
        have hjoin : value.toList = a ++ pairSeparator :: b := by
          have := @List.intercalate_splitOn _ value.toList _ _ pairSeparator
          rw [hsplit] at this
          simpa using this.symm
        have hcount := length_splitOn pairSeparator value.toList
        rw [hsplit, hjoin, List.count_append, List.count_cons_self] at hcount
        simp only [List.length_cons, List.length_nil] at hcount
        refine ⟨?_, ?_, ?_⟩
        · rw [String.toList_ofList, ← List.count_eq_zero]
          omega
        · rw [String.toList_ofList, ← List.count_eq_zero]
          omega
        · rw [← String.toList_inj, toString_toList, hjoin]
          simp
    · cases h
  · rintro ⟨h0, h1, rfl⟩
    exact tryFrom_toString h0 h1

theorem unwrapFrom_eq_ok {value : String} {p : AssetPair} :
    unwrapFrom value = .ok p ↔ tryFrom value = .ok p := by
  unfold unwrapFrom
  cases tryFrom value with
  | ok q => rfl
  | error e => simp

/-- `try_from` fails exactly on the texts without exactly one separator. -/
theorem tryFrom_ok_iff_count {value : String} :
    (∃ p, tryFrom value = .ok p) ↔ value.toList.count pairSeparator = 1 := by
  constructor
  · rintro ⟨p, hp⟩
    obtain ⟨h0, h1, rfl⟩ := tryFrom_eq_ok_iff.mp hp
    rw [toString_toList, List.count_append, List.count_cons_self, List.count_eq_zero.mpr h0,
      List.count_eq_zero.mpr h1]
  · intro hcount
    -- one separator splits the text in two parts
    have hlen := length_splitOn pairSeparator value.toList
    rw [hcount] at hlen
    obtain ⟨a, b, hsplit⟩ := List.length_eq_two.mp hlen
    exact ⟨⟨String.ofList a, String.ofList b⟩, by simp [tryFrom, hsplit]⟩

/-- A pair's text parses back to its tokens when they hold no separator,
and `try_from` accepts exactly the texts with one separator. But
`inverse` keeps the tokens where they are: the inverse of `a:b` prints
`a:b`, not `b:a`. -/
theorem inverse_keeps_tokens :
    (∀ t0 t1 : String, pairSeparator ∉ t0.toList → pairSeparator ∉ t1.toList →
        tryFrom (new t0 t1).toString = .ok ⟨t0, t1⟩)
      ∧ (∀ value : String,
          (∃ p, tryFrom value = .ok p) ↔ value.toList.count pairSeparator = 1)
      ∧ (∀ p : AssetPair, p.inverse = p)
      ∧ (new "a" "b").inverse.toString = "a:b"
      ∧ (new "a" "b").inverse.toString ≠ "b:a" := by
  refine ⟨fun t0 t1 h0 h1 => tryFrom_toString h0 h1, fun value => tryFrom_ok_iff_count,
    inverse_eq, by decide, by decide⟩

end AssetPair

-- ========================================================= PostPrice

variable {s s' : State} {ms : List CosmosMsg}

/-- What a committed `PostPrice` did: the sender is whitelisted for the
pair, the price has not expired, and the sender's raw price for the pair
is now the quotient `Decimal::one() / price`, whatever the pair's
activity. -/
theorem postPrice_eq_ok {time : Timestamp} {info : MessageInfo} {token0 token1 : String}
    {price : Decimal} {expiry : Timestamp}
    (h : postPrice s time info token0 token1 price expiry = .ok (s', ms)) :
    ((AssetPair.new token0 token1).toString, info.sender) ∈ s.oraclePairWhitelist
      ∧ time.nanos ≤ expiry.nanos
      ∧ ∃ inverted, Decimal.one.div price = .ok inverted
        ∧ s' = { s with rawPrices := (s.rawPrices.insert
            ((AssetPair.new token0 token1).toString, info.sender)
            ⟨(AssetPair.new token0 token1).toString, info.sender, inverted, expiry⟩) }
        ∧ ms = [] := by
  by_cases hmem : ((AssetPair.new token0 token1).toString, info.sender) ∈ s.oraclePairWhitelist
  · simp only [postPrice, AssetPair.ite_inverse, hmem, decide_true, Bool.not_true, Bool.and_self,
      Bool.false_eq_true, if_true, if_false, bind_eq_ok, throw_bind, mapError_eq_ok,
      ite_throw_eq_ok, Decimal.zero_atomics, Nat.not_lt_zero, not_true_eq_false, pure_eq_ok,
      Prod.mk.injEq] at h
    obtain ⟨inverted, hdiv, hexp, hs, hms⟩ := h
    exact ⟨hmem, Nat.le_of_not_lt hexp, inverted, hdiv, hs.symm, hms.symm⟩
  · simp [postPrice, hmem] at h

/-- Conversely, a whitelisted oracle's post of a nonzero price that has
not expired commits, and saves the quotient of `Decimal::one()` by the
price. -/
theorem postPrice_of_whitelisted {time : Timestamp} {info : MessageInfo} {token0 token1 : String}
    {price : Decimal} {expiry : Timestamp}
    (hmem : ((AssetPair.new token0 token1).toString, info.sender) ∈ s.oraclePairWhitelist)
    (hprice : price.atomics ≠ 0) (hexpiry : time.nanos ≤ expiry.nanos) :
    ∃ inverted : Decimal,
      inverted.atomics = Decimal.one.atomics * 10 ^ Decimal.decimalPlaces / price.atomics
        ∧ postPrice s time info token0 token1 price expiry
          = .ok ({ s with rawPrices := (s.rawPrices.insert
              ((AssetPair.new token0 token1).toString, info.sender)
              ⟨(AssetPair.new token0 token1).toString, info.sender, inverted, expiry⟩) }, []) := by
  -- the quotient is at most `10^36`, far below `2^128`
  have hlt : Decimal.one.atomics * 10 ^ Decimal.decimalPlaces / price.atomics < 2 ^ 128 :=
    lt_of_le_of_lt (Nat.div_le_self _ _) (by norm_num [Decimal.one_atomics, Decimal.decimalPlaces])
  have hdiv : Decimal.one.div price = .ok ⟨_, hlt⟩ := Decimal.div_eq_ok_iff.mpr ⟨hprice, rfl⟩
  refine ⟨⟨_, hlt⟩, rfl, ?_⟩
  simp only [postPrice, AssetPair.ite_inverse, hmem, decide_true, Bool.not_true, Bool.and_self,
    Bool.false_eq_true, if_true, if_false, hdiv, mapError_ok, ok_bind, Decimal.zero_atomics,
    Nat.not_lt_zero, Nat.not_lt.mpr hexpiry]
  rfl

/-- A whitelisted oracle's post of a zero price panics in the division,
before the expiry is looked at. -/
theorem postPrice_zero {time : Timestamp} {info : MessageInfo} {token0 token1 : String}
    {expiry : Timestamp}
    (hmem : ((AssetPair.new token0 token1).toString, info.sender) ∈ s.oraclePairWhitelist) :
    postPrice s time info token0 token1 Decimal.zero expiry
      = .error (.std (.panic "Division failed - denominator must not be zero")) := by
  simp only [postPrice, AssetPair.ite_inverse, hmem, decide_true, Bool.not_true, Bool.and_self,
    Bool.false_eq_true, if_true, if_false, Decimal.div, Decimal.zero_atomics, mapError_error]
  rfl

/-- A sender not whitelisted for the pair itself is refused, whatever
the whitelist holds for the inverse pair. -/
theorem postPrice_of_not_whitelisted {time : Timestamp} {info : MessageInfo}
    {token0 token1 : String} {price : Decimal} {expiry : Timestamp}
    (hmem : ((AssetPair.new token0 token1).toString, info.sender) ∉ s.oraclePairWhitelist) :
    postPrice s time info token0 token1 price expiry = .error (.unauthorized info.sender) := by
  simp only [postPrice, hmem, decide_false, Bool.not_false, Bool.and_self, if_true]
  rfl

-- ================================================= AddOracleProposal

/-- Whitelisting oracles for a pair adds exactly the keys of that pair
with those oracles. -/
theorem mem_foldl_insert {pair : String} :
    ∀ (oracles : List String) (w : Store (String × String) Unit) (k : String × String),
      k ∈ oracles.foldl (fun whitelist oracle => whitelist.insert (pair, oracle) ()) w
        ↔ k ∈ w ∨ (k.1 = pair ∧ k.2 ∈ oracles)
  | [], w, k => by simp
  | o :: oracles, w, k => by
      rw [List.foldl_cons, mem_foldl_insert oracles, AList.mem_insert]
      obtain ⟨k1, k2⟩ := k
      simp only [Prod.mk.injEq, List.mem_cons]
      tauto

theorem whitelistPair_eq_ok {oracles : List String} {pair : String} {t : State}
    (h : whitelistPair oracles s pair = .ok t) :
    (∃ p, AssetPair.tryFrom pair = .ok p)
      ∧ t = { s with oraclePairWhitelist := (oracles.foldl
          (fun whitelist oracle => whitelist.insert (pair, oracle) ()) s.oraclePairWhitelist) } := by
  simp only [whitelistPair, bind_eq_ok, pure_eq_ok] at h
  obtain ⟨p, hp, ht⟩ := h
  exact ⟨⟨p, hp⟩, ht.symm⟩

/-- The loop of `AddOracleProposal`: every pair parses, and the
whitelist gains each pair with each oracle; nothing else changes. -/
theorem foldlM_whitelistPair_eq_ok {oracles : List String} :
    ∀ {pairs : List String} {s s' : State}, pairs.foldlM (whitelistPair oracles) s = .ok s' →
      (∀ pair ∈ pairs, ∃ p, AssetPair.tryFrom pair = .ok p)
        ∧ (∀ k, k ∈ s'.oraclePairWhitelist
            ↔ k ∈ s.oraclePairWhitelist ∨ (k.1 ∈ pairs ∧ k.2 ∈ oracles))
        ∧ { s' with oraclePairWhitelist := s.oraclePairWhitelist } = s
  | [], s, s', h => by
      simp only [List.foldlM_nil, pure_eq_ok] at h
      subst h
      simp
  | pair :: pairs, s, s', h => by
      rw [List.foldlM_cons, bind_eq_ok] at h
      obtain ⟨t, ht, hrest⟩ := h
      obtain ⟨hparse, rfl⟩ := whitelistPair_eq_ok ht
      obtain ⟨hparses, hmem, hframe⟩ := foldlM_whitelistPair_eq_ok hrest
      refine ⟨?_, ?_, ?_⟩
      · intro q hq
        rcases List.mem_cons.mp hq with rfl | hq
        · exact hparse
        · exact hparses q hq
      · intro k
        rw [hmem k, mem_foldl_insert]
        simp only [List.mem_cons]
        tauto
      · exact congrArg (fun u : State => { u with oraclePairWhitelist := s.oraclePairWhitelist }) hframe

/-- What a committed `AddOracleProposal` did. -/
theorem addOracleProposal_eq_ok {oracles pairs : List String}
    (h : addOracleProposal s oracles pairs = .ok (s', ms)) :
    (∀ pair ∈ pairs, ∃ p, AssetPair.tryFrom pair = .ok p)
      ∧ (∀ k, k ∈ s'.oraclePairWhitelist
          ↔ k ∈ s.oraclePairWhitelist ∨ (k.1 ∈ pairs ∧ k.2 ∈ oracles))
      ∧ { s' with oraclePairWhitelist := s.oraclePairWhitelist } = s ∧ ms = [] := by
  simp only [addOracleProposal, bind_eq_ok, pure_eq_ok, Prod.mk.injEq] at h
  obtain ⟨t, ht, rfl, rfl⟩ := h
  obtain ⟨hparses, hmem, hframe⟩ := foldlM_whitelistPair_eq_ok ht
  exact ⟨hparses, hmem, hframe, rfl⟩

-- ======================================================== BeginBlock

/-- The average of a pair after a block: the sums before it plus the
block's seconds and the median weighted by them, read as units, and
their quotient. -/
structure TwapStep (key : String) (before : CurrentTWAP) (median : Decimal) (time : Timestamp)
    (after : CurrentTWAP) : Prop where
  pairId : after.pairId = key
  denominator : after.denominator.atomics = before.denominator.atomics + time.seconds
  numerator : after.numerator.atomics
    = before.numerator.atomics + median.atomics * time.seconds / 10 ^ Decimal.decimalPlaces
  denominator_ne_zero : after.denominator.atomics ≠ 0
  price : after.price.atomics
    = after.numerator.atomics * 10 ^ Decimal.decimalPlaces / after.denominator.atomics

/-- What one committed pair of `BeginBlock` did: the pair had valid
prices, its current price is their median, and its average took the
median in; nothing else changed. -/
theorem updatePair_eq_ok {time : Timestamp} {p : AssetPair} {t : State}
    (h : updatePair time s p = .ok t) :
    ∃ median twap, validPrices s time p.toString ≠ []
      ∧ calculateMedianPrice (validPrices s time p.toString) = .ok median
      ∧ TwapStep p.toString (loadTwap s p.toString) median time twap
      ∧ t = { s with
          currentPrices := s.currentPrices.insert p.toString median
          currentTwap := s.currentTwap.insert p.toString twap } := by
  simp only [updatePair, bind_eq_ok, throw_bind, mapError_eq_ok, ite_throw_eq_ok, pure_eq_ok] at h
  obtain ⟨hne, median, hmed, denominator, hden, numerator, ⟨product, hprod, hnum⟩, price,
    hprice, rfl⟩ := h
  rw [List.isEmpty_iff] at hne
  rw [Decimal.add_eq_ok_iff] at hden hnum
  rw [Decimal.mul_eq_ok_iff] at hprod
  rw [Decimal.div_eq_ok_iff] at hprice
  refine ⟨median, ⟨p.toString, numerator, denominator, price⟩, hne, hmed,
    ⟨rfl, hden, ?_, hprice.1, hprice.2⟩, rfl⟩
  rw [hnum, hprod]
  rfl

/-- The inputs of `BeginBlock`, which it only reads: the whitelist, the
active pairs and the raw prices. -/
structure SameInputs (t s : State) : Prop where
  whitelist : t.oraclePairWhitelist = s.oraclePairWhitelist
  activePairs : t.activePairs = s.activePairs
  rawPrices : t.rawPrices = s.rawPrices

theorem SameInputs.trans {u t : State} (h : SameInputs u t) (h' : SameInputs t s) :
    SameInputs u s :=
  ⟨h.1.trans h'.1, h.2.trans h'.2, h.3.trans h'.3⟩

/-- The valid prices read only the raw prices. -/
theorem validPrices_of_sameInputs {t : State} {time : Timestamp} {key : String}
    (h : SameInputs t s) : validPrices t time key = validPrices s time key := by
  unfold validPrices
  rw [h.rawPrices]

theorem updatePair_sameInputs {time : Timestamp} {p : AssetPair} {t : State}
    (h : updatePair time s p = .ok t) : SameInputs t s := by
  obtain ⟨_, _, _, _, _, rfl⟩ := updatePair_eq_ok h
  exact ⟨rfl, rfl, rfl⟩

/-- `updatePair` leaves the other pairs' current price and average. -/
theorem updatePair_lookup_of_ne {time : Timestamp} {p : AssetPair} {t : State} {key : String}
    (h : updatePair time s p = .ok t) (hne : p.toString ≠ key) :
    t.currentPrices.lookup key = s.currentPrices.lookup key
      ∧ t.currentTwap.lookup key = s.currentTwap.lookup key := by
  obtain ⟨_, _, _, _, _, rfl⟩ := updatePair_eq_ok h
  exact ⟨AList.lookup_insert_ne hne.symm, AList.lookup_insert_ne hne.symm⟩

theorem foldlM_updatePair_sameInputs {time : Timestamp} {pairs : List AssetPair}
    (h : pairs.foldlM (updatePair time) s = .ok s') : SameInputs s' s :=
  foldlM_invariant (fun t => SameInputs t s)
    (fun _ _ _ _ ht hstep => (updatePair_sameInputs hstep).trans ht) ⟨rfl, rfl, rfl⟩ h

/-- The loop leaves a key that none of its pairs has. -/
theorem foldlM_updatePair_lookup_of_ne {time : Timestamp} {pairs : List AssetPair}
    {key : String} (hkey : ∀ p ∈ pairs, p.toString ≠ key)
    (h : pairs.foldlM (updatePair time) s = .ok s') :
    s'.currentPrices.lookup key = s.currentPrices.lookup key
      ∧ s'.currentTwap.lookup key = s.currentTwap.lookup key :=
  foldlM_invariant
    (fun t => t.currentPrices.lookup key = s.currentPrices.lookup key
      ∧ t.currentTwap.lookup key = s.currentTwap.lookup key)
    (fun p hp _ _ ht hstep => by
      obtain ⟨hprice, htwap⟩ := updatePair_lookup_of_ne hstep (hkey p hp)
      exact ⟨hprice.trans ht.1, htwap.trans ht.2⟩) ⟨rfl, rfl⟩ h

theorem AssetPair.toString_of_unwrapFrom {value : String} {p : AssetPair}
    (h : AssetPair.unwrapFrom value = .ok p) : p.toString = value :=
  (AssetPair.tryFrom_eq_ok_iff.mp (AssetPair.unwrapFrom_eq_ok.mp h)).2.2

/-- What a committed `BeginBlock` did: it parsed every active key, in
key order, to a pair whose text is the key, and ran `updatePair` over
those pairs. -/
theorem beginBlock_eq_ok {time : Timestamp} (h : beginBlock s time = .ok (s', ms)) :
    ∃ assetPairs : List AssetPair,
      assetPairs.map AssetPair.toString = s.activePairs.keys.insertionSort (· ≤ ·)
        ∧ assetPairs.foldlM (updatePair time) s = .ok s' ∧ ms = [] := by
  simp only [beginBlock, bind_eq_ok, pure_eq_ok, Prod.mk.injEq] at h
  obtain ⟨assetPairs, hparse, _, hloop, rfl, rfl⟩ := h
  exact ⟨assetPairs, (mapM_eq_ok (fun _ _ => AssetPair.toString_of_unwrapFrom) hparse).1,
    hloop, rfl⟩

theorem beginBlock_sameInputs {time : Timestamp} (h : beginBlock s time = .ok (s', ms)) :
    SameInputs s' s := by
  obtain ⟨_, _, hloop, -⟩ := beginBlock_eq_ok h
  exact foldlM_updatePair_sameInputs hloop

/-- With no active pair, `BeginBlock` does nothing. -/
theorem beginBlock_of_activePairs_empty {time : Timestamp} (hempty : s.activePairs = ∅)
    (h : beginBlock s time = .ok (s', ms)) : s' = s := by
  obtain ⟨assetPairs, hkeys, hloop, -⟩ := beginBlock_eq_ok h
  rw [hempty, AList.keys_empty, List.insertionSort_nil, List.map_eq_nil_iff] at hkeys
  rw [hkeys, List.foldlM_nil, pure_eq_ok] at hloop
  exact hloop.symm

-- =========================================================== one step

/-- What a committed transaction did: a `PostPrice` saved its sender's
inverted price, an `AddOracleProposal` whitelisted its pairs, or a
`BeginBlock` kept the inputs, and did nothing without an active pair.
None of them writes the active pairs or sends a message. -/
theorem step_eq_ok {tx : Tx} (h : step s tx = .ok (s', ms)) :
    ms = [] ∧ s'.activePairs = s.activePairs
      ∧ ((∃ info token0 token1 price expiry inverted,
            tx.call = .execute info (.postPrice token0 token1 price expiry)
              ∧ ((AssetPair.new token0 token1).toString, info.sender) ∈ s.oraclePairWhitelist
              ∧ Decimal.one.div price = .ok inverted
              ∧ s' = { s with rawPrices := (s.rawPrices.insert
                  ((AssetPair.new token0 token1).toString, info.sender)
                  ⟨(AssetPair.new token0 token1).toString, info.sender, inverted, expiry⟩) })
        ∨ (∃ oracles pairs, tx.call = .«sudo» (.addOracleProposal oracles pairs)
            ∧ (∀ pair ∈ pairs, ∃ p, AssetPair.tryFrom pair = .ok p)
            ∧ (∀ k, k ∈ s'.oraclePairWhitelist
                ↔ k ∈ s.oraclePairWhitelist ∨ (k.1 ∈ pairs ∧ k.2 ∈ oracles))
            ∧ { s' with oraclePairWhitelist := s.oraclePairWhitelist } = s)
        ∨ (tx.call = .«sudo» .beginBlock ∧ SameInputs s' s ∧ (s.activePairs = ∅ → s' = s))) := by
  obtain ⟨time, call⟩ := tx
  cases call with
  | execute info msg =>
      cases msg with
      | postPrice token0 token1 price expiry =>
          obtain ⟨hmem, -, inverted, hdiv, rfl, rfl⟩ := postPrice_eq_ok h
          exact ⟨rfl, rfl, .inl ⟨info, token0, token1, price, expiry, inverted, rfl, hmem, hdiv, rfl⟩⟩
  | «sudo» msg =>
      cases msg with
      | beginBlock =>
          have hsame := beginBlock_sameInputs h
          obtain ⟨-, -, -, rfl⟩ := beginBlock_eq_ok h
          exact ⟨rfl, hsame.activePairs,
            .inr (.inr ⟨rfl, hsame, fun hempty => beginBlock_of_activePairs_empty hempty h⟩)⟩
      | addOracleProposal oracles pairs =>
          obtain ⟨hparse, hmem, hframe, rfl⟩ := addOracleProposal_eq_ok h
          have hactive : s'.activePairs = s.activePairs := by rw [← hframe]
          exact ⟨rfl, hactive, .inr (.inl ⟨oracles, pairs, rfl, hparse, hmem, hframe⟩)⟩

end NibiruWasm.Pricefeed
