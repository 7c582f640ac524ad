/-
The median `BeginBlock` computes, and what a block leaves for each
active pair.

`calculate_median_price` sorts the prices by their units. Two prices
with the same units are the same price, so the sorted list depends only
on which prices there are: the median does not depend on the order the
oracles are read in (`calculateMedianPrice_perm`). For an odd count it
is the middle price: the other prices split into two halves of one size,
the lower at most it and the upper at least it (`median_odd`). For an
even count the code divides the sum of the two middle prices by
`Decimal::new(Uint128::new(2))`, which is two units: the result is
`10^18` times their mean, and a panic once that does not fit
(`median_even`).

# One block

`BeginBlock` runs `updatePair` over the active pairs, and each run
writes only its own pair's current price and average. A pair is
therefore updated exactly once, by the one run that has its key
(`beginBlock_updates`): it had valid prices, its current price is their
median, and its average took the median in; every other pair, and every
input of the block, is as before.
-/
import NibiruWasm.Pricefeed.Proofs.Handlers
import Mathlib.Data.List.GetD

namespace NibiruWasm.Pricefeed

open Cosmwasm Chain

-- ================================================= sorting by units

/-- The sort of `calculate_median_price` orders the prices by units. -/
theorem pairwise_sortByUnits (prices : List Decimal) :
    (prices.insertionSort fun a b => a.atomics ≤ b.atomics).Pairwise
      fun a b => a.atomics ≤ b.atomics := by
  have : Std.Total fun a b : Decimal => a.atomics ≤ b.atomics :=
    ⟨fun a b => le_total a.atomics b.atomics⟩
  have : IsTrans Decimal fun a b => a.atomics ≤ b.atomics := ⟨fun _ _ _ => le_trans⟩
  exact List.pairwise_insertionSort _ prices

/-- A sorted list splits around its entry at `i`: the entries before it
are related to it, and it to the entries after. -/
private theorem split_sorted {α : Type} {r : α → α → Prop} {l : List α} (hs : l.Pairwise r)
    {i : ℕ} (hi : i < l.length) :
    l = l.take i ++ l[i] :: l.drop (i + 1)
      ∧ (∀ x ∈ l.take i, r x l[i]) ∧ ∀ x ∈ l.drop (i + 1), r l[i] x := by
  have hsplit : l = l.take i ++ l[i] :: l.drop (i + 1) := by
    rw [List.getElem_cons_drop, List.take_append_drop]
  rw [hsplit, List.pairwise_append, List.pairwise_cons] at hs
  obtain ⟨-, ⟨hafter, -⟩, hbefore⟩ := hs
  exact ⟨hsplit, fun x hx => hbefore x hx l[i] List.mem_cons_self, hafter⟩

-- ============================================================ medians

/-- For an odd count the median is the middle price: the others split
into two halves of one size, the lower at most it, the upper at least
it. -/
theorem median_odd (prices : List Decimal) (hodd : prices.length % 2 = 1) :
    ∃ lower median upper, prices.Perm (lower ++ median :: upper)
      ∧ lower.length = upper.length
      ∧ (∀ x ∈ lower, x.atomics ≤ median.atomics) ∧ (∀ x ∈ upper, median.atomics ≤ x.atomics)
      ∧ calculateMedianPrice prices = .ok median := by
  let sorted := prices.insertionSort fun a b : Decimal => a.atomics ≤ b.atomics
  have hlen : sorted.length = prices.length := List.length_insertionSort _ _
  have hi : prices.length / 2 < sorted.length := by omega
  obtain ⟨hsplit, hlower, hupper⟩ := split_sorted (pairwise_sortByUnits prices) hi
  refine ⟨sorted.take (prices.length / 2), sorted[prices.length / 2],
    sorted.drop (prices.length / 2 + 1), ?_, ?_, hlower, hupper, ?_⟩
  · rw [← hsplit]
    exact (List.perm_insertionSort _ prices).symm
  · rw [List.length_take, List.length_drop, hlen]
    omega
  · have hne : prices.length ≠ 0 := by omega
    have hnot : ¬prices.length % 2 = 0 := by omega
    simp only [calculateMedianPrice, if_neg hne, if_neg hnot]
    rw [List.getD_eq_getElem _ _ hi]

theorem median_odd_of_three :
    [Decimal.one, Decimal.zero, Decimal.one].length % 2 = 1
      ∧ ∃ lower median upper,
        [Decimal.one, Decimal.zero, Decimal.one].Perm (lower ++ median :: upper)
          ∧ lower.length = upper.length
          ∧ (∀ x ∈ lower, x.atomics ≤ median.atomics)
          ∧ (∀ x ∈ upper, median.atomics ≤ x.atomics)
          ∧ calculateMedianPrice [Decimal.one, Decimal.zero, Decimal.one] = .ok median :=
  ⟨rfl, median_odd _ rfl⟩

example : calculateMedianPrice [Decimal.one, Decimal.zero, Decimal.one] = .ok Decimal.one := by
  decide

/-- The sum of two middle prices divided by two units is `10^18` times
their mean, and it commits exactly when that fits. -/
private theorem middle_div_eq_ok (a b median : Decimal) :
    (do let sum ← a.add b; sum.div (Decimal.new 2 (by norm_num))) = .ok median
      ↔ median.atomics = (a.atomics + b.atomics) * 10 ^ Decimal.decimalPlaces / 2 := by
  simp only [bind_eq_ok, Decimal.add_eq_ok_iff, Decimal.div_eq_ok_iff]
  constructor
  · rintro ⟨sum, hsum, -, hmedian⟩
    rw [hmedian, hsum]
    rfl
  · intro hmedian
    -- the sum fits, since the result is at least the sum
    have hle : a.atomics + b.atomics ≤ median.atomics := by
      rw [hmedian, Nat.le_div_iff_mul_le (by norm_num)]
      exact Nat.mul_le_mul_left _ (by norm_num [Decimal.decimalPlaces])
    exact ⟨⟨a.atomics + b.atomics, lt_of_le_of_lt hle median.atomics_lt⟩, rfl, by decide, hmedian⟩

/-- For an even count the prices split around two middle ones into two
halves of one size, and the median is `10^18` times the mean of the
middle two: the sum is divided by two units, `2·10^-18`. -/
theorem median_even (prices : List Decimal) (hne : prices ≠ []) (heven : prices.length % 2 = 0) :
    ∃ lower a b upper, prices.Perm (lower ++ a :: b :: upper)
      ∧ lower.length = upper.length
      ∧ (∀ x ∈ lower, x.atomics ≤ a.atomics) ∧ a.atomics ≤ b.atomics
      ∧ (∀ x ∈ upper, b.atomics ≤ x.atomics)
      ∧ ∀ median, calculateMedianPrice prices = .ok median
          ↔ median.atomics = (a.atomics + b.atomics) * 10 ^ Decimal.decimalPlaces / 2 := by
  let sorted := prices.insertionSort fun a b : Decimal => a.atomics ≤ b.atomics
  have hsorted := pairwise_sortByUnits prices
  have hlen : sorted.length = prices.length := List.length_insertionSort _ _
  have hpos : prices.length ≠ 0 := by
    rw [Ne, List.length_eq_zero_iff]
    exact hne
  -- the two middle entries sit at `n / 2 - 1` and `n / 2`
  have hi : prices.length / 2 - 1 < sorted.length := by omega
  have hj : prices.length / 2 < sorted.length := by omega
  have hidx : prices.length / 2 - 1 + 1 = prices.length / 2 := by omega
  obtain ⟨hsplit, hlower, hupper⟩ := split_sorted hsorted hi
  rw [hidx] at hsplit hupper
  have hdrop := List.drop_eq_getElem_cons hj
  have hupper' : ∀ x ∈ sorted.drop (prices.length / 2 + 1),
      sorted[prices.length / 2].atomics ≤ x.atomics := by
    have hrest := hsorted.sublist (List.drop_sublist (prices.length / 2) sorted)
    rw [hdrop, List.pairwise_cons] at hrest
    exact hrest.1
  refine ⟨sorted.take (prices.length / 2 - 1), sorted[prices.length / 2 - 1],
    sorted[prices.length / 2], sorted.drop (prices.length / 2 + 1), ?_, ?_, hlower,
    hupper _ (by rw [hdrop]; exact List.mem_cons_self), hupper', ?_⟩
  · rw [← hdrop, ← hsplit]
    exact (List.perm_insertionSort _ prices).symm
  · rw [List.length_take, List.length_drop, hlen]
    omega
  · intro median
    simp only [calculateMedianPrice, if_neg hpos, if_pos heven]
    rw [List.getD_eq_getElem _ _ hi, List.getD_eq_getElem _ _ hj]
    exact middle_div_eq_ok _ _ median

theorem median_even_of_two :
    [Decimal.one, Decimal.one] ≠ [] ∧ [Decimal.one, Decimal.one].length % 2 = 0
      ∧ ∃ lower a b upper, [Decimal.one, Decimal.one].Perm (lower ++ a :: b :: upper)
        ∧ lower.length = upper.length
        ∧ (∀ x ∈ lower, x.atomics ≤ a.atomics) ∧ a.atomics ≤ b.atomics
        ∧ (∀ x ∈ upper, b.atomics ≤ x.atomics)
        ∧ ∀ median, calculateMedianPrice [Decimal.one, Decimal.one] = .ok median
            ↔ median.atomics = (a.atomics + b.atomics) * 10 ^ Decimal.decimalPlaces / 2 :=
  ⟨List.cons_ne_nil _ _, rfl, median_even _ (List.cons_ne_nil _ _) rfl⟩

/-- Two prices of one give `10^18`, not one. -/
example : calculateMedianPrice [Decimal.one, Decimal.one] = .ok ⟨10 ^ 36, by norm_num⟩ := by
  decide

-- ========================================================== one block

/-- What a block leaves for an active pair `key` of `s`: the pair had
valid prices, its current price is their median, and its average is
the one before with the median taken in. -/
def Updated (s : State) (time : Timestamp) (key : String) (s' : State) : Prop :=
  validPrices s time key ≠ [] ∧ ∃ median twap,
    calculateMedianPrice (validPrices s time key) = .ok median
      ∧ s'.currentPrices.lookup key = some median ∧ s'.currentTwap.lookup key = some twap
      ∧ TwapStep key (loadTwap s key) median time twap

/-- A loop over pairs with distinct keys updates each of them: the runs
before and after the pair's own leave its key alone. -/
theorem foldlM_updatePair_updated {time : Timestamp} {s s' : State} {p : AssetPair}
    {before after : List AssetPair}
    (hnodup : ((before ++ p :: after).map AssetPair.toString).Nodup)
    (h : (before ++ p :: after).foldlM (updatePair time) s = .ok s') :
    Updated s time p.toString s' := by
  rw [foldlM_append_eq_ok] at h
  obtain ⟨s₁, hbefore, hrest⟩ := h
  rw [List.foldlM_cons, bind_eq_ok] at hrest
  obtain ⟨t, hstep, hafter⟩ := hrest
  -- the pair's key is in neither part
  rw [List.map_append, List.map_cons, List.nodup_append, List.nodup_cons] at hnodup
  obtain ⟨-, ⟨hnotAfter, -⟩, hdisj⟩ := hnodup
  have hkeyBefore : ∀ q ∈ before, q.toString ≠ p.toString := fun q hq =>
    hdisj _ (List.mem_map_of_mem hq) _ List.mem_cons_self
  have hkeyAfter : ∀ q ∈ after, q.toString ≠ p.toString := fun q hq heq =>
    hnotAfter (heq ▸ List.mem_map_of_mem hq)
  obtain ⟨-, htwap₁⟩ := foldlM_updatePair_lookup_of_ne hkeyBefore hbefore
  have hsame₁ := foldlM_updatePair_sameInputs hbefore
  obtain ⟨median, twap, hne, hmedian, htwapStep, rfl⟩ := updatePair_eq_ok hstep
  obtain ⟨hprice, htwap⟩ := foldlM_updatePair_lookup_of_ne hkeyAfter hafter
  rw [validPrices_of_sameInputs hsame₁] at hne hmedian
  have hload : loadTwap s₁ p.toString = loadTwap s p.toString := by
    unfold loadTwap
    rw [htwap₁]
  rw [hload] at htwapStep
  refine ⟨hne, median, twap, hmedian, ?_, ?_, htwapStep⟩
  · rw [hprice]
    exact AList.lookup_insert _
  · rw [htwap]
    exact AList.lookup_insert _

/-- What a committed `BeginBlock` did, from any state: every active pair
was updated; the other pairs' prices and averages, and the whitelist,
the active pairs and the raw prices, are as before. -/
theorem beginBlock_updates {s s' : State} {ms : List CosmosMsg} {time : Timestamp}
    (h : beginBlock s time = .ok (s', ms)) :
    SameInputs s' s ∧ ms = []
      ∧ (∀ key, key ∉ s.activePairs → s'.currentPrices.lookup key = s.currentPrices.lookup key
          ∧ s'.currentTwap.lookup key = s.currentTwap.lookup key)
      ∧ ∀ key ∈ s.activePairs, Updated s time key s' := by
  obtain ⟨assetPairs, hkeys, hloop, rfl⟩ := beginBlock_eq_ok h
  -- the loop's pairs have the active keys, each once
  have hmem : ∀ key, key ∈ assetPairs.map AssetPair.toString ↔ key ∈ s.activePairs := by
    intro key
    rw [hkeys, (List.perm_insertionSort _ _).mem_iff, AList.mem_keys]
  have hnodup : (assetPairs.map AssetPair.toString).Nodup := by
    rw [hkeys]
    exact (List.perm_insertionSort _ _).nodup_iff.mpr s.activePairs.keys_nodup
  refine ⟨foldlM_updatePair_sameInputs hloop, rfl, ?_, ?_⟩
  · intro key hkey
    apply foldlM_updatePair_lookup_of_ne _ hloop
    intro p hp heq
    exact hkey ((hmem key).mp (heq ▸ List.mem_map_of_mem hp))
  · intro key hkey
    obtain ⟨p, hp, rfl⟩ := List.mem_map.mp ((hmem key).mpr hkey)
    obtain ⟨before, after, rfl⟩ := List.append_of_mem hp
    exact foldlM_updatePair_updated hnodup hloop

/-- A block time of five seconds, and an expiry after it. -/
def sampleTime : Timestamp := ⟨5000000000, by norm_num⟩

def sampleExpiry : Timestamp := ⟨9000000000, by norm_num⟩

/-- One active pair with one whitelisted oracle's raw price of one. -/
def oneActivePair : State :=
  { oraclePairWhitelist := (∅ : Store (String × String) Unit).insert ("ubtc:unusd", "oracle") ()
    activePairs := (∅ : Store String Unit).insert "ubtc:unusd" ()
    rawPrices := (∅ : Store (String × String) PostedPrice).insert ("ubtc:unusd", "oracle")
      ⟨"ubtc:unusd", "oracle", Decimal.one, sampleExpiry⟩
    currentPrices := ∅
    currentTwap := ∅ }

theorem beginBlock_oneActivePair :
    ∃ s' ms, beginBlock oneActivePair sampleTime = .ok (s', ms)
      ∧ Updated oneActivePair sampleTime "ubtc:unusd" s' :=
  ⟨_, _, rfl, (beginBlock_updates rfl).2.2.2 "ubtc:unusd" (by decide)⟩

end NibiruWasm.Pricefeed
