/-
Paged range scans of storage, for any contract.

A query that lists a map returns one page of it: `Map::range` over the
keys within two optional bounds, in ascending or descending order, then
`.take(limit)`. Storage orders keys by their encodings (`enc`): a number
by its value, a string by its raw bytes (`rawKey`), and a bound given as
raw bytes (`Bound::ExclusiveRaw`) is a bound on those.

A client pages through a map by asking again from the last key it
received: an exclusive lower bound going up (`start_after`), an
exclusive upper bound going down (`start_before`). `walk` is that
client; it is not code of any contract, but what the paging is for.
What makes it lossless is `rangeAsc_after`: the scan after the key of an
entry of a scan is the rest of that scan, because a scan is sorted
strictly by keys that storage keeps distinct. So `walk_rangeAsc` and
`walk_rangeDesc`: given a page per entry and one more, the client reads
every stored entry exactly once, in key order, whatever the page size
but zero. The descending scan is the ascending one in the dual order
(`reverse_rangeAsc`), so nothing is proved twice.
-/
import NibiruWasm.Chain.Index
import NibiruWasm.Chain.Except

namespace NibiruWasm.Chain

/-- `cosmwasm_std::Order`. -/
inductive Order
  | ascending
  | descending
  deriving DecidableEq, Repr

/-- The raw bytes of a string key, as numbers: storage orders `&str` and
`&Addr` keys by them, and `Bound::ExclusiveRaw` of a string is a bound
on them. -/
def rawKey (s : String) : List ℕ := s.toByteArray.data.toList.map UInt8.toNat

/-- Distinct strings have distinct raw bytes. -/
theorem rawKey_injective : Function.Injective rawKey := by
  intro s t h
  have hbytes : s.toByteArray.data.toList = t.toByteArray.data.toList :=
    List.map_injective_iff.mpr (fun _ _ h => UInt8.toNat_inj.mp h) h
  exact String.toByteArray_inj.mp (ByteArray.ext (Array.toList_inj.mp hbytes))

/-- `limit.unwrap_or(default).min(max)`: the size of a page. -/
def pageLimit (default max : ℕ) (limit : Option ℕ) : ℕ := min (limit.getD default) max

/-- A page holds at least one entry unless the client asks for none. -/
theorem pageLimit_pos {default max : ℕ} (hdefault : 0 < default) (hmax : 0 < max)
    {limit : Option ℕ} (hlimit : limit ≠ some 0) : 0 < pageLimit default max limit := by
  unfold pageLimit
  rcases limit with _ | n
  · exact lt_min hdefault hmax
  · have hn : n ≠ 0 := fun h => hlimit (by rw [h])
    exact lt_min (Nat.pos_of_ne_zero hn) hmax

-- ========================================================== bounds

namespace Bound

variable {β : Type} [LinearOrder β]

/-- A lower bound that admits a key admits every greater one. -/
theorem lowerAdmits_of_lt {lo : Option (Bound β)} {b b' : β} (h : lowerAdmits lo b = true)
    (hlt : b < b') : lowerAdmits lo b' = true := by
  rcases lo with _ | (c | c)
  · rfl
  · exact (lowerAdmits_inclusive c b').mpr (le_trans ((lowerAdmits_inclusive c b).mp h) hlt.le)
  · exact (lowerAdmits_exclusive c b').mpr (lt_trans ((lowerAdmits_exclusive c b).mp h) hlt)

/-- The same bound in the dual order. -/
def dual : Bound β → Bound βᵒᵈ
  | .inclusive b => .inclusive (OrderDual.toDual b)
  | .exclusive b => .exclusive (OrderDual.toDual b)

/-- An upper bound is a lower bound in the dual order. -/
theorem lowerAdmits_dual (hi : Option (Bound β)) (b : β) :
    lowerAdmits (hi.map dual) (OrderDual.toDual b) = upperAdmits hi b := by
  rcases hi with _ | (c | c)
  · rfl
  · simp [dual, lowerAdmits, upperAdmits]
  · simp [dual, lowerAdmits, upperAdmits]

/-- A lower bound is an upper bound in the dual order. -/
theorem upperAdmits_dual (lo : Option (Bound β)) (b : β) :
    upperAdmits (lo.map dual) (OrderDual.toDual b) = lowerAdmits lo b := by
  rcases lo with _ | (c | c)
  · rfl
  · simp [dual, lowerAdmits, upperAdmits]
  · simp [dual, lowerAdmits, upperAdmits]

end Bound

-- ======================================================= sorted lists

/-- In a list sorted strictly by `f`, the items after the `i`-th are
the items above it. -/
theorem mem_drop_of_pairwise {α γ : Type} [LinearOrder γ] {f : α → γ} :
    ∀ {l : List α}, l.Pairwise (fun a b => f a < f b) → ∀ {i : ℕ} (hi : i < l.length) {x : α},
      x ∈ l.drop (i + 1) ↔ x ∈ l ∧ f l[i] < f x
  | [], _, _, hi, _ => absurd hi (Nat.not_lt_zero _)
  | a :: t, hl, i, hi, x => by
      rw [List.pairwise_cons] at hl
      cases i with
      | zero =>
          -- the items after the head are all above it
          simp only [List.drop_succ_cons, List.drop_zero, List.getElem_cons_zero, List.mem_cons]
          constructor
          · intro hx
            exact ⟨.inr hx, hl.1 x hx⟩
          · rintro ⟨rfl | hx, hlt⟩
            · exact absurd hlt (lt_irrefl _)
            · exact hx
      | succ j =>
          -- the head is below the `j`-th item of the tail, so it is not after it
          have hj : j < t.length := by simpa using hi
          simp only [List.drop_succ_cons, List.getElem_cons_succ, List.mem_cons]
          rw [mem_drop_of_pairwise hl.2 hj]
          constructor
          · rintro ⟨hx, hlt⟩
            exact ⟨.inr hx, hlt⟩
          · rintro ⟨rfl | hx, hlt⟩
            · exact absurd (hl.1 _ (List.getElem_mem hj)) (not_lt_of_gt hlt)
            · exact ⟨hx, hlt⟩

/-- The last item of a nonempty page of a list is an item of the list,
and the page is the list up to it. -/
theorem getLast?_take_eq_some {α : Type} {l : List α} {n : ℕ} {x : α}
    (h : (l.take n).getLast? = some x) :
    ∃ i, ∃ hi : i < l.length, l[i] = x ∧ l.take n = l.take (i + 1) := by
  have hne : l.take n ≠ [] := fun hnil => by simp [hnil] at h
  have hlen : 0 < (l.take n).length := List.length_pos_iff.mpr hne
  rw [List.length_take] at hlen
  refine ⟨min n l.length - 1, by omega, ?_, ?_⟩
  · rw [List.getLast?_eq_getElem?, List.length_take, List.getElem?_take] at h
    rw [if_pos (by omega), List.getElem?_eq_getElem (by omega)] at h
    exact Option.some.inj h
  · rw [Nat.sub_add_cancel hlen, ← List.take_eq_take_min]

-- ========================================================= the client

section walk

variable {β : Type}

/-- A client paging through a listing, `fuel` pages at most: it asks for
the page after `start` and, after a page that is not empty, for the page
after the key of its last item. -/
def walk {α : Type} (page : Option β → List α) (key : α → β) : ℕ → Option β → List α
  | 0, _ => []
  | fuel + 1, start =>
      match (page start).getLast? with
      | none => []
      | some last => page start ++ walk page key fuel (some (key last))

/-- Pages of `n` items of listings whose rest after an item is the
listing after its key: the client reads the whole listing, given a page
per item and one more. -/
theorem walk_eq {α : Type} {rest : Option β → List α} {key : α → β} {n : ℕ} (hn : 0 < n)
    (hrest : ∀ start i (hi : i < (rest start).length),
      rest (some (key (rest start)[i])) = (rest start).drop (i + 1)) :
    ∀ fuel start, (rest start).length < fuel →
      walk (fun start => (rest start).take n) key fuel start = rest start
  | 0, _, h => absurd h (Nat.not_lt_zero _)
  | fuel + 1, start, h => by
      unfold walk
      cases hlast : ((rest start).take n).getLast? with
      | none =>
          -- an empty page of a positive size: the listing is empty
          rw [List.getLast?_eq_none_iff, List.take_eq_nil_iff] at hlast
          rcases hlast with hzero | hnil
          · omega
          · rw [hnil]
      | some last =>
          -- the page ends at the `i`-th item, and the next one starts after it
          obtain ⟨i, hi, rfl, htake⟩ := getLast?_take_eq_some hlast
          have hnext : (rest (some (key (rest start)[i]))).length < fuel := by
            rw [hrest start i hi, List.length_drop]
            omega
          simp only
          rw [walk_eq hn hrest fuel _ hnext, hrest start i hi, htake, List.take_append_drop]

/-- A client that passes its starts through `f` before the listing sees
them is the client of the listing on the images, keyed by `f` of the
keys. -/
theorem walk_comap {γ α : Type} (page : Option γ → List α) (key : α → β) (f : β → γ) :
    ∀ fuel start, walk (fun start => page (start.map f)) key fuel start
      = walk page (f ∘ key) fuel (start.map f)
  | 0, _ => rfl
  | fuel + 1, start => by
      unfold walk
      cases hlast : (page (start.map f)).getLast? with
      | none => rfl
      | some last =>
          simp only
          rw [walk_comap page key f fuel (some (key last)), Option.map_some, Function.comp_apply]

/-- The client of a listing whose pages can fail: it stops at the first
page that fails, with that page's error. -/
def walkM {ε α : Type} (page : Option β → Except ε (List α)) (key : α → β) :
    ℕ → Option β → Except ε (List α)
  | 0, _ => .ok []
  | fuel + 1, start => do
      let items ← page start
      match items.getLast? with
      | none => pure []
      | some last => do
          let more ← walkM page key fuel (some (key last))
          pure (items ++ more)

/-- Pages of `n` items of listings as in `walk_eq`, each item computed
by `f` and its result keyed as the item: the client computes the whole
listing, and where that fails it fails with the same first error. -/
theorem walkM_eq {ε α γ : Type} {rest : Option β → List α} {key₀ : α → β}
    {f : α → Except ε γ} {key : γ → β} {n : ℕ} (hn : 0 < n)
    (hrest : ∀ start i (hi : i < (rest start).length),
      rest (some (key₀ (rest start)[i])) = (rest start).drop (i + 1))
    (hkey : ∀ start, ∀ x ∈ rest start, ∀ y, f x = .ok y → key y = key₀ x) :
    ∀ fuel start, (rest start).length < fuel →
      walkM (fun start => ((rest start).take n).mapM f) key fuel start = (rest start).mapM f
  | 0, _, h => absurd h (Nat.not_lt_zero _)
  | fuel + 1, start, h => by
      unfold walkM
      -- the listing is the page and what follows it
      have hsplit : ∀ k, (rest start).mapM f = (do
          let ys ← ((rest start).take k).mapM f
          let zs ← ((rest start).drop k).mapM f
          pure (ys ++ zs)) := fun k => by
        conv_lhs => rw [← List.take_append_drop k (rest start)]
        rw [List.mapM_append]
      cases hp : ((rest start).take n).mapM f with
      | error e => rw [hsplit n, hp, error_bind, error_bind]
      | ok ys =>
          rw [ok_bind]
          cases hlast : ys.getLast? with
          | none =>
              -- an empty page of a positive size: the listing is empty
              have hnil : (rest start).take n = [] := by
                have hlen := (mapM_eq_ok_iff.mp hp).length_eq
                rw [List.getLast?_eq_none_iff.mp hlast, List.length_nil] at hlen
                exact List.length_eq_zero_iff.mp hlen
              rcases List.take_eq_nil_iff.mp hnil with hzero | hempty
              · omega
              · rw [hempty, List.mapM_nil]
          | some y =>
              -- the page ends at the `i`-th item, and `y` is its result
              obtain ⟨x, hx, hfx⟩ := getLast?_of_mapM_eq_ok hp hlast
              obtain ⟨i, hi, rfl, htake⟩ := getLast?_take_eq_some hx
              have hky : key y = key₀ (rest start)[i] :=
                hkey start _ (List.getElem_mem hi) y hfx
              have hnext : (rest (some (key y))).length < fuel := by
                rw [hky, hrest start i hi, List.length_drop]
                omega
              simp only
              rw [walkM_eq hn hrest hkey fuel _ hnext, hky, hrest start i hi, hsplit (i + 1),
                ← htake, hp, ok_bind]

/-- `walk_comap` for the client of failing pages. -/
theorem walkM_comap {ε γ α : Type} (page : Option γ → Except ε (List α)) (key : α → β)
    (f : β → γ) :
    ∀ fuel start, walkM (fun start => page (start.map f)) key fuel start
      = walkM page (f ∘ key) fuel (start.map f)
  | 0, _ => rfl
  | fuel + 1, start => by
      unfold walkM
      cases page (start.map f) with
      | error e => rfl
      | ok items =>
          rw [ok_bind, ok_bind]
          cases items.getLast? with
          | none => rfl
          | some last =>
              simp only
              rw [walkM_comap page key f fuel (some (key last)), Option.map_some,
                Function.comp_apply]

end walk

-- ============================================================ scans

namespace Store

variable {κ ν β : Type} [DecidableEq κ] [LinearOrder β] (enc : κ → β)

/-- The stored entries whose encoded key is within both bounds, in
ascending order of the encoded keys. -/
def rangeAsc (lo hi : Option (Bound β)) (m : Store κ ν) : List (κ × ν) :=
  ((m.entries.filter fun e =>
      Bound.lowerAdmits lo (enc e.1) && Bound.upperAdmits hi (enc e.1)).insertionSort
      (fun e e' => enc e.1 ≤ enc e'.1)).map fun e => (e.1, e.2)

/-- `Map::range(lo, hi, order)`: descending is ascending read
backwards. -/
def range (lo hi : Option (Bound β)) : Order → Store κ ν → List (κ × ν)
  | .ascending, m => rangeAsc enc lo hi m
  | .descending, m => (rangeAsc enc lo hi m).reverse

/-- `Map::prefix(p)` of a map keyed by pairs: the entries whose key
starts with `p`, keyed by the rest. Their keys stay distinct, as the
whole keys were. -/
def under {π σ : Type} [DecidableEq π] (p : π) (m : Store (π × σ) ν) : Store σ ν :=
  ⟨(m.entries.filter fun e => decide (e.1.1 = p)).map fun e => ⟨e.1.2, e.2⟩, by
    -- the rests of distinct keys under one prefix are distinct
    have hkeys := (m.nodupKeys.sublist (List.filter_sublist (p := fun e => decide (e.1.1 = p))))
    unfold List.NodupKeys at hkeys ⊢
    rw [List.keys, List.map_map]
    have hfst : ∀ k ∈ (m.entries.filter fun e => decide (e.1.1 = p)).map Sigma.fst, k.1 = p := by
      intro k hk
      obtain ⟨e, he, rfl⟩ := List.mem_map.mp hk
      exact of_decide_eq_true (List.mem_filter.mp he).2
    have hsnd := hkeys.map_on fun x hx y hy (hxy : x.2 = y.2) =>
      Prod.ext ((hfst x hx).trans (hfst y hy).symm) hxy
    rw [List.map_map] at hsnd
    exact hsnd⟩

/-- Reading under a prefix reads the whole key. -/
theorem lookup_under {π σ : Type} [DecidableEq π] [DecidableEq σ] (p : π)
    (m : Store (π × σ) ν) (k : σ) : (m.under p).lookup k = m.lookup (p, k) := by
  apply Option.ext
  intro v
  rw [← Option.mem_def, ← Option.mem_def, AList.mem_lookup_iff, AList.mem_lookup_iff]
  show (⟨k, v⟩ : Σ _ : σ, ν) ∈ (m.entries.filter fun e => decide (e.1.1 = p)).map _ ↔ _
  rw [List.mem_map]
  constructor
  · rintro ⟨⟨⟨p', k'⟩, v'⟩, he, heq⟩
    have hp : p' = p := of_decide_eq_true (List.mem_filter.mp he).2
    obtain ⟨rfl, hv⟩ := Sigma.mk.inj_iff.mp heq
    rw [← hp, ← eq_of_heq hv]
    exact (List.mem_filter.mp he).1
  · intro h
    exact ⟨⟨(p, k), v⟩, List.mem_filter.mpr ⟨h, decide_eq_true rfl⟩, rfl⟩

/-- What a scan returns: exactly the stored entries within both
bounds. -/
theorem mem_rangeAsc {lo hi : Option (Bound β)} {m : Store κ ν} {k : κ} {v : ν} :
    (k, v) ∈ rangeAsc enc lo hi m ↔
      m.lookup k = some v ∧ Bound.lowerAdmits lo (enc k) = true
        ∧ Bound.upperAdmits hi (enc k) = true := by
  simp only [rangeAsc, List.mem_map, (List.perm_insertionSort _ _).mem_iff, List.mem_filter,
    Bool.and_eq_true]
  constructor
  · rintro ⟨⟨k', v'⟩, ⟨hmem, hlo, hhi⟩, heq⟩
    obtain ⟨rfl, rfl⟩ := Prod.mk.inj heq
    exact ⟨AList.mem_lookup_iff.mpr hmem, hlo, hhi⟩
  · rintro ⟨hmem, hlo, hhi⟩
    exact ⟨⟨k, v⟩, ⟨AList.mem_lookup_iff.mp hmem, hlo, hhi⟩, rfl⟩

omit [DecidableEq κ] in
/-- A scan returns at most the stored entries. -/
theorem length_rangeAsc_le (lo hi : Option (Bound β)) (m : Store κ ν) :
    (rangeAsc enc lo hi m).length ≤ m.entries.length := by
  unfold rangeAsc
  rw [List.length_map, List.length_insertionSort]
  exact List.length_filter_le _ _

omit [DecidableEq κ] in
/-- A map holds at least the entries under one prefix. -/
theorem length_under_le {π σ : Type} [DecidableEq π] (p : π) (m : Store (π × σ) ν) :
    (m.under p).entries.length ≤ m.entries.length := by
  show ((m.entries.filter _).map _).length ≤ _
  rw [List.length_map]
  exact List.length_filter_le _ _

variable {enc}

omit [DecidableEq κ] in
/-- A scan is sorted strictly by encoded keys: the sort orders them,
and distinct stored keys have distinct encodings. -/
theorem rangeAsc_pairwise (hinj : Function.Injective enc) (lo hi : Option (Bound β))
    (m : Store κ ν) : (rangeAsc enc lo hi m).Pairwise fun e e' => enc e.1 < enc e'.1 := by
  -- the entries the scan keeps, before the sort
  let l := m.entries.filter fun e =>
    Bound.lowerAdmits lo (enc e.1) && Bound.upperAdmits hi (enc e.1)
  let r : (Σ _ : κ, ν) → (Σ _ : κ, ν) → Prop := fun e e' => enc e.1 ≤ enc e'.1
  have hsorted : (l.insertionSort r).Pairwise r := by
    have : Std.Total r := ⟨fun a b => le_total (enc a.1) (enc b.1)⟩
    have : IsTrans _ r := ⟨fun a b c => le_trans⟩
    exact List.pairwise_insertionSort r l
  have hkeys : (l.map fun e => enc e.1).Nodup := by
    have hcomp : (l.map fun e => enc e.1) = (l.map Sigma.fst).map enc := by
      rw [List.map_map]
      rfl
    rw [hcomp]
    exact (m.nodupKeys.sublist List.filter_sublist).map hinj
  have hnodup : ((l.insertionSort r).map fun e => enc e.1).Nodup :=
    ((List.perm_insertionSort r l).map _).nodup_iff.mpr hkeys
  unfold rangeAsc
  rw [List.pairwise_map]
  refine (hsorted.and (List.pairwise_map.mp hnodup)).imp ?_
  rintro a b ⟨hle, hne⟩
  exact lt_of_le_of_ne hle hne

/-- A list sorted strictly by encoded keys that holds exactly the
entries of a scan is that scan. -/
theorem eq_rangeAsc (hinj : Function.Injective enc) {lo hi : Option (Bound β)} {m : Store κ ν}
    {l : List (κ × ν)} (hl : l.Pairwise fun e e' => enc e.1 < enc e'.1)
    (hmem : ∀ k v, (k, v) ∈ l ↔ m.lookup k = some v ∧ Bound.lowerAdmits lo (enc k) = true
        ∧ Bound.upperAdmits hi (enc k) = true) :
    l = rangeAsc enc lo hi m := by
  let r : κ × ν → κ × ν → Prop := fun e e' => enc e.1 < enc e'.1
  have : Std.Irrefl r := ⟨fun a => lt_irrefl (enc a.1)⟩
  have : Std.Antisymm r := ⟨fun a b hab hba => absurd hba (lt_asymm hab)⟩
  refine List.Pairwise.eq_of_mem_iff (r := r) hl (rangeAsc_pairwise hinj lo hi m) ?_
  rintro ⟨k, v⟩
  rw [hmem, mem_rangeAsc]

/-- The keys of a scan, when a list sorted strictly by encodings holds
exactly the stored keys within the bounds. -/
theorem keys_rangeAsc (hinj : Function.Injective enc) {lo hi : Option (Bound β)}
    {m : Store κ ν} {l : List κ} (hl : l.Pairwise fun k k' => enc k < enc k')
    (hmem : ∀ k, k ∈ l ↔ (m.lookup k).isSome ∧ Bound.lowerAdmits lo (enc k) = true
        ∧ Bound.upperAdmits hi (enc k) = true) :
    (rangeAsc enc lo hi m).map (·.1) = l := by
  let r : κ → κ → Prop := fun k k' => enc k < enc k'
  have : Std.Irrefl r := ⟨fun a => lt_irrefl (enc a)⟩
  have : Std.Antisymm r := ⟨fun a b hab hba => absurd hba (lt_asymm hab)⟩
  refine List.Pairwise.eq_of_mem_iff (r := r)
    (List.pairwise_map.mpr (rangeAsc_pairwise hinj lo hi m)) hl ?_
  intro k
  rw [hmem, Option.isSome_iff_exists]
  simp only [List.mem_map, Prod.exists, exists_and_right, exists_eq_right, mem_rangeAsc]

/-- The scan after the key of an entry of an open-ended scan is the
rest of that scan. -/
theorem rangeAsc_after (hinj : Function.Injective enc) (lo : Option (Bound β)) (m : Store κ ν)
    {i : ℕ} (hi : i < (rangeAsc enc lo none m).length) :
    rangeAsc enc (some (.exclusive (enc (rangeAsc enc lo none m)[i].1))) none m
      = (rangeAsc enc lo none m).drop (i + 1) := by
  have hsorted := rangeAsc_pairwise hinj lo none m
  -- the entry itself is admitted by `lo`, and so is everything above it
  have hentry : Bound.lowerAdmits lo (enc (rangeAsc enc lo none m)[i].1) = true :=
    (mem_rangeAsc enc).mp (List.getElem_mem hi) |>.2.1
  symm
  refine eq_rangeAsc hinj (hsorted.sublist (List.drop_sublist _ _)) ?_
  intro k v
  rw [mem_drop_of_pairwise hsorted hi, mem_rangeAsc, Bound.lowerAdmits_exclusive]
  constructor
  · rintro ⟨⟨hv, -, -⟩, hlt⟩
    exact ⟨hv, hlt, rfl⟩
  · rintro ⟨hv, hlt, -⟩
    exact ⟨⟨hv, Bound.lowerAdmits_of_lt hentry hlt, rfl⟩, hlt⟩

/-- A scan read backwards is the scan in the dual order, with the bounds
swapped. -/
theorem reverse_rangeAsc (hinj : Function.Injective enc) (lo hi : Option (Bound β))
    (m : Store κ ν) :
    (rangeAsc enc lo hi m).reverse
      = rangeAsc (OrderDual.toDual ∘ enc) (hi.map Bound.dual) (lo.map Bound.dual) m := by
  refine eq_rangeAsc (OrderDual.toDual.injective.comp hinj) ?_ ?_
  · rw [List.pairwise_reverse]
    exact (rangeAsc_pairwise hinj lo hi m).imp fun h => OrderDual.toDual_lt_toDual.mpr h
  · intro k v
    rw [List.mem_reverse, mem_rangeAsc, Function.comp_apply, Bound.lowerAdmits_dual,
      Bound.upperAdmits_dual]
    constructor
    · rintro ⟨hv, hlo, hhi⟩
      exact ⟨hv, hhi, hlo⟩
    · rintro ⟨hv, hhi, hlo⟩
      exact ⟨hv, hlo, hhi⟩

/-- A descending scan with no lower bound is an ascending scan in the
dual order with no upper bound. -/
theorem range_descending (hinj : Function.Injective enc) (hi : Option (Bound β))
    (m : Store κ ν) :
    range enc none hi .descending m
      = rangeAsc (OrderDual.toDual ∘ enc) (hi.map Bound.dual) none m :=
  reverse_rangeAsc hinj none hi m

-- =========================================================== paging

variable {α : Type} (g : κ × ν → α) {key : α → β}

/-- Paging up, from `start_after` on: the client reads every stored entry
after it exactly once, in ascending order. -/
theorem walk_rangeAsc (hinj : Function.Injective enc) (hkey : ∀ e, key (g e) = enc e.1)
    {n : ℕ} (hn : 0 < n) (m : Store κ ν) (fuel : ℕ) (start : Option β)
    (hfuel : (rangeAsc enc (start.map .exclusive) none m).length < fuel) :
    walk (fun start => ((range enc (start.map .exclusive) none .ascending m).take n).map g)
        key fuel start
      = (range enc (start.map .exclusive) none .ascending m).map g := by
  have hpage : (fun start : Option β =>
      ((range enc (start.map .exclusive) none .ascending m).take n).map g)
      = fun start => ((rangeAsc enc (start.map .exclusive) none m).map g).take n := by
    funext start
    rw [List.map_take]
    rfl
  rw [hpage]
  refine walk_eq hn ?_ fuel start (by rwa [List.length_map])
  intro start i hi
  rw [List.length_map] at hi
  rw [List.getElem_map, hkey, Option.map_some, rangeAsc_after hinj _ m hi, List.map_drop]

/-- The descending scan before the key of an entry of a descending scan
is the rest of that scan. -/
theorem rangeDesc_after (hinj : Function.Injective enc) (hi : Option (Bound β)) (m : Store κ ν)
    {i : ℕ} (hidx : i < (range enc none hi .descending m).length) :
    range enc none (some (.exclusive (enc (range enc none hi .descending m)[i].1))) .descending m
      = (range enc none hi .descending m).drop (i + 1) := by
  -- in the dual order the scans are ascending
  have hidx' : i < (rangeAsc (OrderDual.toDual ∘ enc) (hi.map Bound.dual) none m).length := by
    rwa [← range_descending hinj]
  have hget := List.getElem_of_eq (range_descending hinj hi m) hidx
  rw [hget, range_descending hinj (some _)]
  conv_rhs => rw [range_descending hinj]
  exact rangeAsc_after (OrderDual.toDual.injective.comp hinj) _ m hidx'

/-- Paging down, from `start_before` on: the client reads every stored
entry before it exactly once, in descending order. -/
theorem walk_rangeDesc (hinj : Function.Injective enc) (hkey : ∀ e, key (g e) = enc e.1)
    {n : ℕ} (hn : 0 < n) (m : Store κ ν) (fuel : ℕ) (start : Option β)
    (hfuel : (rangeAsc enc none (start.map .exclusive) m).length < fuel) :
    walk (fun start => ((range enc none (start.map .exclusive) .descending m).take n).map g)
        key fuel start
      = (range enc none (start.map .exclusive) .descending m).map g := by
  have hpage : (fun start : Option β =>
      ((range enc none (start.map .exclusive) .descending m).take n).map g)
      = fun start => ((range enc none (start.map .exclusive) .descending m).map g).take n := by
    funext start
    rw [List.map_take]
  rw [hpage]
  refine walk_eq hn ?_ fuel start ?_
  · intro start i hi
    rw [List.length_map] at hi
    rw [List.getElem_map, hkey, Option.map_some, rangeDesc_after hinj _ m hi, List.map_drop]
  · rw [List.length_map, range, List.length_reverse]
    exact hfuel

end Store

end NibiruWasm.Chain
