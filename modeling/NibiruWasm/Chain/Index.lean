/-
Range scans of storage, for any contract.

A scan walks stored entries in key order between an optional lower and
upper bound (`Bound::Inclusive`, `Bound::Exclusive`). Storage orders keys
by their byte encodings; for fixed-width numbers, and for pairs of them,
that is the numeric order and its lexicographic order on pairs, Mathlib's
`Prod.Lex`. Two scans are modelled:

- `subPrefixRange`: a multi-index keeps, for every stored entry, an index
  key computed from its value, a prefix and a last component;
  `sub_prefix(p).range` walks the entries under prefix `p` in the order of
  (last component, primary key), with the bounds on that pair;
- `prefixRange`: `prefix(p).range` of a map keyed by pairs walks the
  entries whose key starts with `p`, in the order of the second component,
  with the bounds on it.

A scan is therefore a filter of the stored entries by prefix and bounds,
sorted by place; which entries it returns is all that
`mem_subPrefixRange` and `mem_prefixRange` state, a sum over it is a sum
over the admitted stored entries (`sum_subPrefixRange`), and a prefix
scan returns its keys in strictly ascending order
(`prefixRange_pairwise_lt`), which a handler that keeps the last one it
read relies on, as a multi-index scan does its places
(`subPrefixRange_pairwise_lt`). Nothing here
reads a value: the index functions are parameters.
-/
import NibiruWasm.Chain.Store
import Mathlib.Data.List.Sort
import Mathlib.Data.Prod.Lex

namespace NibiruWasm.Chain

/-- A bound of a scan, `Bound::Inclusive` or `Bound::Exclusive`. -/
inductive Bound (β : Type)
  | inclusive (b : β)
  | exclusive (b : β)
  deriving DecidableEq, Repr

namespace Bound

variable {β : Type} [LinearOrder β]

/-- Whether a key is at or above an optional lower bound. -/
def lowerAdmits : Option (Bound β) → β → Bool
  | none, _ => true
  | some (.inclusive b), k => decide (b ≤ k)
  | some (.exclusive b), k => decide (b < k)

/-- Whether a key is at or below an optional upper bound. -/
def upperAdmits : Option (Bound β) → β → Bool
  | none, _ => true
  | some (.inclusive b), k => decide (k ≤ b)
  | some (.exclusive b), k => decide (k < b)

@[simp] theorem lowerAdmits_none (k : β) : lowerAdmits none k = true := rfl

@[simp] theorem upperAdmits_none (k : β) : upperAdmits none k = true := rfl

@[simp] theorem lowerAdmits_inclusive (b k : β) :
    lowerAdmits (some (.inclusive b)) k = true ↔ b ≤ k := by
  simp [lowerAdmits]

@[simp] theorem lowerAdmits_exclusive (b k : β) :
    lowerAdmits (some (.exclusive b)) k = true ↔ b < k := by
  simp [lowerAdmits]

@[simp] theorem upperAdmits_inclusive (b k : β) :
    upperAdmits (some (.inclusive b)) k = true ↔ k ≤ b := by
  simp [upperAdmits]

@[simp] theorem upperAdmits_exclusive (b k : β) :
    upperAdmits (some (.exclusive b)) k = true ↔ k < b := by
  simp [upperAdmits]

end Bound

variable {σ κ : Type} [LinearOrder σ] [LinearOrder κ]

/-- A lower bound on a pair at the least second component bounds the
first component alone: the bound `(x, m)` of "from `x` on". -/
theorem toLex_le_least_iff {m : κ} (hm : ∀ k, m ≤ k) {x y : σ} {k : κ} :
    toLex (x, m) ≤ toLex (y, k) ↔ x ≤ y := by
  rw [Prod.Lex.toLex_le_toLex]
  simp only [hm, and_true]
  constructor
  · rintro (h | rfl)
    · exact le_of_lt h
    · exact le_rfl
  · intro h
    rcases lt_or_eq_of_le h with h | h
    · exact .inl h
    · exact .inr h

-- ====================================================== multi-indexes

variable {π ν : Type} [DecidableEq π]

/-- The place of an entry in a scan of index `idx`: the last component
of its index key, then its primary key. -/
def scanKey (idx : ν → π × σ) (e : Σ _ : κ, ν) : σ ×ₗ κ := toLex ((idx e.2).2, e.1)

/-- `MultiIndex::sub_prefix(p).range(lo, hi, Order::Ascending)`: the
stored `(primary key, value)` pairs whose index key has prefix `p` and
whose place is within the bounds, in ascending order of place. -/
def subPrefixRange (idx : ν → π × σ) (p : π) (lo hi : Option (Bound (σ ×ₗ κ)))
    (m : Store κ ν) : List (κ × ν) :=
  ((m.entries.filter fun e =>
      decide ((idx e.2).1 = p) && Bound.lowerAdmits lo (scanKey idx e)
        && Bound.upperAdmits hi (scanKey idx e)).insertionSort
      (fun e e' => scanKey idx e ≤ scanKey idx e')).map fun e => (e.1, e.2)

/-- What a scan returns: exactly the stored pairs under the prefix whose
place is within both bounds. -/
theorem mem_subPrefixRange {idx : ν → π × σ} {p : π} {lo hi : Option (Bound (σ ×ₗ κ))}
    {m : Store κ ν} {k : κ} {v : ν} :
    (k, v) ∈ subPrefixRange idx p lo hi m ↔
      m.lookup k = some v ∧ (idx v).1 = p
        ∧ Bound.lowerAdmits lo (toLex ((idx v).2, k)) = true
        ∧ Bound.upperAdmits hi (toLex ((idx v).2, k)) = true := by
  simp only [subPrefixRange, List.mem_map, (List.perm_insertionSort _ _).mem_iff,
    List.mem_filter, Bool.and_eq_true, decide_eq_true_eq]
  constructor
  · rintro ⟨⟨k', v'⟩, ⟨hmem, ⟨hp, hlo⟩, hhi⟩, heq⟩
    obtain ⟨rfl, rfl⟩ := Prod.mk.inj heq
    exact ⟨AList.mem_lookup_iff.mpr hmem, hp, hlo, hhi⟩
  · rintro ⟨hmem, hp, hlo, hhi⟩
    exact ⟨⟨k, v⟩, ⟨AList.mem_lookup_iff.mp hmem, ⟨hp, hlo⟩, hhi⟩, rfl⟩

/-- A sum over a scan is the sum over the stored entries it admits. -/
theorem sum_subPrefixRange (idx : ν → π × σ) (p : π) (lo hi : Option (Bound (σ ×ₗ κ)))
    (m : Store κ ν) (g : κ → ν → ℕ) :
    ((subPrefixRange idx p lo hi m).map fun e => g e.1 e.2).sum
      = Store.sumBy (fun k v => if (idx v).1 = p ∧ Bound.lowerAdmits lo (toLex ((idx v).2, k)) = true
          ∧ Bound.upperAdmits hi (toLex ((idx v).2, k)) = true then g k v else 0) m := by
  unfold subPrefixRange Store.sumBy
  rw [List.map_map, ((List.perm_insertionSort _ _).map _).sum_eq, List.sum_map_ite]
  simp [scanKey, Bool.and_assoc, Function.comp_def]

/-- A scan returns its entries in strictly ascending order of place: the
sort orders them, and distinct primary keys give distinct places. -/
theorem subPrefixRange_pairwise_lt (idx : ν → π × σ) (p : π) (lo hi : Option (Bound (σ ×ₗ κ)))
    (m : Store κ ν) :
    (subPrefixRange idx p lo hi m).Pairwise fun e e' =>
      toLex ((idx e.2).2, e.1) < toLex ((idx e'.2).2, e'.1) := by
  -- the entries the scan keeps, before the sort
  let l := m.entries.filter fun e =>
    decide ((idx e.2).1 = p) && Bound.lowerAdmits lo (scanKey idx e)
      && Bound.upperAdmits hi (scanKey idx e)
  let r : (Σ _ : κ, ν) → (Σ _ : κ, ν) → Prop := fun e e' => scanKey idx e ≤ scanKey idx e'
  have hsorted : (l.insertionSort r).Pairwise r := by
    have : Std.Total r := ⟨fun a b => le_total (scanKey idx a) (scanKey idx b)⟩
    have : IsTrans _ r := ⟨fun a b c => le_trans⟩
    exact List.pairwise_insertionSort r l
  have hkeys : ((l.insertionSort r).map Sigma.fst).Nodup :=
    ((List.perm_insertionSort r l).map _).nodup_iff.mpr (m.nodupKeys.sublist List.filter_sublist)
  unfold subPrefixRange
  rw [List.pairwise_map]
  refine (hsorted.and (List.pairwise_map.mp hkeys)).imp ?_
  rintro a b ⟨hle, hne⟩
  -- equal places would have equal primary keys
  exact lt_of_le_of_ne hle fun heq => hne (congrArg (fun x => (ofLex x).2) heq)

-- ======================================================= pair keys

/-- `Map::prefix(p).range(lo, hi, Order::Ascending)` of a map keyed by
pairs: the stored `(second component, value)` pairs under `p` whose
second component is within the bounds, in ascending order of it. -/
def prefixRange (p : π) (lo hi : Option (Bound σ)) (m : Store (π × σ) ν) : List (σ × ν) :=
  ((m.entries.filter fun e =>
      decide (e.1.1 = p) && Bound.lowerAdmits lo e.1.2 && Bound.upperAdmits hi e.1.2).insertionSort
      (fun e e' => e.1.2 ≤ e'.1.2)).map fun e => (e.1.2, e.2)

/-- What a prefix scan returns: exactly the stored entries under the
prefix whose second component is within both bounds. -/
theorem mem_prefixRange {p : π} {lo hi : Option (Bound σ)} {m : Store (π × σ) ν}
    {k : σ} {v : ν} :
    (k, v) ∈ prefixRange p lo hi m ↔
      m.lookup (p, k) = some v ∧ Bound.lowerAdmits lo k = true
        ∧ Bound.upperAdmits hi k = true := by
  simp only [prefixRange, List.mem_map, (List.perm_insertionSort _ _).mem_iff,
    List.mem_filter, Bool.and_eq_true, decide_eq_true_eq]
  constructor
  · rintro ⟨⟨⟨p', k'⟩, v'⟩, ⟨hmem, ⟨rfl, hlo⟩, hhi⟩, heq⟩
    obtain ⟨rfl, rfl⟩ := Prod.mk.inj heq
    exact ⟨AList.mem_lookup_iff.mpr hmem, hlo, hhi⟩
  · rintro ⟨hmem, hlo, hhi⟩
    exact ⟨⟨(p, k), v⟩, ⟨AList.mem_lookup_iff.mp hmem, ⟨rfl, hlo⟩, hhi⟩, rfl⟩

/-- A prefix scan returns its second components in strictly ascending
order: the sort orders them, and under one prefix they are distinct
keys. -/
theorem prefixRange_pairwise_lt (p : π) (lo hi : Option (Bound σ)) (m : Store (π × σ) ν) :
    ((prefixRange p lo hi m).map (·.1)).Pairwise (· < ·) := by
  -- the entries the scan keeps, before the sort
  let l := m.entries.filter fun e =>
    decide (e.1.1 = p) && Bound.lowerAdmits lo e.1.2 && Bound.upperAdmits hi e.1.2
  let r : (Σ _ : π × σ, ν) → (Σ _ : π × σ, ν) → Prop := fun e e' => e.1.2 ≤ e'.1.2
  have hsorted : (l.insertionSort r).Pairwise r := by
    have : Std.Total r := ⟨fun a b => le_total a.1.2 b.1.2⟩
    have : IsTrans _ r := ⟨fun a b c => le_trans⟩
    exact List.pairwise_insertionSort r l
  -- under one prefix, distinct keys have distinct second components
  have hkeys : (l.map Sigma.fst).Nodup := (m.nodupKeys.sublist List.filter_sublist)
  have hunder : ∀ k ∈ l.map Sigma.fst, k.1 = p := by
    intro k hk
    obtain ⟨e, he, rfl⟩ := List.mem_map.mp hk
    have := (List.mem_filter.mp he).2
    simp only [Bool.and_eq_true, decide_eq_true_eq] at this
    exact this.1.1
  have hsnd : ((l.map Sigma.fst).map Prod.snd).Nodup := by
    refine hkeys.map_on fun x hx y hy hxy => Prod.ext ?_ hxy
    rw [hunder x hx, hunder y hy]
  rw [List.map_map] at hsnd
  have hnodup : ((l.insertionSort r).map fun e => e.1.2).Nodup :=
    ((List.perm_insertionSort r l).map _).nodup_iff.mpr hsnd
  unfold prefixRange
  rw [List.map_map, List.pairwise_map]
  refine (hsorted.and (List.pairwise_map.mp hnodup)).imp ?_
  rintro a b ⟨hle, hne⟩
  exact lt_of_le_of_ne hle hne

end NibiruWasm.Chain
