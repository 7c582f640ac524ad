/-
Keyed storage and sums over it, for any contract.

A storage map is a finite map with distinct keys: Mathlib's `AList`,
whose `NodupKeys` field is the invariant a map keeps by construction.
The contracts only `lookup` (`may_load`, `has`), `insert` (`save`) and
`erase` (`remove`) entries, and their conservation laws sum a quantity
over the stored entries; `sumBy` is that sum. Two lemmas say how it
moves (`sumBy_insert_add`, `sumBy_erase_add`): a write changes the sum by
the new entry minus the one it replaces, a removal by minus the removed
one; the rest compare two sums over one map. Ids handed out by a counter
are fresh while every stored key is at most the counter (`KeysLe`).
-/
import Mathlib

namespace NibiruWasm.Chain

/-- A storage map with keys `κ` and values `ν`. -/
abbrev Store (κ ν : Type) := AList (fun _ : κ => ν)

namespace Store

variable {κ ν : Type} [DecidableEq κ]

/-- The sum of `f` over the stored entries. -/
def sumBy (f : κ → ν → ℕ) (m : Store κ ν) : ℕ :=
  (m.entries.map fun e => f e.1 e.2).sum

/-- What key `k` contributes to `sumBy f`: its entry's value, or nothing
when `k` is not stored. -/
def part (f : κ → ν → ℕ) (m : Store κ ν) (k : κ) : ℕ :=
  ((m.lookup k).map (f k)).getD 0

variable (f : κ → ν → ℕ)

/-- A list sum splits into the first entry of key `k` and the rest:
`kerase` drops exactly the entry `dlookup` finds. -/
private theorem sum_kerase (k : κ) :
    ∀ l : List (Sigma fun _ : κ => ν),
      (l.map fun e => f e.1 e.2).sum
        = ((l.dlookup k).map (f k)).getD 0
          + ((l.kerase k).map fun e => f e.1 e.2).sum
  | [] => by simp
  | e :: l => by
      by_cases hk : k = e.1
      · obtain ⟨k', v⟩ := e
        simp only at hk
        subst hk
        have hdrop : List.kerase k (⟨k, v⟩ :: l) = l := List.kerase_cons_eq rfl
        rw [hdrop, List.dlookup_cons_eq]
        simp
      · rw [List.kerase_cons_ne hk, List.dlookup_cons_ne _ _ hk,
          List.map_cons, List.map_cons, List.sum_cons, List.sum_cons,
          sum_kerase k l]
        omega

/-- Removing a key takes its contribution out of the sum. -/
theorem sumBy_erase_add (m : Store κ ν) (k : κ) :
    sumBy f (m.erase k) + part f m k = sumBy f m := by
  have h := sum_kerase f k m.entries
  unfold sumBy part
  rw [h, Nat.add_comm]
  rfl

/-- Saving `v` under `k` adds `f k v` and drops whatever `k` held. -/
theorem sumBy_insert_add (m : Store κ ν) (k : κ) (v : ν) :
    sumBy f (m.insert k v) + part f m k = f k v + sumBy f m := by
  have h := sumBy_erase_add f m k
  have hins : sumBy f (m.insert k v) = f k v + sumBy f (m.erase k) := by
    unfold sumBy
    rw [AList.entries_insert, List.map_cons, List.sum_cons]
    rfl
  omega

@[simp] theorem part_of_lookup_none {m : Store κ ν} {k : κ}
    (h : m.lookup k = none) : part f m k = 0 := by
  simp [part, h]

@[simp] theorem part_of_lookup_some {m : Store κ ν} {k : κ} {v : ν}
    (h : m.lookup k = some v) : part f m k = f k v := by
  simp [part, h]

/-- A sum whose stored entries all contribute nothing is zero. -/
theorem sumBy_eq_zero {m : Store κ ν} (h : ∀ k v, m.lookup k = some v → f k v = 0) :
    sumBy f m = 0 := by
  unfold sumBy
  refine List.sum_eq_zero fun x hx => ?_
  obtain ⟨e, he, rfl⟩ := List.mem_map.mp hx
  exact h e.1 e.2 (AList.mem_lookup_iff.mpr he)

/-- Saving under a key that contributes nothing, whatever it holds,
leaves the sum. -/
theorem sumBy_insert_of_forall_eq_zero {m : Store κ ν} {k : κ} (v : ν)
    (h : ∀ v, f k v = 0) : sumBy f (m.insert k v) = sumBy f m := by
  have hsum := sumBy_insert_add f m k v
  have hpart : part f m k = 0 := by
    cases hl : m.lookup k with
    | none => exact part_of_lookup_none f hl
    | some w => rw [part_of_lookup_some f hl, h w]
  rw [hpart, h v] at hsum
  omega

/-- After a save, a stored entry is the saved one or was there before. -/
theorem lookup_insert_cases {m : Store κ ν} {k k' : κ} {v a : ν}
    (h : (m.insert k v).lookup k' = some a) :
    (k' = k ∧ a = v) ∨ (k' ≠ k ∧ m.lookup k' = some a) := by
  by_cases hk : k' = k
  · subst hk
    rw [AList.lookup_insert] at h
    exact .inl ⟨rfl, (Option.some.inj h).symm⟩
  · rw [AList.lookup_insert_ne hk] at h
    exact .inr ⟨hk, h⟩

/-- A removal creates no entry. -/
theorem lookup_of_lookup_erase {m : Store κ ν} {k k' : κ} {a : ν}
    (h : (m.erase k).lookup k' = some a) : m.lookup k' = some a := by
  by_cases hk : k' = k
  · subst hk
    rw [AList.lookup_erase] at h
    cases h
  · rwa [AList.lookup_erase_ne hk] at h

/-- Removing an absent key changes nothing. -/
theorem erase_of_lookup_none {m : Store κ ν} {k : κ} (h : m.lookup k = none) :
    m.erase k = m :=
  AList.ext (List.kerase_of_notMem_keys (AList.lookup_eq_none.mp h))

/-- One stored entry is at most the whole sum. -/
theorem le_sumBy {m : Store κ ν} {k : κ} {v : ν} (h : m.lookup k = some v) :
    f k v ≤ sumBy f m := by
  have := sumBy_erase_add f m k
  rw [part_of_lookup_some f h] at this
  omega

/-- Sums agree when their summands agree on the stored entries. -/
theorem sumBy_congr {g h : κ → ν → ℕ} {m : Store κ ν}
    (hgh : ∀ k v, m.lookup k = some v → g k v = h k v) : sumBy g m = sumBy h m := by
  unfold sumBy
  congr 1
  apply List.map_congr_left
  intro e he
  exact hgh e.1 e.2 (AList.mem_lookup_iff.mpr he)

/-- A sum grows with its summands on the stored entries. -/
theorem sumBy_le_sumBy {g h : κ → ν → ℕ} {m : Store κ ν}
    (hgh : ∀ k v, m.lookup k = some v → g k v ≤ h k v) : sumBy g m ≤ sumBy h m := by
  unfold sumBy
  apply List.sum_le_sum
  intro e he
  exact hgh e.1 e.2 (AList.mem_lookup_iff.mpr he)

omit [DecidableEq κ] in
theorem sumBy_add (g h : κ → ν → ℕ) (m : Store κ ν) :
    sumBy (fun k v => g k v + h k v) m = sumBy g m + sumBy h m := by
  unfold sumBy
  exact List.sum_map_add

section batch

variable {α : Type} (key : α → κ) (val : α → ν)

/-- Saving a list of entries one after another adds at most their
contributions: a later save under a key replaces the earlier one. -/
theorem sumBy_foldl_insert_le : ∀ (l : List α) (m : Store κ ν),
    sumBy f (l.foldl (fun m a => m.insert (key a) (val a)) m)
      ≤ sumBy f m + (l.map fun a => f (key a) (val a)).sum
  | [], m => by simp
  | a :: l, m => by
      have hins := sumBy_insert_add f m (key a) (val a)
      have ih := sumBy_foldl_insert_le l (m.insert (key a) (val a))
      simp only [List.foldl_cons, List.map_cons, List.sum_cons]
      omega

/-- With distinct keys, none of them stored before, the saves add
exactly their contributions. -/
theorem sumBy_foldl_insert : ∀ (l : List α) (m : Store κ ν),
    (l.map key).Nodup → (∀ a ∈ l, m.lookup (key a) = none) →
      sumBy f (l.foldl (fun m a => m.insert (key a) (val a)) m)
        = sumBy f m + (l.map fun a => f (key a) (val a)).sum
  | [], m, _, _ => by simp
  | a :: l, m, hnd, hfresh => by
      rw [List.map_cons, List.nodup_cons] at hnd
      obtain ⟨hnotin, hnd⟩ := hnd
      have hpart : part f m (key a) = 0 := part_of_lookup_none f (hfresh a List.mem_cons_self)
      have hins := sumBy_insert_add f m (key a) (val a)
      -- the later keys are still absent after this save
      have hfresh' : ∀ b ∈ l, (m.insert (key a) (val a)).lookup (key b) = none := by
        intro b hb
        have hne : key b ≠ key a := fun h => hnotin (h ▸ List.mem_map_of_mem hb)
        rw [AList.lookup_insert_ne hne]
        exact hfresh b (List.mem_cons_of_mem a hb)
      have ih := sumBy_foldl_insert l _ hnd hfresh'
      simp only [List.foldl_cons, List.map_cons, List.sum_cons]
      omega

end batch

-- ========================================================== counters

section counter

variable {m : Store ℕ ν} {n : ℕ}

/-- Every stored key is at most `n`: a counter at `n` hands out a fresh
key next. -/
def KeysLe (m : Store ℕ ν) (n : ℕ) : Prop :=
  ∀ k v, m.lookup k = some v → k ≤ n

theorem keysLe_empty (n : ℕ) : KeysLe (∅ : Store ℕ ν) n := by
  intro k v h
  simp at h

/-- The key past the counter is free. -/
theorem KeysLe.lookup_succ (h : KeysLe m n) : m.lookup (n + 1) = none := by
  cases hl : m.lookup (n + 1) with
  | none => rfl
  | some v => exact absurd (h _ v hl) (Nat.not_succ_le_self n)

/-- Saving under the key past the counter and moving the counter to it
keeps the keys below it. -/
theorem KeysLe.insert_succ (h : KeysLe m n) (v : ν) : KeysLe (m.insert (n + 1) v) (n + 1) := by
  intro k w hk
  rcases lookup_insert_cases hk with ⟨rfl, -⟩ | ⟨-, hk⟩
  · exact le_rfl
  · exact Nat.le_succ_of_le (h k w hk)

end counter

end Store

end NibiruWasm.Chain
