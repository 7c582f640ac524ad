/-
What the lockup queries return.

Each query is a scan of one index followed by `filterUnlockingAfter`
(`query_eq_filter`); `QueryMsg.Scans` says which stored locks the scan
of each query reads. `query_selects` then says, for every state and
every query, which locks it returns and when it panics. Read against
the selection one would expect of them:

- the `…Between` queries also return the locks started exactly at
  `locked_before`, as long as their id is below `u64::MAX`;
- no query reads `funds_withdrawn`, so withdrawn locks are returned;
- every query compares `height + duration_blocks` with
  `unlocking_after`, not the stored end block of a lock already
  unlocking;
- one scanned lock whose sum overflows `u64` panics the whole query.
-/
import NibiruWasm.Lockup.Query
import NibiruWasm.Lockup.Proofs.Lifecycle

namespace NibiruWasm.Lockup

open Cosmwasm Chain

/-- The locks a query's scan reads: those the prefix and the bounds of
its index admit, read on the lock and its id. -/
def QueryMsg.Scans (id : ℕ) (lock : Lock) : QueryMsg → Prop
  | .locksByDenomUnlockingAfter denom unlockingAfter =>
      lock.coin.denom = denom ∧ unlockingAfter ≤ lock.endBlock
  | .locksByDenomAndAddressUnlockingAfter denom unlockingAfter address =>
      lock.owner = address ∧ lock.coin.denom = denom ∧ unlockingAfter ≤ lock.endBlock
  | .locksByDenomBetween denom lockedBefore _ =>
      lock.coin.denom = denom
        ∧ (lock.startBlock < lockedBefore ∨ (lock.startBlock = lockedBefore ∧ id < Uint64.MAX))
  | .locksByDenomAndAddressBetween denom address lockedBefore _ =>
      lock.owner = address ∧ lock.coin.denom = denom
        ∧ (lock.startBlock < lockedBefore ∨ (lock.startBlock = lockedBefore ∧ id < Uint64.MAX))

/-- The `unlocking_after` a query filters its scan by. -/
def QueryMsg.unlockingAfter : QueryMsg → ℕ
  | .locksByDenomUnlockingAfter _ unlockingAfter => unlockingAfter
  | .locksByDenomAndAddressUnlockingAfter _ unlockingAfter _ => unlockingAfter
  | .locksByDenomBetween _ _ unlockingAfter => unlockingAfter
  | .locksByDenomAndAddressBetween _ _ _ unlockingAfter => unlockingAfter

/-- A scan's locks are the stored ones under its prefix and bounds. -/
theorem mem_scan {π : Type} [DecidableEq π] {idx : Lock → π × ℕ} {p : π}
    {lo hi : Option (Bound (ℕ ×ₗ ℕ))} {locks : Store ℕ Lock} {lock : Lock} :
    lock ∈ (subPrefixRange idx p lo hi locks).map (·.2) ↔ ∃ id, locks.lookup id = some lock
      ∧ (idx lock).1 = p
      ∧ Bound.lowerAdmits lo (toLex ((idx lock).2, id)) = true
      ∧ Bound.upperAdmits hi (toLex ((idx lock).2, id)) = true := by
  rw [List.mem_map]
  constructor
  · rintro ⟨⟨id, v⟩, hmem, rfl⟩
    exact ⟨id, mem_subPrefixRange.mp hmem⟩
  · rintro ⟨id, hmem⟩
    exact ⟨(id, lock), mem_subPrefixRange.mpr hmem, rfl⟩

/-- One lock whose height plus duration overflows panics the filter. -/
theorem filterUnlockingAfter_eq_error {height unlockingAfter : ℕ} :
    ∀ {ls : List Lock}, (∃ lock ∈ ls, Uint64.MAX < height + lock.durationBlocks) →
      filterUnlockingAfter height unlockingAfter ls = .error (.panic "attempt to add with overflow")
  | [], ⟨_, hmem, _⟩ => absurd hmem List.not_mem_nil
  | lock :: rest, ⟨l, hmem, hover⟩ => by
      by_cases hfit : height + lock.durationBlocks ≤ Uint64.MAX
      · -- this lock fits, so the overflowing one is further on
        have hrest : ∃ l ∈ rest, Uint64.MAX < height + l.durationBlocks := by
          rcases List.mem_cons.mp hmem with rfl | hmem
          · omega
          · exact ⟨l, hmem, hover⟩
        simp only [filterUnlockingAfter, addU64, if_pos hfit, ok_bind,
          filterUnlockingAfter_eq_error hrest, error_bind]
      · simp only [filterUnlockingAfter, addU64, if_neg hfit, error_bind]

/-- Every query is the filter over a scan that reads exactly the stored
locks its index and bound admit. -/
theorem query_eq_filter (s : State) (env : Env) (q : QueryMsg) :
    ∃ scanned, query s env q = filterUnlockingAfter env.block.height q.unlockingAfter scanned
      ∧ ∀ lock, lock ∈ scanned ↔ ∃ id, s.locks.lookup id = some lock ∧ q.Scans id lock := by
  -- each case reads its index's key and bound back into `Scans`
  cases q with
  | locksByDenomUnlockingAfter denom unlockingAfter =>
      refine ⟨_, rfl, fun lock => ?_⟩
      rw [mem_scan]
      simp [QueryMsg.Scans, Lock.denomEnd]
  | locksByDenomAndAddressUnlockingAfter denom unlockingAfter address =>
      refine ⟨_, rfl, fun lock => ?_⟩
      rw [mem_scan]
      simp [QueryMsg.Scans, Lock.addrDenomEnd, and_assoc]
  | locksByDenomBetween denom lockedBefore unlockingAfter =>
      refine ⟨_, rfl, fun lock => ?_⟩
      rw [mem_scan]
      simp [QueryMsg.Scans, Lock.denomStart]
  | locksByDenomAndAddressBetween denom address lockedBefore unlockingAfter =>
      refine ⟨_, rfl, fun lock => ?_⟩
      rw [mem_scan]
      simp [QueryMsg.Scans, Lock.addrDenomStart, and_assoc]

/-- What every lockup query returns: when it answers, exactly the stored
locks its scan reads whose height plus duration passes its
`unlocking_after`; and one such stored lock whose sum overflows `u64`
panics it. -/
theorem query_selects (s : State) (env : Env) (q : QueryMsg) :
    (∀ ls, query s env q = .ok ls → ∀ lock, lock ∈ ls ↔ ∃ id, s.locks.lookup id = some lock
        ∧ q.Scans id lock ∧ q.unlockingAfter < env.block.height + lock.durationBlocks)
      ∧ ((∃ id lock, s.locks.lookup id = some lock ∧ q.Scans id lock
          ∧ Uint64.MAX < env.block.height + lock.durationBlocks)
        → query s env q = .error (.panic "attempt to add with overflow")) := by
  obtain ⟨scanned, hq, hscan⟩ := query_eq_filter s env q
  refine ⟨fun ls h lock => ?_, ?_⟩
  · rw [hq] at h
    obtain ⟨-, rfl⟩ := filterUnlockingAfter_eq_ok.mp h
    rw [List.mem_filter, hscan, decide_eq_true_eq]
    constructor
    · rintro ⟨⟨id, hl, hs⟩, hua⟩
      exact ⟨id, hl, hs, hua⟩
    · rintro ⟨id, hl, hs, hua⟩
      exact ⟨⟨id, hl, hs⟩, hua⟩
  · rintro ⟨id, lock, hl, hs, hover⟩
    rw [hq]
    exact filterUnlockingAfter_eq_error ⟨lock, (hscan lock).mpr ⟨id, hl, hs⟩, hover⟩

-- at the last height a `u64` holds, alice's lock panics the scan that reads it
example : query (run step instantiate [aliceLocks]).1 ⟨⟨Uint64.MAX, 0⟩, "lockup"⟩
      (.locksByDenomUnlockingAfter "unibi" 0) = .error (.panic "attempt to add with overflow") := by
  decide

-- ====================================================== the run

/-- The block the queries below run at. -/
def queryEnv (height : ℕ) : Env := ⟨⟨height, 0⟩, "lockup"⟩

/-- Alice's lock after `aliceLocks`. -/
def aliceLock : Lock := ⟨1, ⟨"unibi", 100⟩, "alice", 10, 1, notUnlockingBlockIdentifier, false⟩

/-- Alice's lock after `aliceUnlocks`: it ends at height 12. -/
def aliceUnlockingLock : Lock := ⟨1, ⟨"unibi", 100⟩, "alice", 10, 1, 12, false⟩

/-- Alice's lock after `aliceWithdraws`. -/
def aliceWithdrawnLock : Lock := ⟨1, ⟨"unibi", 100⟩, "alice", 10, 1, 12, true⟩

/-- The queries on alice's lock: withdrawn, it is still returned by both
kinds of query; just locked at height 1, it is returned by
`LocksByDenomBetween` with `locked_before` 1; unlocking to end at 12, it
is returned at height 20 as unlocking after 25. -/
theorem lockup_queries_diverge :
    query (run step instantiate [aliceLocks, aliceUnlocks, aliceWithdraws]).1 (queryEnv 20)
        (.locksByDenomBetween "unibi" 5 0) = .ok [aliceWithdrawnLock]
      ∧ query (run step instantiate [aliceLocks, aliceUnlocks, aliceWithdraws]).1 (queryEnv 20)
        (.locksByDenomUnlockingAfter "unibi" 0) = .ok [aliceWithdrawnLock]
      ∧ aliceWithdrawnLock.fundsWithdrawn = true
      ∧ query (run step instantiate [aliceLocks]).1 (queryEnv 1)
        (.locksByDenomBetween "unibi" 1 0) = .ok [aliceLock]
      ∧ aliceLock.startBlock = 1
      ∧ query (run step instantiate [aliceLocks, aliceUnlocks]).1 (queryEnv 20)
        (.locksByDenomBetween "unibi" 5 25) = .ok [aliceUnlockingLock]
      ∧ aliceUnlockingLock.endBlock ≤ 25 :=
  ⟨rfl, rfl, rfl, rfl, rfl, rfl, by decide⟩

end NibiruWasm.Lockup
