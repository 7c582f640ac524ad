/-
The lockup queries (`contract.rs`, `query`) over the four indexes of
`locks()` (`state.rs`, `LockIndexes`).

Each query scans one index under a prefix of denom (and owner), with
either the inclusive lower bound `(unlocking_after, 0)` on
`(end_block, id)` or the exclusive upper bound
`(locked_before, u64::MAX)` on `(start_block, id)`, and then keeps the
locks with `height + duration_blocks > unlocking_after`. That sum is
`u64`'s panicking `+`, so a query panics as soon as one scanned lock's
sum overflows. None of the four reads `funds_withdrawn`.

The JSON encoding of the answer is left out: a query returns its list.
-/
import NibiruWasm.Lockup.Contract
import NibiruWasm.Chain.Index
import NibiruWasm.Chain.Except

namespace NibiruWasm.Lockup

open Cosmwasm Chain

-- ========================================================= indexes

/-- The `denom_end` index key: denom, then end block. -/
def Lock.denomEnd (lock : Lock) : String × ℕ := (lock.coin.denom, lock.endBlock)

/-- The `addr_denom_end` index key: owner and denom, then end block. -/
def Lock.addrDenomEnd (lock : Lock) : (String × String) × ℕ :=
  ((lock.owner, lock.coin.denom), lock.endBlock)

/-- The `denom_start` index key: denom, then start block. -/
def Lock.denomStart (lock : Lock) : String × ℕ := (lock.coin.denom, lock.startBlock)

/-- The `addr_denom_start` index key: owner and denom, then start block. -/
def Lock.addrDenomStart (lock : Lock) : (String × String) × ℕ :=
  ((lock.owner, lock.coin.denom), lock.startBlock)

-- ========================================================= queries

/-- `QueryMsg`. -/
inductive QueryMsg
  | locksByDenomUnlockingAfter (denom : String) (unlockingAfter : ℕ)
  | locksByDenomAndAddressUnlockingAfter (denom : String) (unlockingAfter : ℕ) (address : String)
  | locksByDenomBetween (denom : String) (lockedBefore unlockingAfter : ℕ)
  | locksByDenomAndAddressBetween (denom address : String) (lockedBefore unlockingAfter : ℕ)
  deriving DecidableEq, Repr

/-- The `.filter` every query ends with: the locks whose height plus
duration passes `unlocking_after`. The sum is computed for every
scanned lock, and one overflow panics the query. (The last query writes
the sum the other way round, `duration_blocks + height`, which is the
same sum with the same overflow.) -/
def filterUnlockingAfter (height unlockingAfter : ℕ) :
    List Lock → Except StdError (List Lock)
  | [] => .ok []
  | lock :: rest => do
      let unlockAt ← addU64 height lock.durationBlocks
      let rest ← filterUnlockingAfter height unlockingAfter rest
      pure (if unlockAt ≤ unlockingAfter then rest else lock :: rest)

/-- The lower bound of the `…UnlockingAfter` scans,
`Bound::inclusive((unlocking_after, 0))`. -/
def unlockingAfterBound (unlockingAfter : ℕ) : Option (Bound (ℕ ×ₗ ℕ)) :=
  some (.inclusive (toLex (unlockingAfter, 0)))

/-- The upper bound of the `…Between` scans,
`Bound::exclusive((locked_before, u64::MAX))`. -/
def lockedBeforeBound (lockedBefore : ℕ) : Option (Bound (ℕ ×ₗ ℕ)) :=
  some (.exclusive (toLex (lockedBefore, Uint64.MAX)))

/-- `query`. -/
def query (s : State) (env : Env) : QueryMsg → Except StdError (List Lock)
  | .locksByDenomAndAddressUnlockingAfter denom unlockingAfter address =>
      filterUnlockingAfter env.block.height unlockingAfter
        ((subPrefixRange Lock.addrDenomEnd (address, denom)
          (unlockingAfterBound unlockingAfter) none s.locks).map (·.2))
  | .locksByDenomUnlockingAfter denom unlockingAfter =>
      filterUnlockingAfter env.block.height unlockingAfter
        ((subPrefixRange Lock.denomEnd denom
          (unlockingAfterBound unlockingAfter) none s.locks).map (·.2))
  | .locksByDenomBetween denom lockedBefore unlockingAfter =>
      filterUnlockingAfter env.block.height unlockingAfter
        ((subPrefixRange Lock.denomStart denom
          none (lockedBeforeBound lockedBefore) s.locks).map (·.2))
  | .locksByDenomAndAddressBetween denom address lockedBefore unlockingAfter =>
      filterUnlockingAfter env.block.height unlockingAfter
        ((subPrefixRange Lock.addrDenomStart (address, denom)
          none (lockedBeforeBound lockedBefore) s.locks).map (·.2))

-- ===================================================== what they keep

/-- The filter keeps exactly the locks whose sum passes the bound, once
no sum overflows. -/
theorem filterUnlockingAfter_eq_ok {height unlockingAfter : ℕ} :
    ∀ {ls r : List Lock}, filterUnlockingAfter height unlockingAfter ls = .ok r ↔
      (∀ lock ∈ ls, height + lock.durationBlocks ≤ Uint64.MAX)
        ∧ r = ls.filter fun lock => unlockingAfter < height + lock.durationBlocks
  | [], r => by simp [filterUnlockingAfter, eq_comm]
  | lock :: rest, r => by
      simp only [filterUnlockingAfter, bind_eq_ok, addU64_eq_ok, pure_eq_ok,
        filterUnlockingAfter_eq_ok, List.forall_mem_cons, List.filter_cons]
      constructor
      · rintro ⟨_, ⟨hfit, rfl⟩, _, ⟨hrest, rfl⟩, rfl⟩
        refine ⟨⟨hfit, hrest⟩, ?_⟩
        by_cases hle : height + lock.durationBlocks ≤ unlockingAfter
        · simp [hle]
        · simp [hle, Nat.lt_of_not_le hle]
      · rintro ⟨⟨hfit, hrest⟩, rfl⟩
        refine ⟨_, ⟨hfit, rfl⟩, _, ⟨hrest, rfl⟩, ?_⟩
        by_cases hle : height + lock.durationBlocks ≤ unlockingAfter
        · simp [hle, Nat.not_lt_of_le hle]
        · simp [hle, Nat.lt_of_not_le hle]

/-- The `…UnlockingAfter` bound admits the locks whose end block is at
least `unlocking_after`. -/
@[simp] theorem unlockingAfterBound_admits {unlockingAfter endBlock id : ℕ} :
    Bound.lowerAdmits (unlockingAfterBound unlockingAfter) (toLex (endBlock, id)) = true
      ↔ unlockingAfter ≤ endBlock := by
  simp only [unlockingAfterBound, Bound.lowerAdmits_inclusive]
  exact toLex_le_least_iff Nat.zero_le

/-- The `…Between` bound admits the locks started before `locked_before`,
and those started at it whose id is below `u64::MAX`. -/
@[simp] theorem lockedBeforeBound_admits {lockedBefore startBlock id : ℕ} :
    Bound.upperAdmits (lockedBeforeBound lockedBefore) (toLex (startBlock, id)) = true
      ↔ startBlock < lockedBefore ∨ (startBlock = lockedBefore ∧ id < Uint64.MAX) := by
  simp only [lockedBeforeBound, Bound.upperAdmits_exclusive]
  exact Prod.Lex.toLex_lt_toLex

end NibiruWasm.Lockup
