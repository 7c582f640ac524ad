/-
What each committed lockup transaction does, lock by lock.

`LockMove tx id` is the state machine of one stored lock: a committed
transaction leaves the entry under `id` as it was, creates a fresh
lock there (`Lock`), sets the end block of a lock that is not unlocking
(`InitiateUnlock`) or marks a matured lock withdrawn (`WithdrawFunds`).
`step_lockMove` shows that every committed step is such a move for
every id, once the ids below `LOCKS_ID` are the stored ones
(`IdsBelow`, kept by `step_idsBelow`); `step_msgs` says which messages a
committed step emits. The lifecycle, the books and the counterexamples
of `Lockup.Proofs.Lifecycle` rest on these three.
-/
import NibiruWasm.Lockup.Contract
import NibiruWasm.Chain.Except
import NibiruWasm.Chain.Run

namespace NibiruWasm.Lockup

open Cosmwasm Chain

-- ======================================================= inversions

@[simp] theorem loadLock_eq_ok {locks : Store ℕ Lock} {id : ℕ} {lock : Lock} :
    loadLock locks id = .ok lock ↔ locks.lookup id = some lock := by
  unfold loadLock
  cases locks.lookup id <;> simp

variable {s s' : State} {env : Env} {info : MessageInfo} {ms : List CosmosMsg}

theorem executeWithdrawFunds_eq_ok {id : ℕ} (h : executeWithdrawFunds s env id = .ok (s', ms)) :
    ∃ lock, s.locks.lookup id = some lock ∧ lock.state env.block.height = .matured
      ∧ s' = { s with locks := s.locks.insert id { lock with fundsWithdrawn := true } }
      ∧ ms = [.bank (.send lock.owner [lock.coin])] := by
  simp only [executeWithdrawFunds, bind_eq_ok, loadLock_eq_ok] at h
  obtain ⟨lock, hl, h⟩ := h
  cases hs : lock.state env.block.height <;> simp only [hs] at h
  · exact absurd h throw_ne_ok
  · exact absurd h throw_ne_ok
  · simp only [pure_eq_ok, Prod.mk.injEq] at h
    exact ⟨lock, hl, hs, h.1.symm, h.2.symm⟩
  · exact absurd h throw_ne_ok

theorem executeInitiateUnlock_eq_ok {id : ℕ} (h : executeInitiateUnlock s env id = .ok (s', ms)) :
    ∃ lock, s.locks.lookup id = some lock ∧ lock.state env.block.height = .fundedPreUnlock
      ∧ env.block.height + lock.durationBlocks ≤ Uint64.MAX
      ∧ s' = { s with
          locks := s.locks.insert id { lock with endBlock := env.block.height + lock.durationBlocks } }
      ∧ ms = [] := by
  simp only [executeInitiateUnlock, bind_eq_ok, loadLock_eq_ok] at h
  obtain ⟨lock, hl, h⟩ := h
  cases hs : lock.state env.block.height <;> simp only [hs] at h
  · simp only [bind_eq_ok, mapError_eq_ok, addU64_eq_ok, pure_eq_ok, Prod.mk.injEq] at h
    obtain ⟨_, ⟨hfit, rfl⟩, hs', hms⟩ := h
    exact ⟨lock, hl, hs, hfit, hs'.symm, hms.symm⟩
  · exact absurd h throw_ne_ok
  · exact absurd h throw_ne_ok
  · exact absurd h throw_ne_ok

-- ========================================================= fresh ids

/-- Every stored id is at most `LOCKS_ID`: the next id is free. -/
def IdsBelow (s : State) : Prop :=
  ∀ id lock, s.locks.lookup id = some lock → id ≤ s.locksId

theorem idsBelow_instantiate : IdsBelow instantiate := by
  intro id lock h
  simp [instantiate] at h

/-- The id past `LOCKS_ID` is free. -/
theorem IdsBelow.lookup_succ {s : State} (hs : IdsBelow s) : s.locks.lookup (s.locksId + 1) = none := by
  cases hl : s.locks.lookup (s.locksId + 1) with
  | none => rfl
  | some lock => exact absurd (hs _ lock hl) (Nat.not_succ_le_self _)

/-- Saving under the id past `LOCKS_ID` and moving the counter to it
keeps the ids below it. -/
theorem IdsBelow.save_next {s : State} (hs : IdsBelow s) (lock : Lock) :
    IdsBelow ⟨s.locksId + 1, s.locks.insert (s.locksId + 1) lock⟩ := by
  intro id l hl
  rcases Store.lookup_insert_cases hl with ⟨rfl, -⟩ | ⟨-, hl⟩
  · exact le_rfl
  · exact Nat.le_succ_of_le (hs id l hl)

/-- Overwriting a stored lock keeps the ids below `LOCKS_ID`. -/
theorem IdsBelow.insert_of_lookup {s : State} {id : ℕ} {lock lock' : Lock} (hs : IdsBelow s)
    (hl : s.locks.lookup id = some lock) : IdsBelow { s with locks := s.locks.insert id lock' } := by
  intro id' l h
  rcases Store.lookup_insert_cases h with ⟨rfl, -⟩ | ⟨-, h⟩
  · exact hs _ lock hl
  · exact hs id' l h

-- ========================================================== the moves

/-- What one committed transaction does to the lock stored under `id`. -/
inductive LockMove (tx : Tx) (id : ℕ) : Option Lock → Option Lock → Prop
  /-- The entry is left as it was. -/
  | keep (o : Option Lock) : LockMove tx id o o
  /-- `Lock` saves a fresh lock for one of the coins sent. -/
  | create (blocks : ℕ) (coin : Coin) :
      tx.msg = .lock blocks → blocks ≠ 0 → coin ∈ tx.info.funds → coin.amount ≠ 0 →
      LockMove tx id none (some ⟨id, coin, tx.info.sender, blocks, tx.env.block.height,
        notUnlockingBlockIdentifier, false⟩)
  /-- `InitiateUnlock` sets the end block of a lock that is not unlocking. -/
  | unlock (lock : Lock) :
      tx.msg = .initiateUnlock id → lock.state tx.env.block.height = .fundedPreUnlock →
      tx.env.block.height + lock.durationBlocks ≤ Uint64.MAX →
      LockMove tx id (some lock)
        (some { lock with endBlock := tx.env.block.height + lock.durationBlocks })
  /-- `WithdrawFunds` marks a matured lock withdrawn. -/
  | withdraw (lock : Lock) :
      tx.msg = .withdrawFunds id → lock.state tx.env.block.height = .matured →
      LockMove tx id (some lock) (some { lock with fundsWithdrawn := true })

/-- The effect of `Lock`'s loop: `LOCKS_ID` grows, the ids stay below it,
and each entry is kept or is a fresh lock for one of the coins. -/
theorem lockCoins_eq_ok {owner : String} {blocks height : ℕ} :
    ∀ {coins : List Coin} {s s' : State}, IdsBelow s →
      lockCoins owner blocks height s coins = .ok s' →
      IdsBelow s' ∧ s.locksId ≤ s'.locksId ∧ ∀ id,
        s'.locks.lookup id = s.locks.lookup id
          ∨ (s.locks.lookup id = none ∧ ∃ coin ∈ coins, coin.amount ≠ 0
              ∧ s'.locks.lookup id = some ⟨id, coin, owner, blocks, height,
                  notUnlockingBlockIdentifier, false⟩)
  | [], s, s', hs, h => by
      simp only [lockCoins, Except.ok.injEq] at h
      subst h
      exact ⟨hs, le_rfl, fun id => .inl rfl⟩
  | coin :: rest, s, s', hs, h => by
      simp only [lockCoins, ite_throw_eq_ok, bind_eq_ok, mapError_eq_ok, addU64_eq_ok] at h
      obtain ⟨hpos, _, ⟨-, rfl⟩, h⟩ := h
      -- the coin's lock goes under the free id past `LOCKS_ID`
      obtain ⟨hs', hle, hent⟩ := lockCoins_eq_ok (hs.save_next _) h
      refine ⟨hs', Nat.le_of_succ_le hle, fun id => ?_⟩
      rcases hent id with hkeep | ⟨hnone, c, hc, hcpos, hnew⟩
      · by_cases hid : id = s.locksId + 1
        · subst hid
          refine .inr ⟨hs.lookup_succ, coin, List.mem_cons_self, hpos, ?_⟩
          rw [hkeep]
          exact AList.lookup_insert _
        · left
          rw [hkeep]
          exact AList.lookup_insert_ne hid
      · -- a later coin's id was free in `s1`, so in `s`
        have hid : id ≠ s.locksId + 1 := by
          rintro rfl
          simp at hnone
        have hnone' : s.locks.lookup id = none := by
          rw [← AList.lookup_insert_ne hid]
          exact hnone
        exact .inr ⟨hnone', c, List.mem_cons_of_mem coin hc, hcpos, hnew⟩

/-- A committed `Lock` is its loop over the coins sent, with no message. -/
theorem executeLock_loop {blocks : ℕ} (h : executeLock s env info blocks = .ok (s', ms)) :
    blocks ≠ 0 ∧ ms = [] ∧ lockCoins info.sender blocks env.block.height s info.funds = .ok s' := by
  simp only [executeLock, ite_throw_eq_ok, bind_eq_ok, pure_eq_ok, Prod.mk.injEq] at h
  obtain ⟨hblocks, -, s1, hloop, rfl, rfl⟩ := h
  exact ⟨hblocks, rfl, hloop⟩

theorem executeLock_eq_ok {blocks : ℕ} (hs : IdsBelow s)
    (h : executeLock s env info blocks = .ok (s', ms)) :
    blocks ≠ 0 ∧ ms = [] ∧ IdsBelow s' ∧ ∀ id,
      s'.locks.lookup id = s.locks.lookup id
        ∨ (s.locks.lookup id = none ∧ ∃ coin ∈ info.funds, coin.amount ≠ 0
            ∧ s'.locks.lookup id = some ⟨id, coin, info.sender, blocks, env.block.height,
                notUnlockingBlockIdentifier, false⟩) := by
  obtain ⟨hblocks, hms, hloop⟩ := executeLock_loop h
  obtain ⟨hs', -, hent⟩ := lockCoins_eq_ok hs hloop
  exact ⟨hblocks, hms, hs', hent⟩

/-- Every committed step keeps the stored ids below `LOCKS_ID`. -/
theorem step_idsBelow {tx : Tx} (hs : IdsBelow s) (h : step s tx = .ok (s', ms)) : IdsBelow s' := by
  cases hmsg : tx.msg with
  | lock blocks =>
      rw [step, hmsg] at h
      exact (executeLock_eq_ok hs h).2.2.1
  | initiateUnlock id =>
      rw [step, hmsg] at h
      obtain ⟨lock, hl, -, -, rfl, -⟩ := executeInitiateUnlock_eq_ok h
      exact hs.insert_of_lookup hl
  | withdrawFunds id =>
      rw [step, hmsg] at h
      obtain ⟨lock, hl, -, rfl, -⟩ := executeWithdrawFunds_eq_ok h
      exact hs.insert_of_lookup hl

/-- A save under `id` is a move of `id` and leaves every other entry. -/
private theorem lockMove_insert {tx : Tx} {locks : Store ℕ Lock} {id : ℕ} {lock' : Lock}
    (hmove : LockMove tx id (locks.lookup id) (some lock')) (id' : ℕ) :
    LockMove tx id' (locks.lookup id') ((locks.insert id lock').lookup id') := by
  by_cases hid : id' = id
  · subst hid
    rw [AList.lookup_insert]
    exact hmove
  · rw [AList.lookup_insert_ne hid]
    exact .keep _

/-- Every committed step is a move of every stored lock. -/
theorem step_lockMove {tx : Tx} (hs : IdsBelow s) (h : step s tx = .ok (s', ms)) (id : ℕ) :
    LockMove tx id (s.locks.lookup id) (s'.locks.lookup id) := by
  cases hmsg : tx.msg with
  | lock blocks =>
      rw [step, hmsg] at h
      obtain ⟨hblocks, -, -, hent⟩ := executeLock_eq_ok hs h
      rcases hent id with hkeep | ⟨hnone, coin, hc, hpos, hnew⟩
      · rw [hkeep]
        exact .keep _
      · rw [hnone, hnew]
        exact .create blocks coin hmsg hblocks hc hpos
  | initiateUnlock id₀ =>
      rw [step, hmsg] at h
      obtain ⟨lock, hl, hst, hfit, rfl, -⟩ := executeInitiateUnlock_eq_ok h
      refine lockMove_insert ?_ id
      rw [hl]
      exact .unlock lock hmsg hst hfit
  | withdrawFunds id₀ =>
      rw [step, hmsg] at h
      obtain ⟨lock, hl, hst, rfl, -⟩ := executeWithdrawFunds_eq_ok h
      refine lockMove_insert ?_ id
      rw [hl]
      exact .withdraw lock hmsg hst

/-- The only messages: `WithdrawFunds` sends a matured lock's coin to its
owner. -/
theorem step_msgs {tx : Tx} (hs : IdsBelow s) (h : step s tx = .ok (s', ms)) :
    ms = [] ∨ ∃ id lock, tx.msg = .withdrawFunds id ∧ s.locks.lookup id = some lock
      ∧ lock.state tx.env.block.height = .matured ∧ ms = [.bank (.send lock.owner [lock.coin])] := by
  cases hmsg : tx.msg with
  | lock blocks =>
      rw [step, hmsg] at h
      exact .inl (executeLock_eq_ok hs h).2.1
  | initiateUnlock id =>
      rw [step, hmsg] at h
      obtain ⟨-, -, -, -, -, hms⟩ := executeInitiateUnlock_eq_ok h
      exact .inl hms
  | withdrawFunds id =>
      rw [step, hmsg] at h
      obtain ⟨lock, hl, hst, -, hms⟩ := executeWithdrawFunds_eq_ok h
      exact .inr ⟨id, lock, rfl, hl, hst, hms⟩

-- ===================================================== one lock's step

/-- A committed `InitiateUnlock id` found the lock under `id` not
unlocking, with room for its end block, and saved it with that end
block. -/
theorem step_initiateUnlock_eq_ok {tx : Tx} {id : ℕ} (h : step s tx = .ok (s', ms))
    (hmsg : tx.msg = .initiateUnlock id) :
    ∃ lock, s.locks.lookup id = some lock ∧ lock.state tx.env.block.height = .fundedPreUnlock
      ∧ tx.env.block.height + lock.durationBlocks ≤ Uint64.MAX
      ∧ s'.locks.lookup id
        = some { lock with endBlock := tx.env.block.height + lock.durationBlocks } := by
  rw [step, hmsg] at h
  obtain ⟨lock, hl, hst, hfit, rfl, -⟩ := executeInitiateUnlock_eq_ok h
  exact ⟨lock, hl, hst, hfit, AList.lookup_insert _⟩

/-- A committed `WithdrawFunds id` found the lock under `id` matured and
saved it withdrawn. -/
theorem step_withdrawFunds_eq_ok {tx : Tx} {id : ℕ} (h : step s tx = .ok (s', ms))
    (hmsg : tx.msg = .withdrawFunds id) :
    ∃ lock, s.locks.lookup id = some lock ∧ lock.state tx.env.block.height = .matured
      ∧ s'.locks.lookup id = some { lock with fundsWithdrawn := true } := by
  rw [step, hmsg] at h
  obtain ⟨lock, hl, hst, rfl, -⟩ := executeWithdrawFunds_eq_ok h
  exact ⟨lock, hl, hst, AList.lookup_insert _⟩

/-- The stored lock a committed `InitiateUnlock` finds is not unlocking,
and its end block fits in a `u64`. -/
theorem step_initiateUnlock_fits {tx : Tx} {id : ℕ} {lock : Lock} (h : step s tx = .ok (s', ms))
    (hmsg : tx.msg = .initiateUnlock id) (hl : s.locks.lookup id = some lock) :
    lock.state tx.env.block.height = .fundedPreUnlock
      ∧ tx.env.block.height + lock.durationBlocks ≤ Uint64.MAX := by
  obtain ⟨lock', hl', hst, hfit, -⟩ := step_initiateUnlock_eq_ok h hmsg
  rw [hl, Option.some.injEq] at hl'
  subst hl'
  exact ⟨hst, hfit⟩

/-- The stored lock a committed `WithdrawFunds` finds is matured. -/
theorem step_withdrawFunds_matured {tx : Tx} {id : ℕ} {lock : Lock} (h : step s tx = .ok (s', ms))
    (hmsg : tx.msg = .withdrawFunds id) (hl : s.locks.lookup id = some lock) :
    lock.state tx.env.block.height = .matured := by
  obtain ⟨lock', hl', hst, -⟩ := step_withdrawFunds_eq_ok h hmsg
  rw [hl, Option.some.injEq] at hl'
  subst hl'
  exact hst

end NibiruWasm.Lockup
