/-
The lockup's laws over whole runs, and two runs where a lock escapes
its owner or is stuck.

For every run from `instantiate` at non-decreasing heights (`LockupLaws`):

- `trace_msgs`: the only messages are `WithdrawFunds`' sends of a matured
  lock's coin to its owner;
- `run_withdrawFunds_le_one`: each lock is withdrawn at most once;
- `trace_lock_frame`: a stored lock's coin and owner never change;
- `trace_lockRank_isChain`: each lock's state, observed at every commit,
  never moves back along FundedPreUnlock, Unlocking, Matured, Withdrawn;
- `trace_withdraw_after_unlock`: a withdrawal comes after an unlock of
  the lock, and at least its duration after every such unlock;
- `run_books`: per denom, what the unwithdrawn locks hold plus what was
  sent equals what `Lock` received.

`LockMove` (`Lockup.Proofs.Handlers`) carries all of them but the books,
which `run_balance` derives from one balance lemma per handler.

Neither `InitiateUnlock` nor `WithdrawFunds` reads the sender, so a third
party moves another owner's lock (`aliceLocks`, `malloryUnlocks`). And
`InitiateUnlock` adds the duration to the height with `u64`'s panicking
`+`: a lock of duration `u64::MAX` created at a positive height can
never be unlocked (`stuck_of_maxDuration`), and one whose sum lands on
`u64::MAX` gets the "not unlocking" sentinel as its end block.
-/
import NibiruWasm.Lockup.Proofs.Handlers

namespace NibiruWasm.Lockup

open Cosmwasm Chain

/-- A committed step from a state whose ids are below `LOCKS_ID`, at any
entry of a run from `instantiate`. -/
theorem idsBelow_of_mem_trace {txs : List Tx} {c : Commit State Tx CosmosMsg}
    (hc : c ∈ trace step instantiate txs) : IdsBelow c.pre :=
  pre_of_mem_trace IdsBelow (fun _ _ _ _ hs h => step_idsBelow hs h) idsBelow_instantiate hc

-- ============================================================ lifecycle

/-- The place of a state along FundedPreUnlock, Unlocking, Matured,
Withdrawn. -/
def LockState.rank : LockState → ℕ
  | .fundedPreUnlock => 0
  | .unlocking => 1
  | .matured => 2
  | .withdrawn => 3

theorem LockState.rank_le_three (st : LockState) : st.rank ≤ 3 := by
  cases st <;> decide

@[simp] theorem Lock.state_withdrawn {lock : Lock} (h : ℕ) :
    ({ lock with fundsWithdrawn := true } : Lock).state h = .withdrawn := by
  simp [Lock.state]

/-- A lock is matured exactly when it is not withdrawn and its end block
is set and reached. -/
theorem Lock.state_eq_matured {lock : Lock} {h : ℕ} :
    lock.state h = .matured ↔
      lock.fundsWithdrawn = false ∧ lock.endBlock ≠ notUnlockingBlockIdentifier
        ∧ lock.endBlock ≤ h := by
  unfold Lock.state
  by_cases hw : lock.fundsWithdrawn = true
  · simp [hw]
  by_cases he : lock.endBlock = notUnlockingBlockIdentifier
  · simp [hw, he]
  by_cases hm : h ≥ lock.endBlock
  · simp [hw, he, hm]
  · simp [hw, he, hm]

/-- Time only moves a stored lock forward: an unlocking lock matures. -/
theorem Lock.rank_state_mono (lock : Lock) {h h' : ℕ} (hle : h ≤ h') :
    (lock.state h).rank ≤ (lock.state h').rank := by
  unfold Lock.state
  by_cases hw : lock.fundsWithdrawn = true
  · simp [hw]
  by_cases he : lock.endBlock = notUnlockingBlockIdentifier
  · simp [hw, he]
  by_cases hm : h ≥ lock.endBlock
  · have hm' : h' ≥ lock.endBlock := le_trans hm hle
    simp [hw, he, hm, hm']
  · simp only [hw, he, hm, if_false, Bool.false_eq_true]
    split <;> simp [LockState.rank]

/-- A move keeps a stored lock stored and does not move its state back. -/
theorem LockMove.rank_le {tx : Tx} {id : ℕ} {lock : Lock} {o : Option Lock}
    (hm : LockMove tx id (some lock) o) :
    ∃ lock', o = some lock'
      ∧ (lock.state tx.env.block.height).rank ≤ (lock'.state tx.env.block.height).rank := by
  cases hm with
  | keep => exact ⟨lock, rfl, le_rfl⟩
  | unlock _ _ hst _ => exact ⟨_, rfl, by simp [hst, LockState.rank]⟩
  | withdraw _ _ _ =>
      refine ⟨_, rfl, ?_⟩
      rw [Lock.state_withdrawn]
      exact LockState.rank_le_three _

/-- No move changes a stored lock's id, coin, owner, duration or start. -/
theorem LockMove.frame {tx : Tx} {id : ℕ} {lock lock' : Lock}
    (hm : LockMove tx id (some lock) (some lock')) :
    lock'.id = lock.id ∧ lock'.coin = lock.coin ∧ lock'.owner = lock.owner
      ∧ lock'.durationBlocks = lock.durationBlocks ∧ lock'.startBlock = lock.startBlock := by
  cases hm <;> simp

/-- A withdrawn lock is never moved again. -/
theorem LockMove.of_withdrawn {tx : Tx} {id : ℕ} {lock : Lock} {o : Option Lock}
    (hm : LockMove tx id (some lock) o) (hw : lock.fundsWithdrawn = true) : o = some lock := by
  cases hm with
  | keep => rfl
  | unlock _ _ hst _ => simp [Lock.state, hw] at hst
  | withdraw _ _ hst => simp [Lock.state, hw] at hst

/-- Observed at the height of each commit that follows, a lock's place
along its lifecycle never goes back. -/
theorem trace_lockRank_isChain (txs : List Tx)
    (hchain : List.IsChain (· ≤ ·) (txs.map (·.env.block.height))) (id : ℕ) :
    List.IsChain (· ≤ ·) ((trace step instantiate txs).filterMap fun c =>
      (c.post.locks.lookup id).map fun lock => (lock.state c.tx.env.block.height).rank) := by
  have hwait : ∀ (t t' : ℕ) (s : State) (x : ℕ), t ≤ t' →
      ((s.locks.lookup id).map fun lock => (lock.state t).rank) = some x →
      ∃ y, ((s.locks.lookup id).map fun lock => (lock.state t').rank) = some y ∧ x ≤ y := by
    intro t t' s x hle hx
    obtain ⟨lock, hl, rfl⟩ := Option.map_eq_some_iff.mp hx
    rw [hl]
    exact ⟨_, rfl, lock.rank_state_mono hle⟩
  have hstep : ∀ (s : State) (tx : Tx) (s' : State) (ms : List CosmosMsg) (x : ℕ), IdsBelow s →
      ((s.locks.lookup id).map fun lock => (lock.state tx.env.block.height).rank) = some x →
      step s tx = .ok (s', ms) →
      ∃ y, ((s'.locks.lookup id).map fun lock => (lock.state tx.env.block.height).rank)
        = some y ∧ x ≤ y := by
    intro s tx s' ms x hs hx h
    obtain ⟨lock, hl, rfl⟩ := Option.map_eq_some_iff.mp hx
    have hm := step_lockMove hs h id
    rw [hl] at hm
    obtain ⟨lock', hl', hle⟩ := hm.rank_le
    rw [hl']
    exact ⟨_, rfl, hle⟩
  -- start the observation at height 0, where nothing is stored
  have h0 : List.IsChain (· ≤ ·) (0 :: txs.map (·.env.block.height)) :=
    hchain.cons fun y _ => Nat.zero_le y
  have := trace_observe_isChain (fun tx : Tx => tx.env.block.height) IdsBelow
    (fun t s => (s.locks.lookup id).map fun lock => (lock.state t).rank)
    (fun _ _ _ _ hs h => step_idsBelow hs h) hwait hstep txs h0 idsBelow_instantiate
  simpa [instantiate] using this

-- ============================================================ messages

/-- The only messages of a run: `WithdrawFunds` sends a matured lock's
coin to its owner. -/
theorem trace_msgs {txs : List Tx} {c : Commit State Tx CosmosMsg}
    (hc : c ∈ trace step instantiate txs) :
    c.msgs = [] ∨ ∃ id lock, c.tx.msg = .withdrawFunds id ∧ c.pre.locks.lookup id = some lock
      ∧ lock.state c.tx.env.block.height = .matured
      ∧ c.msgs = [.bank (.send lock.owner [lock.coin])] :=
  step_msgs (idsBelow_of_mem_trace hc) (exec_of_mem_trace hc)

/-- A lock's coin and owner are the ones `Lock` stored. -/
theorem trace_lock_frame {txs : List Tx} {c : Commit State Tx CosmosMsg}
    (hc : c ∈ trace step instantiate txs) {id : ℕ} {lock lock' : Lock}
    (hl : c.pre.locks.lookup id = some lock) (hl' : c.post.locks.lookup id = some lock') :
    lock'.coin = lock.coin ∧ lock'.owner = lock.owner := by
  have hm := step_lockMove (idsBelow_of_mem_trace hc) (exec_of_mem_trace hc) id
  rw [hl, hl'] at hm
  obtain ⟨-, hcoin, howner, -⟩ := hm.frame
  exact ⟨hcoin, howner⟩

/-- Each lock is withdrawn by at most one committed transaction. -/
theorem run_withdrawFunds_le_one (txs : List Tx)
    (hchain : List.IsChain (· ≤ ·) (txs.map (·.env.block.height))) (id : ℕ) :
    (run step instantiate txs).2.countP (fun c => decide (c.1.msg = .withdrawFunds id)) ≤ 1 := by
  refine run_countP_le_one (fun tx : Tx => tx.env.block.height) IdsBelow
    (fun _ s => ∃ lock, s.locks.lookup id = some lock ∧ lock.fundsWithdrawn = true)
    (fun tx _ => decide (tx.msg = .withdrawFunds id)) (fun _ _ _ _ hs h => step_idsBelow hs h)
    ?_ ?_ ?_ txs hchain idsBelow_instantiate
  · -- being withdrawn does not depend on the height
    intro t t' s _ hd
    exact hd
  · -- a withdrawal leaves the lock withdrawn
    intro s tx s' ms _ h hev
    obtain ⟨lock, -, -, hl'⟩ := step_withdrawFunds_eq_ok h (of_decide_eq_true hev)
    exact ⟨_, hl', rfl⟩
  · -- a withdrawn lock is never moved, and a second withdrawal finds it withdrawn
    rintro t s tx s' ms - hs ⟨lock, hl, hw⟩ h
    have hm := step_lockMove hs h id
    rw [hl] at hm
    refine ⟨⟨lock, hm.of_withdrawn hw, hw⟩, ?_⟩
    rw [decide_eq_false_iff_not]
    intro hmsg
    have hst := step_withdrawFunds_matured h hmsg hl
    simp [Lock.state, hw] at hst

-- ============================================================ history

/-- What the commits so far say of the lock under `id`: an end block
other than the sentinel was set by an unlock among them, and every
unlock among them came at least the duration before the end block. -/
def UnlockedBy (cs : List (Commit State Tx CosmosMsg)) (id : ℕ) (lock : Lock) : Prop :=
  (lock.endBlock ≠ notUnlockingBlockIdentifier → ∃ c ∈ cs, c.tx.msg = .initiateUnlock id)
    ∧ ∀ c ∈ cs, c.tx.msg = .initiateUnlock id →
      c.tx.env.block.height + lock.durationBlocks ≤ lock.endBlock

/-- The invariant of the history of unlocks at height `t`: the commits so
far are no later than `t`, every unlock among them found its lock, and
every stored lock is `UnlockedBy` them. -/
def UnlockHistory (cs : List (Commit State Tx CosmosMsg)) (t : ℕ) (s : State) : Prop :=
  IdsBelow s ∧ (∀ c ∈ cs, c.tx.env.block.height ≤ t)
    ∧ (∀ c ∈ cs, ∀ id, c.tx.msg = .initiateUnlock id → ∃ lock, s.locks.lookup id = some lock)
    ∧ ∀ id lock, s.locks.lookup id = some lock → UnlockedBy cs id lock

/-- A commit that is not an unlock of `id` says nothing new of it. -/
theorem UnlockedBy.append {cs : List (Commit State Tx CosmosMsg)} {id : ℕ} {lock : Lock}
    (h : UnlockedBy cs id lock) {c : Commit State Tx CosmosMsg}
    (hc : c.tx.msg ≠ .initiateUnlock id) : UnlockedBy (cs ++ [c]) id lock := by
  obtain ⟨hend, hle⟩ := h
  refine ⟨fun hne => ?_, fun c' hc' hmsg => ?_⟩
  · obtain ⟨c', hc', hmsg⟩ := hend hne
    exact ⟨c', List.mem_append_left _ hc', hmsg⟩
  · rcases List.mem_append.mp hc' with hc' | hc'
    · exact hle c' hc' hmsg
    · rw [List.mem_singleton] at hc'
      subst hc'
      exact absurd hmsg hc

/-- The unlock at height `t` sets the end block to `t` plus the
duration, past every earlier unlock plus the duration. -/
theorem UnlockedBy.unlock {cs : List (Commit State Tx CosmosMsg)} {id t : ℕ} {lock : Lock}
    (hcs : ∀ c ∈ cs, c.tx.env.block.height ≤ t) {c : Commit State Tx CosmosMsg}
    (hmsg : c.tx.msg = .initiateUnlock id) (ht : c.tx.env.block.height = t) :
    UnlockedBy (cs ++ [c]) id { lock with endBlock := t + lock.durationBlocks } := by
  refine ⟨fun _ => ⟨c, List.mem_append_right _ (List.mem_singleton_self c), hmsg⟩,
    fun c' hc' _ => ?_⟩
  rcases List.mem_append.mp hc' with hc' | hc'
  · have := hcs c' hc'
    simp only
    omega
  · rw [List.mem_singleton] at hc'
    subst hc'
    simp [ht]

/-- After a committed step every stored lock is `UnlockedBy` the commits
with the step appended: an unlock sets the end block it checks, and
every other move keeps a lock's end block, or stores a fresh lock that
no earlier unlock found. -/
theorem unlockedBy_step {cs : List (Commit State Tx CosmosMsg)} {t : ℕ} {s s' : State}
    {tx : Tx} {ms : List CosmosMsg} (H : UnlockHistory cs t s) (hle : t ≤ tx.env.block.height)
    (h : step s tx = .ok (s', ms)) {id : ℕ} {lock' : Lock}
    (hl' : s'.locks.lookup id = some lock') :
    UnlockedBy (cs ++ [⟨s, tx, s', ms⟩]) id lock' := by
  obtain ⟨hs, hcs, hex, hub⟩ := H
  by_cases hmsg : tx.msg = .initiateUnlock id
  · -- this commit unlocked the lock: its end block is the height plus the duration
    obtain ⟨lock, -, -, -, hpost⟩ := step_initiateUnlock_eq_ok h hmsg
    rw [hpost, Option.some.injEq] at hl'
    subst hl'
    exact UnlockedBy.unlock (fun c hc => le_trans (hcs c hc) hle) hmsg rfl
  · -- otherwise the lock is an old one, kept or withdrawn, or a fresh one
    have hm := step_lockMove hs h id
    rw [hl'] at hm
    refine UnlockedBy.append ?_ hmsg
    generalize hl : s.locks.lookup id = o at hm
    cases hm with
    | keep => exact hub id lock' hl
    | create blocks coin _ _ _ _ =>
        refine ⟨fun hne => absurd rfl hne, fun c hc hmsg' => ?_⟩
        obtain ⟨lock, hl''⟩ := hex c hc id hmsg'
        rw [hl] at hl''
        cases hl''
    | unlock _ hmsg' _ _ => exact absurd hmsg' hmsg
    | withdraw lock _ _ => exact hub id lock hl

/-- What a committed step does to the history of unlocks. -/
theorem unlockHistory_step {cs : List (Commit State Tx CosmosMsg)} {t : ℕ} {s s' : State}
    {tx : Tx} {ms : List CosmosMsg} (H : UnlockHistory cs t s) (hle : t ≤ tx.env.block.height)
    (h : step s tx = .ok (s', ms)) :
    UnlockHistory (cs ++ [⟨s, tx, s', ms⟩]) tx.env.block.height s' := by
  have hub := fun id lock' (hl' : s'.locks.lookup id = some lock') => unlockedBy_step H hle h hl'
  obtain ⟨hs, hcs, hex, -⟩ := H
  refine ⟨step_idsBelow hs h, fun c hc => ?_, fun c hc id hmsg => ?_, hub⟩
  · -- the commits stay no later than the current height
    rcases List.mem_append.mp hc with hc | hc
    · exact le_trans (hcs c hc) hle
    · rw [List.mem_singleton] at hc
      subst hc
      exact le_rfl
  · -- an unlock found its lock, and stored locks stay stored
    rcases List.mem_append.mp hc with hc | hc
    · obtain ⟨lock, hl⟩ := hex c hc id hmsg
      have hm := step_lockMove hs h id
      rw [hl] at hm
      obtain ⟨lock', hl', -⟩ := hm.rank_le
      exact ⟨lock', hl'⟩
    · rw [List.mem_singleton] at hc
      subst hc
      obtain ⟨lock, -, -, -, hl'⟩ := step_initiateUnlock_eq_ok h hmsg
      exact ⟨_, hl'⟩

theorem unlockHistory_instantiate : UnlockHistory [] 0 instantiate :=
  ⟨idsBelow_instantiate, by simp, by simp, fun id lock h => by simp [instantiate] at h⟩

/-- A withdrawal comes after an unlock of its lock, and at least the
lock's duration after every unlock of it. -/
theorem trace_withdraw_after_unlock (txs : List Tx)
    (hchain : List.IsChain (· ≤ ·) (txs.map (·.env.block.height)))
    {pre post : List (Commit State Tx CosmosMsg)} {c : Commit State Tx CosmosMsg}
    (htr : trace step instantiate txs = pre ++ c :: post) {id : ℕ} {lock : Lock}
    (hmsg : c.tx.msg = .withdrawFunds id) (hl : c.pre.locks.lookup id = some lock) :
    (∃ c' ∈ pre, c'.tx.msg = .initiateUnlock id)
      ∧ ∀ c' ∈ pre, c'.tx.msg = .initiateUnlock id →
        c'.tx.env.block.height + lock.durationBlocks ≤ c.tx.env.block.height := by
  have h0 : List.IsChain (· ≤ ·) (0 :: txs.map (·.env.block.height)) :=
    hchain.cons fun y _ => Nat.zero_le y
  have hH := trace_invariant_timed (fun tx : Tx => tx.env.block.height) UnlockHistory
    (fun cs t t' s hle ⟨hs, hcs, hex, hub⟩ => ⟨hs, fun c hc => le_trans (hcs c hc) hle, hex, hub⟩)
    (fun _ _ _ _ _ _ hle H h => unlockHistory_step H hle h) [] txs h0 unlockHistory_instantiate
    pre c post htr
  rw [List.nil_append] at hH
  obtain ⟨hend, hle⟩ := hH.2.2.2 id lock hl
  -- the withdrawal found the lock matured: its end block is set and reached
  have hc : c ∈ trace step instantiate txs := by
    rw [htr]
    exact List.mem_append_right _ List.mem_cons_self
  have hst := step_withdrawFunds_matured (exec_of_mem_trace hc) hmsg hl
  obtain ⟨-, hne, hreach⟩ := Lock.state_eq_matured.mp hst
  exact ⟨hend hne, fun c' hc' hm => le_trans (hle c' hc' hm) hreach⟩

-- ============================================================== books

/-- What a list of coins holds of `denom`. -/
def coinsOf (denom : String) (coins : List Coin) : ℕ :=
  ((coins.filter fun coin => coin.denom = denom).map Coin.amount).sum

/-- What a lock holds of `denom`: its coin, until it is withdrawn. -/
def Lock.lockedOf (denom : String) (lock : Lock) : ℕ :=
  if lock.coin.denom = denom ∧ lock.fundsWithdrawn = false then lock.coin.amount else 0

/-- What the stored locks hold of `denom`. -/
def lockedOf (denom : String) (s : State) : ℕ :=
  Store.sumBy (fun _ lock => lock.lockedOf denom) s.locks

/-- What a transaction brings in of `denom` to be locked: the coins sent
with `Lock`. -/
def Tx.receivedOf (denom : String) (tx : Tx) : ℕ :=
  match tx.msg with
  | .lock _ => coinsOf denom tx.info.funds
  | _ => 0

/-- What a message sends of `denom`. -/
def sentOf (denom : String) : CosmosMsg → ℕ
  | .bank (.send _ amount) => coinsOf denom amount
  | _ => 0

/-- What a list of messages sends of `denom`. -/
def sentTotalOf (denom : String) (msgs : List CosmosMsg) : ℕ :=
  (msgs.map (sentOf denom)).sum

theorem coinsOf_cons (denom : String) (coin : Coin) (coins : List Coin) :
    coinsOf denom (coin :: coins)
      = (if coin.denom = denom then coin.amount else 0) + coinsOf denom coins := by
  by_cases h : coin.denom = denom <;> simp [coinsOf, h]

/-- `Lock`'s loop locks exactly the coins sent. -/
theorem lockCoins_lockedOf {owner : String} {blocks height : ℕ} (denom : String) :
    ∀ {coins : List Coin} {s s' : State}, IdsBelow s →
      lockCoins owner blocks height s coins = .ok s' →
      lockedOf denom s' = lockedOf denom s + coinsOf denom coins
  | [], s, s', _, h => by
      simp only [lockCoins, Except.ok.injEq] at h
      subst h
      simp [coinsOf]
  | coin :: rest, s, s', hs, h => by
      simp only [lockCoins, ite_throw_eq_ok, bind_eq_ok, mapError_eq_ok, addU64_eq_ok] at h
      obtain ⟨_, _, ⟨-, rfl⟩, h⟩ := h
      have ih := lockCoins_lockedOf denom (hs.save_next _) h
      -- the fresh lock holds the coin, under an id that held nothing
      have hsave := Store.sumBy_insert_add (fun _ lock => lock.lockedOf denom) s.locks
        (s.locksId + 1) ⟨s.locksId + 1, coin, owner, blocks, height,
          notUnlockingBlockIdentifier, false⟩
      have hfresh : Lock.lockedOf denom ⟨s.locksId + 1, coin, owner, blocks, height,
          notUnlockingBlockIdentifier, false⟩ = if coin.denom = denom then coin.amount else 0 := by
        simp [Lock.lockedOf]
      rw [Store.part_of_lookup_none _ hs.lookup_succ, hfresh] at hsave
      simp only [lockedOf] at ih ⊢
      rw [ih, coinsOf_cons]
      omega

/-- One committed step's books: what the locks hold plus what is sent
moves by what `Lock` received. -/
theorem step_books {s s' : State} {tx : Tx} {ms : List CosmosMsg} (hs : IdsBelow s)
    (h : step s tx = .ok (s', ms)) (denom : String) :
    lockedOf denom s' + sentTotalOf denom ms = lockedOf denom s + tx.receivedOf denom := by
  cases hmsg : tx.msg with
  | lock blocks =>
      rw [step, hmsg] at h
      obtain ⟨-, rfl, hloop⟩ := executeLock_loop h
      rw [lockCoins_lockedOf denom hs hloop]
      simp [sentTotalOf, Tx.receivedOf, hmsg]
  | initiateUnlock id =>
      rw [step, hmsg] at h
      obtain ⟨lock, hl, -, -, rfl, rfl⟩ := executeInitiateUnlock_eq_ok h
      -- the saved lock holds what it held
      have hsave := Store.sumBy_insert_add (fun _ lock => lock.lockedOf denom) s.locks id
        { lock with endBlock := tx.env.block.height + lock.durationBlocks }
      have hsame : Lock.lockedOf denom
          { lock with endBlock := tx.env.block.height + lock.durationBlocks }
            = lock.lockedOf denom := rfl
      rw [Store.part_of_lookup_some _ hl, hsame] at hsave
      simp only [lockedOf, sentTotalOf, Tx.receivedOf, hmsg, List.map_nil, List.sum_nil]
      omega
  | withdrawFunds id =>
      rw [step, hmsg] at h
      obtain ⟨lock, hl, hst, rfl, rfl⟩ := executeWithdrawFunds_eq_ok h
      have hw : lock.fundsWithdrawn = false := (Lock.state_eq_matured.mp hst).1
      -- the withdrawn lock holds nothing, and what it held is what is sent
      have hsave := Store.sumBy_insert_add (fun _ lock => lock.lockedOf denom) s.locks id
        { lock with fundsWithdrawn := true }
      rw [Store.part_of_lookup_some _ hl] at hsave
      have hsent : sentTotalOf denom [.bank (.send lock.owner [lock.coin])]
          = lock.lockedOf denom := by
        by_cases hd : lock.coin.denom = denom <;>
          simp [sentTotalOf, sentOf, coinsOf, Lock.lockedOf, hd, hw]
      have hnone : Lock.lockedOf denom { lock with fundsWithdrawn := true } = 0 := by
        simp [Lock.lockedOf]
      rw [hnone] at hsave
      simp only [lockedOf, Tx.receivedOf, hmsg, hsent]
      omega

/-- The books of a run: per denom, what the unwithdrawn locks hold plus
everything sent equals everything `Lock` received. -/
theorem run_books (txs : List Tx) (denom : String) :
    lockedOf denom (run step instantiate txs).1
        + ((run step instantiate txs).2.map fun c => sentTotalOf denom c.2).sum
      = ((run step instantiate txs).2.map fun c => c.1.receivedOf denom).sum := by
  have := run_balance IdsBelow (lockedOf denom) (Tx.receivedOf denom) (sentTotalOf denom)
    (fun _ _ _ _ hs h => ⟨step_idsBelow hs h, step_books hs h denom⟩) txs idsBelow_instantiate
  simpa [lockedOf, instantiate, Store.sumBy] using this

-- ============================================================== the laws

/-- The lockup's laws over a run of `txs` from `instantiate`. -/
def LockupLaws (txs : List Tx) : Prop :=
  -- the only messages send a matured lock's coin to its owner
  (∀ c ∈ trace step instantiate txs, c.msgs = [] ∨ ∃ id lock, c.tx.msg = .withdrawFunds id
      ∧ c.pre.locks.lookup id = some lock ∧ lock.state c.tx.env.block.height = .matured
      ∧ c.msgs = [.bank (.send lock.owner [lock.coin])])
  -- each lock is withdrawn at most once
  ∧ (∀ id, (run step instantiate txs).2.countP
      (fun c => decide (c.1.msg = .withdrawFunds id)) ≤ 1)
  -- a lock's coin and owner never change
  ∧ (∀ c ∈ trace step instantiate txs, ∀ id lock lock', c.pre.locks.lookup id = some lock →
      c.post.locks.lookup id = some lock' → lock'.coin = lock.coin ∧ lock'.owner = lock.owner)
  -- a lock's state never moves back
  ∧ (∀ id, List.IsChain (· ≤ ·) ((trace step instantiate txs).filterMap fun c =>
      (c.post.locks.lookup id).map fun lock => (lock.state c.tx.env.block.height).rank))
  -- a withdrawal comes at least the duration after the unlock
  ∧ (∀ pre c post, trace step instantiate txs = pre ++ c :: post → ∀ id lock,
      c.tx.msg = .withdrawFunds id → c.pre.locks.lookup id = some lock →
      (∃ c' ∈ pre, c'.tx.msg = .initiateUnlock id)
        ∧ ∀ c' ∈ pre, c'.tx.msg = .initiateUnlock id →
          c'.tx.env.block.height + lock.durationBlocks ≤ c.tx.env.block.height)
  -- the books, per denom
  ∧ (∀ denom, lockedOf denom (run step instantiate txs).1
        + ((run step instantiate txs).2.map fun c => sentTotalOf denom c.2).sum
      = ((run step instantiate txs).2.map fun c => c.1.receivedOf denom).sum)

theorem lockup_run_laws (txs : List Tx)
    (hchain : List.IsChain (· ≤ ·) (txs.map (·.env.block.height))) : LockupLaws txs :=
  ⟨fun _ hc => trace_msgs hc,
    run_withdrawFunds_le_one txs hchain,
    fun _ hc _ _ _ hl hl' => trace_lock_frame hc hl hl',
    trace_lockRank_isChain txs hchain,
    fun _ _ _ htr _ _ hmsg hl => trace_withdraw_after_unlock txs hchain htr hmsg hl,
    run_books txs⟩

-- ====================================================== the runs

/-- Alice locks 100 unibi for 10 blocks at height 1. -/
def aliceLocks : Tx := ⟨⟨⟨1, 0⟩, "lockup"⟩, ⟨"alice", [⟨"unibi", 100⟩]⟩, .lock 10⟩

/-- Alice starts the unlock of lock 1 at height 2. -/
def aliceUnlocks : Tx := ⟨⟨⟨2, 0⟩, "lockup"⟩, ⟨"alice", []⟩, .initiateUnlock 1⟩

/-- Alice withdraws lock 1 at height 12. -/
def aliceWithdraws : Tx := ⟨⟨⟨12, 0⟩, "lockup"⟩, ⟨"alice", []⟩, .withdrawFunds 1⟩

theorem lockup_run_laws_alice :
    List.IsChain (· ≤ ·) ([aliceLocks, aliceUnlocks, aliceWithdraws].map (·.env.block.height))
      ∧ LockupLaws [aliceLocks, aliceUnlocks, aliceWithdraws] :=
  ⟨by decide, lockup_run_laws _ (by decide)⟩

/-- Mallory starts the unlock of lock 1 at height 2. -/
def malloryUnlocks : Tx := ⟨⟨⟨2, 0⟩, "lockup"⟩, ⟨"mallory", []⟩, .initiateUnlock 1⟩

/-- Mallory withdraws lock 1 at height 12. -/
def malloryWithdraws : Tx := ⟨⟨⟨12, 0⟩, "lockup"⟩, ⟨"mallory", []⟩, .withdrawFunds 1⟩

/-- Mallory, who does not own lock 1, moves it twice: the unlock sets its
end block and the withdrawal marks it withdrawn and pays alice. -/
theorem third_party_moves_lock :
    (run step instantiate [aliceLocks]).1.locks.lookup 1
        = some ⟨1, ⟨"unibi", 100⟩, "alice", 10, 1, notUnlockingBlockIdentifier, false⟩
      ∧ malloryUnlocks.info.sender ≠ "alice"
      ∧ (run step instantiate [aliceLocks, malloryUnlocks]).1.locks.lookup 1
        = some ⟨1, ⟨"unibi", 100⟩, "alice", 10, 1, 12, false⟩
      ∧ (run step instantiate [aliceLocks, malloryUnlocks, malloryWithdraws]).1.locks.lookup 1
        = some ⟨1, ⟨"unibi", 100⟩, "alice", 10, 1, 12, true⟩
      ∧ (run step instantiate [aliceLocks, malloryUnlocks, malloryWithdraws]).2
        = [(aliceLocks, []), (malloryUnlocks, []),
            (malloryWithdraws, [.bank (.send "alice" [⟨"unibi", 100⟩])])] :=
  ⟨by decide, by decide, by decide, by decide, rfl⟩

-- ========================================================= stuck locks

/-- A lock of duration `u64::MAX` that has not started unlocking stays as
it is in every run at positive heights: its unlock overflows, so it never
matures, and neither an unlock nor a withdrawal of it commits. -/
theorem stuck_of_maxDuration {s : State} {id : ℕ} {lock : Lock} (hs : IdsBelow s)
    (hl : s.locks.lookup id = some lock) (hd : lock.durationBlocks = Uint64.MAX)
    (he : lock.endBlock = notUnlockingBlockIdentifier) (hw : lock.fundsWithdrawn = false)
    (txs : List Tx) (hchain : List.IsChain (· ≤ ·) (1 :: txs.map (·.env.block.height))) :
    (run step s txs).1.locks.lookup id = some lock
      ∧ ∀ c ∈ trace step s txs, c.tx.msg ≠ .initiateUnlock id ∧ c.tx.msg ≠ .withdrawFunds id := by
  -- the lock is not unlocking at any height
  have hst : ∀ h, lock.state h = .fundedPreUnlock := fun h => by simp [Lock.state, hw, he]
  let P : ℕ → State → Prop := fun t s => 1 ≤ t ∧ IdsBelow s ∧ s.locks.lookup id = some lock
  -- from such a state, at a positive height, no unlock and no withdrawal of the lock commits
  have hmsgs : ∀ t s tx s' ms, t ≤ tx.env.block.height → P t s → step s tx = .ok (s', ms) →
      tx.msg ≠ .initiateUnlock id ∧ tx.msg ≠ .withdrawFunds id := by
    rintro t s tx s' ms hle ⟨ht, -, hl⟩ h
    refine ⟨fun hmsg => ?_, fun hmsg => ?_⟩
    · have hfit := (step_initiateUnlock_fits h hmsg hl).2
      rw [hd] at hfit
      omega
    · have hmat := step_withdrawFunds_matured h hmsg hl
      rw [hst] at hmat
      cases hmat
  have hstep : ∀ t s tx s' ms, t ≤ tx.env.block.height → P t s → step s tx = .ok (s', ms) →
      P tx.env.block.height s' := by
    intro t s tx s' ms hle hP h
    obtain ⟨hunl, hwd⟩ := hmsgs t s tx s' ms hle hP h
    obtain ⟨ht, hs, hl⟩ := hP
    refine ⟨le_trans ht hle, step_idsBelow hs h, ?_⟩
    have hm := step_lockMove hs h id
    rw [hl] at hm
    generalize ho : s'.locks.lookup id = o at hm
    cases hm with
    | keep => rfl
    | unlock _ hmsg _ _ => exact absurd hmsg hunl
    | withdraw _ hmsg _ => exact absurd hmsg hwd
  have hwait : ∀ t t' s, t ≤ t' → P t s → P t' s :=
    fun t t' s hle ⟨ht, hs, hl⟩ => ⟨le_trans ht hle, hs, hl⟩
  have hP : P 1 s := ⟨le_rfl, hs, hl⟩
  refine ⟨(run_invariant_timed _ P hwait hstep txs hchain hP).2.2, fun c hc => ?_⟩
  have hc' := pre_of_mem_trace_timed (fun tx : Tx => tx.env.block.height) P hwait hstep hchain hP hc
  exact hmsgs _ _ _ _ _ le_rfl hc' (exec_of_mem_trace hc)

/-- Alice locks 100 unibi for `u64::MAX` blocks at height 1. -/
def maxLocks : Tx := ⟨⟨⟨1, 0⟩, "lockup"⟩, ⟨"alice", [⟨"unibi", 100⟩]⟩, .lock Uint64.MAX⟩

/-- The lock `maxLocks` saves. -/
def maxLock : Lock :=
  ⟨1, ⟨"unibi", 100⟩, "alice", Uint64.MAX, 1, notUnlockingBlockIdentifier, false⟩

/-- Alice locks 100 unibi for `u64::MAX - 2` blocks at height 1. -/
def sentinelLocks : Tx :=
  ⟨⟨⟨1, 0⟩, "lockup"⟩, ⟨"alice", [⟨"unibi", 100⟩]⟩, .lock (Uint64.MAX - 2)⟩

/-- Alice starts the unlock of lock 1 at height 2, where the end block
would be `u64::MAX`. -/
def sentinelUnlocks : Tx := ⟨⟨⟨2, 0⟩, "lockup"⟩, ⟨"alice", []⟩, .initiateUnlock 1⟩

/-- The lock `maxLocks` saves can never be unlocked or withdrawn in any
later run at non-decreasing heights; and the lock `sentinelLocks` saves is
unlocked at height 2 with the sentinel as end block, so it is still not
unlocking. -/
theorem maxDuration_lock_stuck (txs : List Tx)
    (hchain : List.IsChain (· ≤ ·) (1 :: txs.map (·.env.block.height))) :
    (run step instantiate [maxLocks]).1.locks.lookup 1 = some maxLock
      ∧ (run step (run step instantiate [maxLocks]).1 txs).1.locks.lookup 1 = some maxLock
      ∧ (∀ c ∈ trace step (run step instantiate [maxLocks]).1 txs,
          c.tx.msg ≠ .initiateUnlock 1 ∧ c.tx.msg ≠ .withdrawFunds 1)
      ∧ (run step instantiate [sentinelLocks, sentinelUnlocks]).2.length = 2
      ∧ ((run step instantiate [sentinelLocks, sentinelUnlocks]).1.locks.lookup 1).map
          (·.state 2) = some .fundedPreUnlock := by
  have hl : (run step instantiate [maxLocks]).1.locks.lookup 1 = some maxLock := by decide
  have hs : IdsBelow (run step instantiate [maxLocks]).1 :=
    run_invariant IdsBelow (fun _ _ _ _ hs h => step_idsBelow hs h) _ idsBelow_instantiate
  obtain ⟨hrun, htrace⟩ := stuck_of_maxDuration hs hl rfl rfl rfl txs hchain
  exact ⟨hl, hrun, htrace, by decide, by decide⟩

/-- Alice's unlock at height 2 and withdrawal at height 12 leave the lock
`maxLocks` saved as it was. -/
theorem maxDuration_lock_stuck_later :
    List.IsChain (· ≤ ·) (1 :: [aliceUnlocks, aliceWithdraws].map (·.env.block.height))
      ∧ (run step (run step instantiate [maxLocks]).1 [aliceUnlocks, aliceWithdraws]).1.locks.lookup 1
        = some maxLock :=
  ⟨by decide, (maxDuration_lock_stuck _ (by decide)).2.1⟩

end NibiruWasm.Lockup
