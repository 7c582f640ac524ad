/-
Paging through the v1 account query, from every reachable state.

# The invariant

`ClaimedOk t0 storage`: from time `t0` on, every value `vested_amount`
returns for a stored account is at least its claimed amount. Together
with `AccountsOk` (`Conservation`) it holds after every run from the
empty storage at non-decreasing block times, at the time of the last
transaction:

- a registration stores an account with nothing claimed;
- a deregistration only removes;
- a claim stores, as the claimed amount, what vested at its block,
  which every later call of `vested_amount` reaches on a schedule whose
  cliff is bounded (`vestedAmount_mono`).

# What it gives

At such a state, from its last transaction's time on, the query answers
each account with what vested and, as `claimable_amount`, that minus
what was claimed; it never fails on `checked_sub` (`vestingData_eq`).
Every entry is keyed by its own denom's `denom_to_key`, so a client
that passes the denom of the last account it received as the next
`start_after` resumes the scan right after that account: paging through
the query with any limit but `Some(0)` computes every account of the
address exactly once, in the order of their keys' raw bytes, and fails
exactly where computing them all fails, with the first failing
account's error (`reachable_vestingAccount_pages`).
-/
import NibiruWasm.VestingV1.Query
import NibiruWasm.VestingV1.Proofs.Conservation
import NibiruWasm.VestingV1.Proofs.Schedule

namespace NibiruWasm.VestingV1

open Cosmwasm Chain

/-- From time `t0` on, `vested_amount` of a stored account never falls
below its claimed amount. -/
def ClaimedOk (t0 : ℕ) (storage : Accounts) : Prop :=
  ∀ k a, storage.lookup k = some a →
    ∀ t v, t0 ≤ t → a.vestingSchedule.vestedAmount t = .ok v → a.claimedAmount ≤ v

variable {t0 t1 : ℕ} {storage storage' : Accounts} {ms : List CosmosMsg}

theorem ClaimedOk.later (h : t0 ≤ t1) (hs : ClaimedOk t0 storage) : ClaimedOk t1 storage :=
  fun k a ha t v ht hv => hs k a ha t v (le_trans h ht) hv

theorem ClaimedOk.erase {k : String × String} (hs : ClaimedOk t0 storage) :
    ClaimedOk t0 (storage.erase k) :=
  fun k' a ha => hs k' a (Store.lookup_of_lookup_erase ha)

theorem ClaimedOk.insert {k : String × String} {a : VestingAccount} (hs : ClaimedOk t0 storage)
    (ha : ∀ t v, t0 ≤ t → a.vestingSchedule.vestedAmount t = .ok v → a.claimedAmount ≤ v) :
    ClaimedOk t0 (storage.insert k a) := by
  intro k' b hb
  rcases Store.lookup_insert_cases hb with ⟨-, rfl⟩ | ⟨-, hprev⟩
  · exact ha
  · exact hs k' b hprev

-- ================================================ one step at a time

/-- What a committed transaction ran: a registration, through the cw20
hook or with one native coin, a deregistration, or a claim. -/
theorem step_eq_ok_cases {tx : Tx} (h : step storage tx = .ok (storage', ms)) :
    (∃ masterAddress address denom amount vs,
        registerVestingAccount storage tx.env.block.time masterAddress address denom amount vs
          = .ok (storage', ms))
      ∨ (∃ address denom vestedTokenRecipient leftVestingTokenRecipient,
          deregisterVestingAccount storage tx.env tx.info address denom vestedTokenRecipient
            leftVestingTokenRecipient = .ok (storage', ms))
      ∨ ∃ denoms recipient, claim storage tx.env tx.info denoms recipient = .ok (storage', ms) := by
  unfold step at h
  cases hmsg : tx.msg with
  | receive msg =>
      rw [hmsg] at h
      simp only [execute, receiveCw20] at h
      cases hhook : msg.msg with
      | none => rw [hhook] at h; cases h
      | some hook =>
          obtain ⟨masterAddress, address, vs⟩ := hook
          rw [hhook] at h
          exact .inl ⟨_, _, _, _, _, h⟩
  | registerVestingAccount address masterAddress vs =>
      rw [hmsg] at h
      simp only [execute] at h
      -- exactly one coin attached, or the transaction failed
      rcases hfunds : tx.info.funds with _ | ⟨coin, _ | ⟨coin', rest⟩⟩
      · rw [hfunds] at h
        cases h
      · rw [hfunds] at h
        exact .inl ⟨_, _, _, _, _, h⟩
      · rw [hfunds] at h
        cases h
  | deregisterVestingAccount address denom vestedTokenRecipient leftVestingTokenRecipient =>
      rw [hmsg] at h
      exact .inr (.inl ⟨_, _, _, _, h⟩)
  | claim denoms recipient =>
      rw [hmsg] at h
      exact .inr (.inr ⟨_, _, h⟩)

/-- The claim loop at block time `t0` keeps the invariant at `t0`: each
account it pays has now claimed what vested at `t0`. -/
theorem claimLoop_claimedOk {sender recipient : String} :
    ∀ {denoms : List Denom} {storage storage' : Accounts} {messages messages' : List CosmosMsg},
      AccountsOk storage → ClaimedOk t0 storage →
      claimLoop t0 sender recipient storage messages denoms = .ok (storage', messages') →
      ClaimedOk t0 storage' := by
  intro denoms
  induction denoms with
  | nil =>
      intro storage storage' messages messages' _ hc h
      obtain ⟨rfl, -⟩ := Prod.mk.inj (claimLoop_nil_eq_ok h)
      exact hc
  | cons denom rest ih =>
      intro storage storage' messages messages' hs hc h
      obtain ⟨a, v, hl, hv, hcv, ⟨-, hrest⟩ | ⟨-, hrest⟩⟩ := claimLoop_cons_eq_ok h
      · exact ih hs hc hrest
      · have ha := hs _ a hl
        have hs' := (claim_entry_conserves a.vestingDenom recipient messages hs hl hcv
          (ha.vested_le hv)).1
        refine ih hs' ?_ hrest
        split_ifs
        · exact hc.erase
        · exact hc.insert fun t w ht hw =>
            VestingSchedule.vestedAmount_mono ha.cliff_bounded ht hv hw

/-- The invariant half of `step_conserves`. -/
theorem step_accountsOk {tx : Tx} (hs : AccountsOk storage)
    (h : step storage tx = .ok (storage', ms)) : AccountsOk storage' :=
  (step_conserves (d := .native "") hs h).1

/-- The block time of a transaction. -/
def Tx.time (tx : Tx) : ℕ := tx.env.block.time

/-- A committed transaction at a time `t ≥ t0` keeps the invariant at
`t`. -/
theorem step_claimedOk {tx : Tx} (hs : AccountsOk storage) (hc : ClaimedOk t0 storage)
    (ht : t0 ≤ tx.time) (h : step storage tx = .ok (storage', ms)) :
    ClaimedOk tx.time storage' := by
  have hc' := hc.later ht
  rcases step_eq_ok_cases h with ⟨_, _, _, _, _, hreg⟩ | ⟨_, _, _, _, hdereg⟩ | ⟨_, _, hclaim⟩
  · obtain ⟨-, -, rfl, -⟩ := registerVestingAccount_eq_ok.mp hreg
    exact hc'.insert fun _ _ _ _ => Nat.zero_le _
  · obtain ⟨a, v, -, -, -, -, -, rfl, -⟩ := deregisterVestingAccount_eq_ok hdereg
    exact hc'.erase
  · exact claimLoop_claimedOk hs hc' hclaim

/-- Both invariants hold after every run from the empty storage at
non-decreasing block times, `ClaimedOk` at the time of the last
transaction. -/
theorem run_claimedOk {txs : List Tx} (hchain : List.IsChain (· ≤ ·) (txs.map Tx.time)) :
    AccountsOk (run step ∅ txs).1 ∧ ClaimedOk (lastTime Tx.time 0 txs) (run step ∅ txs).1 :=
  run_invariant_timed Tx.time (fun t s => AccountsOk s ∧ ClaimedOk t s)
    (fun _ _ _ h hs => ⟨hs.1, hs.2.later h⟩)
    (fun _ _ _ _ _ ht hs h => ⟨step_accountsOk hs.1 h, step_claimedOk hs.1 hs.2 ht h⟩)
    txs (hchain.cons fun _ _ => Nat.zero_le _)
    ⟨accountsOk_empty, fun k a ha => by simp at ha⟩

-- ===================================================== the answers

/-- What the query owes for an account that has vested `v`: the vested
amount, and what of it is not claimed yet. -/
def VestingAccount.answer (a : VestingAccount) (v : ℕ) : VestingData :=
  ⟨a.masterAddress, a.vestingDenom, a.vestingAmount, v, a.vestingSchedule,
    v - a.claimedAmount⟩

/-- Where the vested amount reaches the claimed amount, an account is
answered as it is owed, and fails only where `vested_amount` does. -/
theorem vestingData_eq {t : ℕ} {a : VestingAccount}
    (ha : ∀ v, a.vestingSchedule.vestedAmount t = .ok v → a.claimedAmount ≤ v) :
    vestingData t a = a.answer <$> a.vestingSchedule.vestedAmount t := by
  unfold vestingData
  cases hv : a.vestingSchedule.vestedAmount t with
  | error e => rfl
  | ok v =>
      rw [ok_bind, checkedSub_of_le (ha v hv), mapError_ok, ok_bind]
      rfl

/-- An answered account names the account's denom. -/
theorem vestingDenom_of_vestingData_eq_ok {t : ℕ} {a : VestingAccount} {d : VestingData}
    (h : vestingData t a = .ok d) : d.vestingDenom = a.vestingDenom := by
  simp only [vestingData, bind_eq_ok, mapError_eq_ok, pure_eq_ok] at h
  obtain ⟨v, -, c, -, rfl⟩ := h
  rfl

/-- The vestings of an answer are the page of accounts after
`minDenom`'s key, each answered. -/
theorem vestingAccount_vestings (env : Env) (address : String) (minDenom : Option Denom)
    (limit : Option ℕ) :
    (vestingAccount storage env address minDenom limit).map (·.vestings)
      = ((Store.range rawKey ((minDenom.map fun d => rawKey (denomToKey d)).map .exclusive)
          none .ascending (storage.under address)).take
          (pageLimit defaultLimit maxLimit limit)).mapM
          fun item => vestingData env.block.time item.2 := by
  unfold vestingAccount
  dsimp only
  cases ((Store.range rawKey ((minDenom.map fun d => rawKey (denomToKey d)).map .exclusive)
      none .ascending (storage.under address)).take (pageLimit defaultLimit maxLimit limit)).mapM
      fun item => vestingData env.block.time item.2 <;> rfl

/-- Under the invariants, an entry under an address is keyed by the
raw bytes of its own denom's key. -/
theorem key_of_mem_rangeAsc (hs : AccountsOk storage) {address : String}
    {lo : Option (Bound (List ℕ))} {e : String × VestingAccount}
    (he : e ∈ Store.rangeAsc rawKey lo none (storage.under address)) :
    e.1 = denomToKey e.2.vestingDenom := by
  have hl := ((Store.mem_rangeAsc rawKey).mp he).1
  rw [Store.lookup_under] at hl
  exact (hs _ _ hl).key_eq

/-- At every state a run from the empty storage reaches at
non-decreasing block times, and at any block from the last
transaction's time on: paging through `VestingAccount` of an address,
each time after the denom of the last account received, with any limit
but `Some(0)`, computes every account of the address exactly once, by
the raw bytes of their keys, each answered with what vested and what of
it is not claimed yet; it fails exactly where computing them all fails,
with the first error. The accounts' denoms come strictly ascending by
the raw bytes of `denom_to_key`, so each denom at most once. -/
theorem reachable_vestingAccount_pages {txs : List Tx}
    (hchain : List.IsChain (· ≤ ·) (txs.map Tx.time)) {env : Env}
    (ht : lastTime Tx.time 0 txs ≤ env.block.time) (address : String) {limit : Option ℕ}
    (hlimit : limit ≠ some 0) {fuel : ℕ} (hfuel : (run step ∅ txs).1.entries.length < fuel) :
    walkM (fun start => (vestingAccount (run step ∅ txs).1 env address start limit).map
        (·.vestings)) (·.vestingDenom) fuel none
      = (Store.rangeAsc rawKey none none ((run step ∅ txs).1.under address)).mapM
          (fun e => e.2.answer <$> e.2.vestingSchedule.vestedAmount env.block.time)
    ∧ ((Store.rangeAsc rawKey none none ((run step ∅ txs).1.under address)).map
        (·.2.vestingDenom)).Pairwise fun d d' => rawKey (denomToKey d) < rawKey (denomToKey d') := by
  obtain ⟨hs, hc⟩ := run_claimedOk hchain
  have hc' := hc.later ht
  -- the scans after a raw key, of which the client's pages are the first `limit` entries
  set rest : Option (List ℕ) → List (String × VestingAccount) := fun raw =>
    Store.range rawKey (raw.map .exclusive) none .ascending ((run step ∅ txs).1.under address)
    with hrest_def
  have hpage : (fun start => (vestingAccount (run step ∅ txs).1 env address start limit).map
      (·.vestings)) = fun start =>
        ((rest (start.map fun d => rawKey (denomToKey d))).take
          (pageLimit defaultLimit maxLimit limit)).mapM
          fun item => vestingData env.block.time item.2 := by
    funext start
    exact vestingAccount_vestings env address start limit
  have hrest : ∀ start i (hi : i < (rest start).length),
      rest (some (rawKey (rest start)[i].1)) = (rest start).drop (i + 1) :=
    fun start _ hi => Store.rangeAsc_after rawKey_injective _ _ hi
  have hkey : ∀ start, ∀ x ∈ rest start, ∀ y, vestingData env.block.time x.2 = .ok y →
      ((fun d => rawKey (denomToKey d)) ∘ (·.vestingDenom)) y = rawKey x.1 := by
    intro start x hx y hy
    rw [Function.comp_apply, vestingDenom_of_vestingData_eq_ok hy,
      key_of_mem_rangeAsc hs hx]
  have hlen : (rest none).length < fuel :=
    lt_of_le_of_lt (Store.length_rangeAsc_le rawKey none none _)
      (lt_of_le_of_lt (Store.length_under_le address _) hfuel)
  -- the scans are given: inferring them from `hrest` would unfold them
  have hwalk := @walkM_eq (List ℕ) StdError (String × VestingAccount) VestingData rest
    (fun e => rawKey e.1) (fun item => vestingData env.block.time item.2)
    ((fun d => rawKey (denomToKey d)) ∘ (·.vestingDenom)) (pageLimit defaultLimit maxLimit limit)
    (pageLimit_pos (by decide) (by decide) hlimit) hrest hkey fuel none hlen
  refine ⟨?_, ?_⟩
  · -- the client passes denoms; the scan compares the raw bytes of their keys
    rw [hpage]
    refine (walkM_comap (fun raw => ((rest raw).take (pageLimit defaultLimit maxLimit limit)).mapM
      fun item => vestingData env.block.time item.2) (·.vestingDenom)
      (fun d => rawKey (denomToKey d)) fuel none).trans ?_
    rw [Option.map_none, hwalk]
    -- each account answered as owed: its vested amount reaches its claim
    refine mapM_congr fun e he => vestingData_eq fun v hv => ?_
    have hl := ((Store.mem_rangeAsc rawKey).mp he).1
    rw [Store.lookup_under] at hl
    exact hc' _ _ hl _ _ le_rfl hv
  · rw [List.pairwise_map]
    refine (Store.rangeAsc_pairwise rawKey_injective none none _).imp_of_mem ?_
    intro e e' he he' hlt
    rwa [← key_of_mem_rangeAsc hs he, ← key_of_mem_rangeAsc hs he']

/-- Two native accounts of alice, of unibi and of uatom, registered by
`master` at second 1, each vesting 100 linearly over seconds 0 to 10. -/
def twoAccountsTxs : List Tx :=
  [⟨⟨⟨1, 1⟩, "vesting"⟩, ⟨"master", [⟨"unibi", 100⟩]⟩,
      .registerVestingAccount "alice" (some "master") (.linearVesting 0 10 100)⟩,
    ⟨⟨⟨1, 1⟩, "vesting"⟩, ⟨"master", [⟨"uatom", 100⟩]⟩,
      .registerVestingAccount "alice" (some "master") (.linearVesting 0 10 100)⟩]

theorem reachable_vestingAccount_pages_twoAccounts :
    List.IsChain (· ≤ ·) (twoAccountsTxs.map Tx.time)
      ∧ lastTime Tx.time 0 twoAccountsTxs ≤ (⟨⟨5, 5⟩, "vesting"⟩ : Env).block.time
      ∧ some 1 ≠ some 0
      ∧ (run step ∅ twoAccountsTxs).1.entries.length < 3
      ∧ walkM (fun start => (vestingAccount (run step ∅ twoAccountsTxs).1 ⟨⟨5, 5⟩, "vesting"⟩
            "alice" start (some 1)).map (·.vestings)) (·.vestingDenom) 3 none
          = (Store.rangeAsc rawKey none none ((run step ∅ twoAccountsTxs).1.under "alice")).mapM
              (fun e => e.2.answer <$> e.2.vestingSchedule.vestedAmount 5)
        ∧ ((Store.rangeAsc rawKey none none ((run step ∅ twoAccountsTxs).1.under "alice")).map
            (·.2.vestingDenom)).Pairwise
              fun d d' => rawKey (denomToKey d) < rawKey (denomToKey d') :=
  ⟨by decide, by decide, by decide, by decide,
    reachable_vestingAccount_pages (by decide) (by decide) "alice" (by decide) (by decide)⟩

-- one account a page: uatom's key comes first, then unibi's, each half vested
example : walkM (fun start => (vestingAccount (run step ∅ twoAccountsTxs).1 ⟨⟨5, 5⟩, "vesting"⟩
      "alice" start (some 1)).map (·.vestings)) (·.vestingDenom) 3 none
    = .ok [⟨some "master", .native "uatom", 100, 50, .linearVesting 0 10 100, 50⟩,
      ⟨some "master", .native "unibi", 100, 50, .linearVesting 0 10 100, 50⟩] := by
  decide

end NibiruWasm.VestingV1
