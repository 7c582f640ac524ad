/-
The life of a proposal, as both multisigs run it.

A proposal is saved under the next id and is then moved only by votes,
an execution or a close. `Lifecycle` is that state machine over the
proposal count and the proposals: what one committed handler of either
multisig may do to them, labelled with the proposal it settled, if any.
Each contract shows that its handlers are moves of this machine
(`step_lifecycle`), so what is proved here holds of both.

# Final proposals

A proposal is final at a block when it is `Executed`, or `Rejected` with
its expiration reached. Under `CurrentStatusSpec`:

- `Lifecycle.frozen`: no move at that block touches a final proposal or
  settles it again;
- `Lifecycle.settles`: a move that settles a proposal leaves it final.

Under `IsExpiredSpec` a final proposal stays final at every later block
(`Final.later`). `run_countP_le_one` turns the three into "each proposal
is settled at most once per run at non-decreasing blocks"
(`run_settled_le_one`), and `run_invariant` turns the first into "an
executed proposal never changes again" (`run_executed_stays`).
-/
import NibiruWasm.Cw3.Types
import NibiruWasm.Chain.Run
import NibiruWasm.Chain.Store

namespace NibiruWasm.Cw3

open Cosmwasm Chain

variable {Exp Dur Thr Dep : Type} (L : Cw3Lib Exp Dur Thr Dep)

/-- What one committed handler did to `PROPOSAL_COUNT` and `PROPOSALS`
at `block`, labelled with the proposal it settled. -/
inductive Lifecycle (block : BlockInfo) :
    ℕ × Store ℕ (Proposal Exp Thr Dep) → Option ℕ → ℕ × Store ℕ (Proposal Exp Thr Dep) → Prop
  /-- `Propose`: a proposal under the next id. -/
  | propose (count : ℕ) (props : Store ℕ (Proposal Exp Thr Dep)) (pr : Proposal Exp Thr Dep) :
      Lifecycle block (count, props) none (count + 1, props.insert (count + 1) pr)
  /-- `Vote`: new votes and status for a proposal that is open, passed or
  rejected and has not expired; its expiration stays. -/
  | vote (count : ℕ) (props : Store ℕ (Proposal Exp Thr Dep)) (p : ℕ)
      (pr pr' : Proposal Exp Thr Dep) :
      props.lookup p = some pr → pr.status ∈ [Status.open, .passed, .rejected] →
      L.isExpired pr.expires block = false → pr'.expires = pr.expires →
      Lifecycle block (count, props) none (count, props.insert p pr')
  /-- `Execute`: a proposal whose current status is `Passed` becomes
  `Executed`. -/
  | execute (count : ℕ) (props : Store ℕ (Proposal Exp Thr Dep)) (p : ℕ)
      (pr : Proposal Exp Thr Dep) :
      props.lookup p = some pr → L.currentStatus pr block = .passed →
      Lifecycle block (count, props) (some p)
        (count, props.insert p { pr with status := .executed })
  /-- `Close`: a proposal that is neither executed, rejected nor passed
  and has expired becomes `Rejected`. -/
  | close (count : ℕ) (props : Store ℕ (Proposal Exp Thr Dep)) (p : ℕ)
      (pr : Proposal Exp Thr Dep) :
      props.lookup p = some pr → pr.status ∉ [Status.executed, .rejected, .passed] →
      L.isExpired pr.expires block = true →
      Lifecycle block (count, props) (some p)
        (count, props.insert p { pr with status := .rejected })
  /-- A handler that leaves the proposals alone. -/
  | idle (c : ℕ × Store ℕ (Proposal Exp Thr Dep)) : Lifecycle block c none c

-- ===================================================== stored ids

/-- Every stored proposal id is at most the count: the next id is free. -/
def IdsBelow (c : ℕ × Store ℕ (Proposal Exp Thr Dep)) : Prop :=
  ∀ p pr, c.2.lookup p = some pr → p ≤ c.1

theorem idsBelow_empty : IdsBelow ((0, ∅) : ℕ × Store ℕ (Proposal Exp Thr Dep)) := by
  intro p pr h
  simp at h

/-- Overwriting a stored proposal keeps the ids below the count. -/
theorem IdsBelow.insert_of_lookup {count : ℕ} {props : Store ℕ (Proposal Exp Thr Dep)}
    {p : ℕ} {pr pr' : Proposal Exp Thr Dep} (hc : IdsBelow (count, props))
    (hp : props.lookup p = some pr) : IdsBelow (count, props.insert p pr') := by
  intro q qr hq
  rcases Store.lookup_insert_cases hq with ⟨rfl, -⟩ | ⟨-, hq⟩
  · exact hc q pr hp
  · exact hc q qr hq

theorem Lifecycle.idsBelow {block : BlockInfo} {c c' : ℕ × Store ℕ (Proposal Exp Thr Dep)}
    {lbl : Option ℕ} (h : Lifecycle L block c lbl c') (hc : IdsBelow c) : IdsBelow c' := by
  cases h with
  | propose count props pr =>
      intro q qr hq
      rcases Store.lookup_insert_cases hq with ⟨rfl, -⟩ | ⟨-, hq⟩
      · exact le_rfl
      · exact Nat.le_succ_of_le (hc q qr hq)
  | vote count props p pr pr' hp _ _ _ => exact hc.insert_of_lookup hp
  | execute count props p pr hp _ => exact hc.insert_of_lookup hp
  | close count props p pr hp _ _ => exact hc.insert_of_lookup hp
  | idle => exact hc

/-- The stored proposal ids are exactly `1` to the count: the ids are
handed out one after the other and no proposal is ever removed. -/
def IdsExact (c : ℕ × Store ℕ (Proposal Exp Thr Dep)) : Prop :=
  ∀ p, (c.2.lookup p).isSome ↔ 1 ≤ p ∧ p ≤ c.1

theorem idsExact_empty : IdsExact ((0, ∅) : ℕ × Store ℕ (Proposal Exp Thr Dep)) := by
  intro p
  simp only [AList.lookup_empty, Option.isSome_none, Bool.false_eq_true, false_iff]
  omega

/-- Overwriting a stored proposal keeps the stored ids. -/
theorem IdsExact.insert_of_lookup {count : ℕ} {props : Store ℕ (Proposal Exp Thr Dep)}
    {p : ℕ} {pr pr' : Proposal Exp Thr Dep} (hc : IdsExact (count, props))
    (hp : props.lookup p = some pr) : IdsExact (count, props.insert p pr') := by
  intro q
  by_cases hq : q = p
  · subst hq
    simp only [AList.lookup_insert, Option.isSome_some, true_iff]
    exact (hc q).mp (by rw [hp]; rfl)
  · rw [AList.lookup_insert_ne hq]
    exact hc q

theorem Lifecycle.idsExact {block : BlockInfo} {c c' : ℕ × Store ℕ (Proposal Exp Thr Dep)}
    {lbl : Option ℕ} (h : Lifecycle L block c lbl c') (hc : IdsExact c) : IdsExact c' := by
  cases h with
  | propose count props pr =>
      -- the new id is one past the count
      intro q
      by_cases hq : q = count + 1
      · subst hq
        simp only [AList.lookup_insert, Option.isSome_some, true_iff]
        omega
      · rw [AList.lookup_insert_ne hq]
        have hold := hc q
        simp only at hold ⊢
        rw [hold]
        omega
  | vote count props p pr pr' hp _ _ _ => exact hc.insert_of_lookup hp
  | execute count props p pr hp _ => exact hc.insert_of_lookup hp
  | close count props p pr hp _ _ => exact hc.insert_of_lookup hp
  | idle => exact hc

-- ================================================= final proposals

/-- A proposal no move at block `t` can change: executed, or rejected
with its expiration reached. -/
def Final (t : BlockInfo) (pr : Proposal Exp Thr Dep) : Prop :=
  pr.status = .executed ∨ (pr.status = .rejected ∧ L.isExpired pr.expires t = true)

/-- Proposal `p` is stored and final at block `t`. -/
def Settled (t : BlockInfo) (c : ℕ × Store ℕ (Proposal Exp Thr Dep)) (p : ℕ) : Prop :=
  ∃ pr, c.2.lookup p = some pr ∧ Final L t pr

variable {L}

theorem Final.later (hE : IsExpiredSpec L) {t t' : BlockInfo} (ht : t ≤ t')
    {pr : Proposal Exp Thr Dep} (hf : Final L t pr) : Final L t' pr := by
  rcases hf with hx | ⟨hr, hexp⟩
  · exact .inl hx
  · exact .inr ⟨hr, hE _ t t' ht hexp⟩

theorem Final.status_ne_open {t : BlockInfo} {pr : Proposal Exp Thr Dep} (hf : Final L t pr) :
    pr.status ≠ .open := by
  rcases hf with hx | ⟨hr, -⟩ <;> simp [*]

/-- A final proposal cannot be voted on. -/
theorem Final.not_votable {t : BlockInfo} {pr : Proposal Exp Thr Dep} (hf : Final L t pr)
    (hst : pr.status ∈ [Status.open, .passed, .rejected]) :
    L.isExpired pr.expires t = true := by
  rcases hf with hx | ⟨-, hexp⟩
  · simp [hx] at hst
  · exact hexp

/-- A final proposal's current status is its stored one, not `Passed`. -/
theorem Final.currentStatus_ne_passed (hS : CurrentStatusSpec L) {t : BlockInfo}
    {pr : Proposal Exp Thr Dep} (hf : Final L t pr) : L.currentStatus pr t ≠ .passed := by
  rw [hS pr t hf.status_ne_open]
  rcases hf with hx | ⟨hr, -⟩ <;> simp [*]

/-- A final proposal cannot be closed. -/
theorem Final.not_closable {t : BlockInfo} {pr : Proposal Exp Thr Dep} (hf : Final L t pr) :
    pr.status ∈ [Status.executed, .rejected, .passed] := by
  rcases hf with hx | ⟨hr, -⟩ <;> simp [*]

section moves

variable (hS : CurrentStatusSpec L) {block : BlockInfo}
  {c c' : ℕ × Store ℕ (Proposal Exp Thr Dep)} {lbl : Option ℕ} {p : ℕ}
  {pr : Proposal Exp Thr Dep}

include hS in
/-- No move touches a proposal that is final at the move's block, or
settles it. -/
theorem Lifecycle.frozen (h : Lifecycle L block c lbl c') (hc : IdsBelow c)
    (hp : c.2.lookup p = some pr) (hf : Final L block pr) :
    c'.2.lookup p = some pr ∧ lbl ≠ some p := by
  cases h with
  | propose count props qr =>
      -- the new id is past every stored one
      have hne : p ≠ count + 1 := by
        have := hc p pr hp
        omega
      exact ⟨(AList.lookup_insert_ne hne).trans hp, by simp⟩
  | vote count props q qr qr' hq hst hexp _ =>
      have hne : p ≠ q := by
        rintro rfl
        obtain rfl : pr = qr := Option.some.inj (hp.symm.trans hq)
        rw [hf.not_votable hst] at hexp
        cases hexp
      exact ⟨(AList.lookup_insert_ne hne).trans hp, by simp⟩
  | execute count props q qr hq hpass =>
      have hne : p ≠ q := by
        rintro rfl
        obtain rfl : pr = qr := Option.some.inj (hp.symm.trans hq)
        exact hf.currentStatus_ne_passed hS hpass
      exact ⟨(AList.lookup_insert_ne hne).trans hp, by simpa using hne.symm⟩
  | close count props q qr hq hst _ =>
      have hne : p ≠ q := by
        rintro rfl
        obtain rfl : pr = qr := Option.some.inj (hp.symm.trans hq)
        exact hst hf.not_closable
      exact ⟨(AList.lookup_insert_ne hne).trans hp, by simpa using hne.symm⟩
  | idle => exact ⟨hp, by simp⟩

/-- A move that settles a proposal leaves it final at the move's block. -/
theorem Lifecycle.settles (h : Lifecycle L block c (some p) c') : Settled L block c' p := by
  cases h with
  | execute count props p pr hp _ => exact ⟨_, AList.lookup_insert _, .inl rfl⟩
  | close count props p pr hp _ hexp => exact ⟨_, AList.lookup_insert _, .inr ⟨rfl, hexp⟩⟩

end moves

-- ============================================================ runs

section runs

variable {σ α μ ε : Type} {exec : σ → α → Except ε (σ × List μ)}
  (view : σ → ℕ × Store ℕ (Proposal Exp Thr Dep)) (τ : α → BlockInfo)
  (settled : α → Option ℕ)
  (hlife : ∀ s a s' ms, exec s a = .ok (s', ms) →
    Lifecycle L (τ a) (view s) (settled a) (view s'))

include hlife in
/-- Every state a run reaches keeps the stored ids below the count. -/
theorem run_idsBelow {s : σ} (as : List α) (hs : IdsBelow (view s)) :
    IdsBelow (view (run exec s as).1) :=
  run_invariant (fun s => IdsBelow (view s))
    (fun s a s' ms hs h => (hlife s a s' ms h).idsBelow L hs) as hs

include hlife in
/-- Every state a run reaches stores exactly the ids `1` to the count. -/
theorem run_idsExact {s : σ} (as : List α) (hs : IdsExact (view s)) :
    IdsExact (view (run exec s as).1) :=
  run_invariant (fun s => IdsExact (view s))
    (fun s a s' ms hs h => (hlife s a s' ms h).idsExact L hs) as hs

include hlife in
/-- Each proposal is settled by at most one committed transaction of a
run at non-decreasing blocks. -/
theorem run_settled_le_one (hS : CurrentStatusSpec L) (hE : IsExpiredSpec L) {s : σ}
    (as : List α) (hchain : List.IsChain (· ≤ ·) (as.map τ)) (hs : IdsBelow (view s)) (p : ℕ) :
    (run exec s as).2.countP (fun c => decide (settled c.1 = some p)) ≤ 1 := by
  refine run_countP_le_one τ (fun s => IdsBelow (view s)) (fun t s => Settled L t (view s) p)
    (fun a _ => decide (settled a = some p)) ?_ ?_ ?_ ?_ as hchain hs
  · -- the ids stay below the count
    exact fun s a s' ms hs h => (hlife s a s' ms h).idsBelow L hs
  · -- a settled proposal stays settled while the blocks move on
    rintro t t' s ht ⟨pr, hp, hf⟩
    exact ⟨pr, hp, hf.later hE ht⟩
  · -- settling leaves the proposal final
    intro s a s' ms _ h hev
    have hlbl : settled a = some p := of_decide_eq_true hev
    exact (hlbl ▸ hlife s a s' ms h).settles
  · -- from a final proposal no later move changes it or settles it
    rintro t s a s' ms ht hs ⟨pr, hp, hf⟩ h
    obtain ⟨hp', hne⟩ := (hlife s a s' ms h).frozen hS hs hp (hf.later hE ht)
    exact ⟨⟨pr, hp', hf.later hE ht⟩, decide_eq_false hne⟩

include hlife in
/-- An executed proposal is never changed again, by any run. -/
theorem run_executed_stays (hS : CurrentStatusSpec L) {s : σ} (as : List α)
    (hs : IdsBelow (view s)) {p : ℕ} {pr : Proposal Exp Thr Dep}
    (hp : (view s).2.lookup p = some pr) (hx : pr.status = .executed) :
    (view (run exec s as).1).2.lookup p = some pr := by
  have hrun := run_invariant (fun s => IdsBelow (view s) ∧ (view s).2.lookup p = some pr)
    (fun s a s' ms ⟨hs, hp⟩ h =>
      let hmove := hlife s a s' ms h
      ⟨hmove.idsBelow L hs, (hmove.frozen hS hs hp (.inl hx)).1⟩) as ⟨hs, hp⟩
  exact hrun.2

end runs

end NibiruWasm.Cw3
