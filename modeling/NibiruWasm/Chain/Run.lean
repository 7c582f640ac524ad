/-
Transactions and runs of a contract, for any contract.

A contract is driven by its `execute` entry point. A transaction either
commits — a new state, and the messages its response carries — or fails,
and then the chain reverts it whole: every storage write it made and
every message it built are dropped, panics included. `run` folds that
discipline over a list of transactions and records the ones the chain
committed, so a statement about "every sequence of executions" is a
statement about `run` of an arbitrary list.

# The rules

- `run_invariant`: a predicate that holds at the start and that every
  committed step keeps holds after every run. Failed steps keep the
  state, so they need no case.
- `run_invariant_timed`: the same for a predicate indexed by the time of
  the last transaction, over runs at non-decreasing times; a failed step
  only moves the clock.
- `run_observe_foldl`: an observation that each committed step moves
  by its transaction alone is that move folded over the committed
  transactions.
- `run_balance` / `run_balance_le`: a quantity that each committed step
  moves by what it takes in minus what it emits (or by no more than
  that) balances the same way over the whole run.
- `trace`: the committed transactions with the states around them;
  `trace_head_pre` and `trace_pre_succ` say that they follow each other,
  and `pre_of_mem_trace` that an invariant holds before each of them.
- `run_countP_le_one`: an event that lands the state in a class no
  later step leaves, and from which the event cannot recur, is committed
  at most once per run at non-decreasing times; the class may depend on
  the time, as "expired" does.
- `trace_invariant_timed`: a predicate of the committed transactions so
  far, the time and the state holds at every entry of a trace, of the
  entries before it; the rule for "only after an earlier commit that".
  `pre_of_mem_trace_timed` is its case without the history, and
  `trace_invariant` the rule for the whole history at the end of a run.
- `trace_observe_isChain`: an observation of the state that neither
  waiting nor a committed step can lower reads non-decreasing along the
  trace.
-/
import Mathlib

namespace NibiruWasm.Chain

variable {σ α ε μ : Type}

-- ============================================================ runs

/-- Execute transactions in order from `s`: a committed one moves the
state and is recorded with the messages it emitted; a failed one is
reverted and leaves no trace. Returns the final state and the committed
transactions. -/
def run (exec : σ → α → Except ε (σ × List μ)) :
    σ → List α → σ × List (α × List μ)
  | s, [] => (s, [])
  | s, a :: as =>
      match exec s a with
      | .ok (s', ms) => ((run exec s' as).1, (a, ms) :: (run exec s' as).2)
      | .error _ => run exec s as

variable {exec : σ → α → Except ε (σ × List μ)}

@[simp] theorem run_nil (s : σ) : run exec s [] = (s, []) := rfl

theorem run_cons_ok {s s' : σ} {a : α} {ms : List μ} (as : List α)
    (h : exec s a = .ok (s', ms)) :
    run exec s (a :: as)
      = ((run exec s' as).1, (a, ms) :: (run exec s' as).2) := by
  simp only [run, h]

theorem run_cons_error {s : σ} {a : α} {e : ε} (as : List α)
    (h : exec s a = .error e) :
    run exec s (a :: as) = run exec s as := by
  simp only [run, h]

/-- A state from which no transaction commits is never left. -/
theorem run_of_forall_ne_ok {s : σ} (h : ∀ a s' ms, exec s a ≠ .ok (s', ms)) :
    ∀ as : List α, (run exec s as).1 = s
  | [] => rfl
  | a :: as => by
      cases hs : exec s a with
      | error e => rw [run_cons_error _ hs]; exact run_of_forall_ne_ok h as
      | ok r => exact absurd hs (h a r.1 r.2)

/-- Running a concatenation runs the second part from where the first
stopped, and the committed transactions concatenate. -/
theorem run_append (s : σ) (as bs : List α) :
    run exec s (as ++ bs)
      = ((run exec (run exec s as).1 bs).1,
          (run exec s as).2 ++ (run exec (run exec s as).1 bs).2) := by
  induction as generalizing s with
  | nil => rfl
  | cons a as ih =>
      cases h : exec s a with
      | error e =>
          rw [List.cons_append, run_cons_error _ h, run_cons_error _ h, ih]
      | ok r =>
          obtain ⟨s', ms⟩ := r
          rw [List.cons_append, run_cons_ok _ h, run_cons_ok _ h, ih]
          rfl

-- ========================================================== traces

/-- A committed transaction: the state it started from, the transaction,
the state it left and the messages it emitted. -/
structure Commit (σ α μ : Type) where
  pre : σ
  tx : α
  post : σ
  msgs : List μ

/-- The committed transactions of a run, in order, each with the states
around it. -/
def trace (exec : σ → α → Except ε (σ × List μ)) : σ → List α → List (Commit σ α μ)
  | _, [] => []
  | s, a :: as =>
      match exec s a with
      | .ok (s', ms) => ⟨s, a, s', ms⟩ :: trace exec s' as
      | .error _ => trace exec s as

theorem trace_cons_ok {s s' : σ} {a : α} {ms : List μ} (as : List α)
    (h : exec s a = .ok (s', ms)) :
    trace exec s (a :: as) = ⟨s, a, s', ms⟩ :: trace exec s' as := by
  simp only [trace, h]

theorem trace_cons_error {s : σ} {a : α} {e : ε} (as : List α)
    (h : exec s a = .error e) : trace exec s (a :: as) = trace exec s as := by
  simp only [trace, h]

/-- Every entry of a trace is a committed step. -/
theorem exec_of_mem_trace :
    ∀ {s : σ} {as : List α} {c : Commit σ α μ}, c ∈ trace exec s as →
      exec c.pre c.tx = .ok (c.post, c.msgs)
  | _, [], _, h => by simp [trace] at h
  | s, a :: as, c, h => by
      cases hs : exec s a with
      | error e =>
          rw [trace_cons_error _ hs] at h
          exact exec_of_mem_trace h
      | ok r =>
          obtain ⟨s', ms⟩ := r
          rw [trace_cons_ok _ hs, List.mem_cons] at h
          rcases h with rfl | h
          · exact hs
          · exact exec_of_mem_trace h

/-- An invariant of the states holds at the start of every entry of a
trace. -/
theorem pre_of_mem_trace (P : σ → Prop)
    (hstep : ∀ s a s' ms, P s → exec s a = .ok (s', ms) → P s') :
    ∀ {s : σ} {as : List α} {c : Commit σ α μ}, P s → c ∈ trace exec s as → P c.pre
  | _, [], _, _, h => by simp [trace] at h
  | s, a :: as, c, hs, h => by
      cases hx : exec s a with
      | error e =>
          rw [trace_cons_error _ hx] at h
          exact pre_of_mem_trace P hstep hs h
      | ok r =>
          obtain ⟨s', ms⟩ := r
          rw [trace_cons_ok _ hx, List.mem_cons] at h
          rcases h with rfl | h
          · exact hs
          · exact pre_of_mem_trace P hstep (hstep s a s' ms hs hx) h

/-- The first committed transaction starts where the run starts: the
failed ones before it changed nothing. -/
theorem trace_head_pre :
    ∀ {s : σ} {as : List α} {c : Commit σ α μ}, (trace exec s as)[0]? = some c → c.pre = s
  | _, [], _, h => by simp [trace] at h
  | s, a :: as, c, h => by
      cases hs : exec s a with
      | error e =>
          rw [trace_cons_error _ hs] at h
          exact trace_head_pre h
      | ok r =>
          obtain ⟨s', ms⟩ := r
          rw [trace_cons_ok _ hs] at h
          cases h
          rfl

/-- Each committed transaction starts where the one before it left. -/
theorem trace_pre_succ :
    ∀ {s : σ} {as : List α} {i : ℕ} {c c' : Commit σ α μ},
      (trace exec s as)[i]? = some c → (trace exec s as)[i + 1]? = some c' → c'.pre = c.post
  | _, [], _, _, _, h, _ => by simp [trace] at h
  | s, a :: as, i, c, c', h, h' => by
      cases hs : exec s a with
      | error e =>
          rw [trace_cons_error _ hs] at h h'
          exact trace_pre_succ h h'
      | ok r =>
          obtain ⟨s', ms⟩ := r
          rw [trace_cons_ok _ hs] at h h'
          cases i with
          | zero =>
              -- the second entry is the first of the rest of the run
              cases h
              exact trace_head_pre h'
          | succ i => exact trace_pre_succ h h'

-- ====================================================== invariants

/-- The invariant rule: what every committed step keeps holds after
every run. -/
theorem run_invariant (P : σ → Prop)
    (hstep : ∀ s a s' ms, P s → exec s a = .ok (s', ms) → P s') :
    ∀ {s : σ} (as : List α), P s → P (run exec s as).1 := by
  intro s as hs
  induction as generalizing s with
  | nil => exact hs
  | cons a as ih =>
      cases h : exec s a with
      | error e => rw [run_cons_error _ h]; exact ih hs
      | ok r =>
          obtain ⟨s', ms⟩ := r
          rw [run_cons_ok _ h]
          exact ih (hstep s a s' ms hs h)

/-- The fold rule: an observation of the state that each committed step
moves by its transaction alone is that move folded over the committed
transactions of the run. -/
theorem run_observe_foldl {β : Type} (obs : σ → β) (g : β → α → β)
    (hstep : ∀ s a s' ms, exec s a = .ok (s', ms) → obs s' = g (obs s) a) :
    ∀ (s : σ) (as : List α),
      obs (run exec s as).1 = ((run exec s as).2.map Prod.fst).foldl g (obs s)
  | s, [] => rfl
  | s, a :: as => by
      cases h : exec s a with
      | error e =>
          rw [run_cons_error _ h]
          exact run_observe_foldl obs g hstep s as
      | ok r =>
          obtain ⟨s', ms⟩ := r
          rw [run_cons_ok _ h, List.map_cons, List.foldl_cons, ← hstep s a s' ms h]
          exact run_observe_foldl obs g hstep s' as

/-- The time of the last transaction of a run started at time `t`. -/
def lastTime {β : Type} (τ : α → β) : β → List α → β
  | t, [] => t
  | _, a :: as => lastTime τ (τ a) as

/-- The invariant rule for runs at non-decreasing times: a predicate of
the state and the current time, kept when time passes and when a
committed step happens at a later time, holds after every run at the
time of its last transaction. -/
theorem run_invariant_timed {β : Type} [Preorder β] (τ : α → β)
    (P : β → σ → Prop)
    (hwait : ∀ t t' s, t ≤ t' → P t s → P t' s)
    (hstep : ∀ t s a s' ms, t ≤ τ a → P t s →
      exec s a = .ok (s', ms) → P (τ a) s') :
    ∀ {t : β} {s : σ} (as : List α), List.IsChain (· ≤ ·) (t :: as.map τ) →
      P t s → P (lastTime τ t as) (run exec s as).1 := by
  intro t s as hchain hs
  induction as generalizing t s with
  | nil => exact hs
  | cons a as ih =>
      rw [List.map_cons, List.isChain_cons_cons] at hchain
      obtain ⟨hle, hrest⟩ := hchain
      cases h : exec s a with
      | error e =>
          rw [run_cons_error _ h]
          exact ih hrest (hwait t (τ a) s hle hs)
      | ok r =>
          obtain ⟨s', ms⟩ := r
          rw [run_cons_ok _ h]
          exact ih hrest (hstep t s a s' ms hle hs h)

-- ========================================================= balances

section balance

variable (P : σ → Prop) (Φ : σ → ℕ) (inp : α → ℕ) (out : List μ → ℕ)

/-- Conservation over runs: if every committed step from an invariant
state keeps the invariant and moves `Φ` by what it takes in minus what
it emits, then at the end of every run `Φ` plus everything emitted
equals `Φ` at the start plus everything taken in. -/
theorem run_balance
    (hstep : ∀ s a s' ms, P s → exec s a = .ok (s', ms) →
      P s' ∧ Φ s' + out ms = Φ s + inp a) :
    ∀ {s : σ} (as : List α), P s →
      Φ (run exec s as).1 + ((run exec s as).2.map fun c => out c.2).sum
        = Φ s + ((run exec s as).2.map fun c => inp c.1).sum := by
  intro s as hs
  induction as generalizing s with
  | nil => simp
  | cons a as ih =>
      cases h : exec s a with
      | error e => rw [run_cons_error _ h]; exact ih hs
      | ok r =>
          obtain ⟨s', ms⟩ := r
          obtain ⟨hs', hbal⟩ := hstep s a s' ms hs h
          have hrest := ih hs'
          rw [run_cons_ok _ h]
          simp only [List.map_cons, List.sum_cons]
          omega

/-- Solvency over runs: the one-sided version of `run_balance`, for steps
that emit no more than they release. -/
theorem run_balance_le
    (hstep : ∀ s a s' ms, P s → exec s a = .ok (s', ms) →
      P s' ∧ Φ s' + out ms ≤ Φ s + inp a) :
    ∀ {s : σ} (as : List α), P s →
      Φ (run exec s as).1 + ((run exec s as).2.map fun c => out c.2).sum
        ≤ Φ s + ((run exec s as).2.map fun c => inp c.1).sum := by
  intro s as hs
  induction as generalizing s with
  | nil => simp
  | cons a as ih =>
      cases h : exec s a with
      | error e => rw [run_cons_error _ h]; exact ih hs
      | ok r =>
          obtain ⟨s', ms⟩ := r
          obtain ⟨hs', hbal⟩ := hstep s a s' ms hs h
          have hrest := ih hs'
          rw [run_cons_ok _ h]
          simp only [List.map_cons, List.sum_cons]
          omega

end balance

-- ====================================================== at most once

section once

variable {β : Type} [Preorder β] (τ : α → β) (P : σ → Prop) (D : β → σ → Prop)
  (ev : α → List μ → Bool)
  (hP : ∀ s a s' ms, P s → exec s a = .ok (s', ms) → P s')
  (hwait : ∀ t t' s, t ≤ t' → D t s → D t' s)
  (hinto : ∀ s a s' ms, P s → exec s a = .ok (s', ms) → ev a ms → D (τ a) s')
  (hstay : ∀ t s a s' ms, t ≤ τ a → P s → D t s → exec s a = .ok (s', ms) →
    D (τ a) s' ∧ ev a ms = false)

include hP hwait hstay in
/-- From the terminal class at time `t`, the event is never committed by
a run at later times. -/
theorem run_countP_eq_zero :
    ∀ {t : β} {s : σ} (as : List α), List.IsChain (· ≤ ·) (t :: as.map τ) →
      P s → D t s → (run exec s as).2.countP (fun c => ev c.1 c.2) = 0 := by
  intro t s as hchain hs hd
  induction as generalizing t s with
  | nil => rfl
  | cons a as ih =>
      rw [List.map_cons, List.isChain_cons_cons] at hchain
      obtain ⟨hle, hrest⟩ := hchain
      cases h : exec s a with
      | error e =>
          rw [run_cons_error _ h]
          exact ih hrest hs (hwait t (τ a) s hle hd)
      | ok r =>
          obtain ⟨s', ms⟩ := r
          obtain ⟨hd', hev⟩ := hstay t s a s' ms hle hs hd h
          rw [run_cons_ok _ h, List.countP_cons, hev]
          simpa using ih hrest (hP s a s' ms hs h) hd'

include hP hwait hinto hstay in
/-- An event that lands the state in a class it can never be repeated
from, at any later time, is committed at most once per run at
non-decreasing times. -/
theorem run_countP_le_one :
    ∀ {s : σ} (as : List α), List.IsChain (· ≤ ·) (as.map τ) → P s →
      (run exec s as).2.countP (fun c => ev c.1 c.2) ≤ 1 := by
  intro s as hchain hs
  induction as generalizing s with
  | nil => simp
  | cons a as ih =>
      rw [List.map_cons] at hchain
      have hrest : List.IsChain (· ≤ ·) (as.map τ) := hchain.tail
      cases h : exec s a with
      | error e => rw [run_cons_error _ h]; exact ih hrest hs
      | ok r =>
          obtain ⟨s', ms⟩ := r
          have hs' := hP s a s' ms hs h
          rw [run_cons_ok _ h, List.countP_cons]
          cases hev : ev a ms with
          | false => simpa using ih hrest hs'
          | true =>
              -- the event put the state in the terminal class at its own time
              have hzero := run_countP_eq_zero τ P D ev hP hwait hstay as hchain hs'
                (hinto s a s' ms hs h hev)
              simp [hzero]

end once

-- ======================================================== histories

/-- The invariant rule over the history of a run at non-decreasing
times: a predicate of the commits so far, the current time and the
state, kept when time passes and when a committed step is appended,
holds at every entry of the trace of the commits before it, at the
entry's own time and its starting state. -/
theorem trace_invariant_timed {β : Type} [Preorder β] (τ : α → β)
    (P : List (Commit σ α μ) → β → σ → Prop)
    (hwait : ∀ cs t t' s, t ≤ t' → P cs t s → P cs t' s)
    (hstep : ∀ cs t s a s' ms, t ≤ τ a → P cs t s →
      exec s a = .ok (s', ms) → P (cs ++ [⟨s, a, s', ms⟩]) (τ a) s') :
    ∀ (cs : List (Commit σ α μ)) {t : β} {s : σ} (as : List α),
      List.IsChain (· ≤ ·) (t :: as.map τ) → P cs t s →
      ∀ pre c post, trace exec s as = pre ++ c :: post → P (cs ++ pre) (τ c.tx) c.pre := by
  intro cs t s as hchain hs
  induction as generalizing cs t s with
  | nil => intro pre c post h; simp [trace] at h
  | cons a as ih =>
      rw [List.map_cons, List.isChain_cons_cons] at hchain
      obtain ⟨hle, hrest⟩ := hchain
      intro pre c post h
      cases hx : exec s a with
      | error e =>
          rw [trace_cons_error _ hx] at h
          exact ih cs hrest (hwait cs t (τ a) s hle hs) pre c post h
      | ok r =>
          obtain ⟨s', ms⟩ := r
          rw [trace_cons_ok _ hx] at h
          cases pre with
          | nil =>
              -- the entry is this step: the predicate at its time, before it
              obtain ⟨rfl, -⟩ := List.cons.inj h
              simpa using hwait cs t (τ a) s hle hs
          | cons c0 pre =>
              rw [List.cons_append] at h
              obtain ⟨rfl, htail⟩ := List.cons.inj h
              have := ih (cs ++ [_]) hrest (hstep cs t s a s' ms hle hs hx) pre c post htail
              simpa using this

/-- The invariant rule over whole histories: a predicate of the commits
so far and the state, kept when a committed step is appended, holds of
the whole trace and the final state. -/
theorem trace_invariant (P : List (Commit σ α μ) → σ → Prop)
    (hstep : ∀ cs s a s' ms, P cs s → exec s a = .ok (s', ms) → P (cs ++ [⟨s, a, s', ms⟩]) s') :
    ∀ (cs : List (Commit σ α μ)) {s : σ} (as : List α), P cs s →
      P (cs ++ trace exec s as) (run exec s as).1 := by
  intro cs s as hs
  induction as generalizing cs s with
  | nil => simpa [trace] using hs
  | cons a as ih =>
      cases hx : exec s a with
      | error e =>
          rw [trace_cons_error _ hx, run_cons_error _ hx]
          exact ih cs hs
      | ok r =>
          obtain ⟨s', ms⟩ := r
          rw [trace_cons_ok _ hx, run_cons_ok _ hx]
          simpa using ih (cs ++ [_]) (hstep cs s a s' ms hs hx)

/-- The timed invariant rule at the entries of a trace: a predicate of
the time and the state that waiting and every committed step keep holds
before every committed transaction, at its own time. -/
theorem pre_of_mem_trace_timed {β : Type} [Preorder β] (τ : α → β) (P : β → σ → Prop)
    (hwait : ∀ t t' s, t ≤ t' → P t s → P t' s)
    (hstep : ∀ t s a s' ms, t ≤ τ a → P t s → exec s a = .ok (s', ms) → P (τ a) s')
    {t : β} {s : σ} {as : List α} (hchain : List.IsChain (· ≤ ·) (t :: as.map τ)) (hs : P t s)
    {c : Commit σ α μ} (hc : c ∈ trace exec s as) : P (τ c.tx) c.pre := by
  obtain ⟨pre, post, htr⟩ := List.append_of_mem hc
  exact trace_invariant_timed τ (fun _ => P) (fun _ => hwait) (fun _ => hstep) [] as hchain hs
    pre c post htr

/-- Moving an optional head up keeps a chain that starts below it. -/
private theorem isChain_toList_append {γ : Type} [Preorder γ] {o o' : Option γ}
    {l : List γ} (hle : ∀ x, o = some x → ∃ y, o' = some y ∧ x ≤ y)
    (h : List.IsChain (· ≤ ·) (o'.toList ++ l)) :
    List.IsChain (· ≤ ·) (o.toList ++ l) := by
  cases o with
  | none =>
      cases o' with
      | none => exact h
      | some y => exact h.tail
  | some x =>
      obtain ⟨y, rfl, hxy⟩ := hle x rfl
      exact List.IsChain.imp_head (fun hz => le_trans hxy hz) h

/-- An optional head below the next one extends a chain. -/
private theorem isChain_toList_cons {γ : Type} [Preorder γ] {o o' : Option γ}
    {l : List γ} (hle : ∀ x, o = some x → ∃ y, o' = some y ∧ x ≤ y)
    (h : List.IsChain (· ≤ ·) (o'.toList ++ l)) :
    List.IsChain (· ≤ ·) (o.toList ++ (o'.toList ++ l)) := by
  cases o with
  | none => exact h
  | some x =>
      obtain ⟨y, rfl, hxy⟩ := hle x rfl
      exact List.isChain_cons_cons.mpr ⟨hxy, h⟩

/-- An observation that waiting and committed steps from invariant states
only raise, once it is defined, reads non-decreasing along the trace of
a run at non-decreasing times, each entry observed at its own time. -/
theorem trace_observe_isChain {β γ : Type} [Preorder β] [Preorder γ] (τ : α → β)
    (P : σ → Prop) (obs : β → σ → Option γ)
    (hP : ∀ s a s' ms, P s → exec s a = .ok (s', ms) → P s')
    (hwait : ∀ t t' s x, t ≤ t' → obs t s = some x → ∃ y, obs t' s = some y ∧ x ≤ y)
    (hstep : ∀ s a s' ms x, P s → obs (τ a) s = some x → exec s a = .ok (s', ms) →
      ∃ y, obs (τ a) s' = some y ∧ x ≤ y) :
    ∀ {t : β} {s : σ} (as : List α), List.IsChain (· ≤ ·) (t :: as.map τ) → P s →
      List.IsChain (· ≤ ·)
        ((obs t s).toList ++ (trace exec s as).filterMap fun c => obs (τ c.tx) c.post) := by
  intro t s as hchain hs
  induction as generalizing t s with
  | nil => cases obs t s <;> simp [trace]
  | cons a as ih =>
      rw [List.map_cons, List.isChain_cons_cons] at hchain
      obtain ⟨hle, hrest⟩ := hchain
      cases hx : exec s a with
      | error e =>
          rw [trace_cons_error _ hx]
          exact isChain_toList_append (fun x hx' => hwait t (τ a) s x hle hx') (ih hrest hs)
      | ok r =>
          obtain ⟨s', ms⟩ := r
          -- the step's own observation is the next link
          have hnext : ∀ x, obs t s = some x → ∃ y, obs (τ a) s' = some y ∧ x ≤ y := by
            intro x hx'
            obtain ⟨x', hx'', hxx'⟩ := hwait t (τ a) s x hle hx'
            obtain ⟨y, hy, hx'y⟩ := hstep s a s' ms x' hs hx'' hx
            exact ⟨y, hy, le_trans hxx' hx'y⟩
          have hcons : (⟨s, a, s', ms⟩ :: trace exec s' as).filterMap
              (fun c : Commit σ α μ => obs (τ c.tx) c.post)
              = (obs (τ a) s').toList ++ (trace exec s' as).filterMap
                  (fun c => obs (τ c.tx) c.post) := by
            cases ho : obs (τ a) s' <;> simp [ho]
          rw [trace_cons_ok _ hx, hcons]
          exact isChain_toList_cons hnext (ih hrest (hP s a s' ms hs hx))

end NibiruWasm.Chain
