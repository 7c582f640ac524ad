/-
The hello-world counter over a run.

`Increment` commits exactly below `i64::MAX`, and there adds one without
wrapping (`toInt_add_one`), so the stored count read as an integer is
the count of an unbounded counter: the value of the last committed
`Reset`, or the instantiated count, plus one for each committed
`Increment` after it (`ExecuteMsg.apply`, folded by
`run_observe_foldl`). No handler changes the owner, so every committed
`Reset` along a run was sent by the sender that instantiated the
counter (`counter_of_run`).
-/
import NibiruWasm.Counter.Contract
import NibiruWasm.Chain.Run
import NibiruWasm.Chain.Except

namespace NibiruWasm.Counter

open Cosmwasm Chain

variable {s s' : State} {env : Env} {info : MessageInfo} {msg : ExecuteMsg}
  {ms : List CosmosMsg}

/-- Below `i64::MAX`, adding one does not wrap. -/
theorem toInt_add_one {x : Int64} (h : x ≠ Int64.maxValue) : (x + 1).toInt = x.toInt + 1 := by
  have hlt := Int64.toInt_lt x
  have hle := Int64.le_toInt x
  have hne : x.toInt ≠ 2 ^ 63 - 1 := by
    intro heq
    apply h
    rw [← Int64.toInt_inj, heq, Int64.toInt_maxValue]
  have hone : (1 : Int64).toInt = 1 := by decide
  rw [Int64.toInt_add, hone]
  apply Int.bmod_eq_of_le <;> omega

theorem incrementCount_eq_ok {count c : Int64} :
    incrementCount count = .ok c ↔ count ≠ Int64.maxValue ∧ c = count + 1 := by
  unfold incrementCount
  by_cases h : count = Int64.maxValue
  · simp [h]
  · simp [h, eq_comm]

/-- What a committed transaction did: an increment below `i64::MAX`, or
a reset by the owner; the owner stays, and no message leaves. -/
theorem execute_eq_ok (h : execute s env info msg = .ok (s', ms)) :
    ms = [] ∧ s'.owner = s.owner
      ∧ ((msg = .increment ∧ s.count ≠ Int64.maxValue ∧ s'.count = s.count + 1)
        ∨ ∃ n, msg = .reset n ∧ info.sender = s.owner ∧ s'.count = n) := by
  cases msg with
  | increment =>
      simp only [execute, bind_eq_ok, incrementCount_eq_ok, pure_eq_ok, Prod.mk.injEq] at h
      obtain ⟨c, ⟨hmax, rfl⟩, rfl, rfl⟩ := h
      exact ⟨rfl, rfl, .inl ⟨rfl, hmax, rfl⟩⟩
  | reset n =>
      simp only [execute] at h
      by_cases hown : info.sender = s.owner
      · simp only [hown, ne_eq, not_true_eq_false, if_false, Except.ok.injEq,
          Prod.mk.injEq] at h
        obtain ⟨rfl, rfl⟩ := h
        exact ⟨rfl, rfl, .inr ⟨n, rfl, hown, rfl⟩⟩
      · simp [hown] at h

/-- What a message does to an unbounded counter. -/
def ExecuteMsg.apply (z : ℤ) : ExecuteMsg → ℤ
  | .increment => z + 1
  | .reset count => count.toInt

/-- A committed step moves the count, read as an integer, as the
unbounded counter moves. -/
theorem step_count {tx : Tx} (h : step s tx = .ok (s', ms)) :
    s'.count.toInt = tx.msg.apply s.count.toInt := by
  obtain ⟨-, -, ⟨hmsg, hmax, hcount⟩ | ⟨n, hmsg, -, hcount⟩⟩ := execute_eq_ok h
  · rw [hmsg, hcount, toInt_add_one hmax]
    rfl
  · rw [hmsg, hcount]
    rfl

/-- After any run from `instantiate`, the count read as an integer is
the unbounded counter's count: the last committed reset's value, or the
instantiated count, plus one for each committed `Increment` after it,
so it never wraps; the owner is the sender that instantiated the
counter, and sent every committed `Reset`. -/
theorem counter_of_run (info0 : MessageInfo) (msg0 : InstantiateMsg) (txs : List Tx) :
    (run step (instantiate info0 msg0) txs).1.count.toInt
        = ((run step (instantiate info0 msg0) txs).2.map (·.1.msg)).foldl ExecuteMsg.apply
            msg0.count.toInt
      ∧ (run step (instantiate info0 msg0) txs).1.owner = info0.sender
      ∧ ∀ c ∈ trace step (instantiate info0 msg0) txs, ∀ n, c.tx.msg = .reset n →
          c.tx.info.sender = info0.sender := by
  -- the owner is an invariant: no committed step changes it
  have howner : ∀ s a s' ms, s.owner = info0.sender → step s a = .ok (s', ms) →
      s'.owner = info0.sender :=
    fun _ _ _ _ hs h => (execute_eq_ok h).2.1.trans hs
  refine ⟨?_, run_invariant _ howner txs rfl, ?_⟩
  · have hrun := run_observe_foldl (fun s : State => s.count.toInt)
      (fun z tx => tx.msg.apply z) (fun _ _ _ _ h => step_count h) (instantiate info0 msg0) txs
    rw [hrun, List.foldl_map, List.foldl_map]
    rfl
  · intro c hc n hmsg
    have hpre := pre_of_mem_trace _ howner rfl hc
    obtain ⟨-, -, ⟨hinc, -⟩ | ⟨n', -, hsender, -⟩⟩ := execute_eq_ok (exec_of_mem_trace hc)
    · rw [hmsg] at hinc
      cases hinc
    · exact hsender.trans hpre

-- an increment at `i64::MAX` fails, and the count stays
example : (run step (instantiate ⟨"owner", []⟩ ⟨Int64.maxValue⟩)
    [⟨⟨⟨1, 1⟩, "counter"⟩, ⟨"anyone", []⟩, .increment⟩]).1.count = Int64.maxValue := by
  decide

end NibiruWasm.Counter
