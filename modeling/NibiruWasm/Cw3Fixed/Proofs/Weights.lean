/-
The voting power core-cw3-fixed-msig's `instantiate` stores.

`instantiate` sums the weights of the request's list into
`Config.total_weight` and checks the threshold against that sum, but
it saves the voters into `VOTERS` one after another, so a repeated
address keeps the weight of its last entry. The stored weights are
therefore at most the total, and equal to it when the addresses are
distinct (`instantiate_storedWeight`); with a repeated address the
threshold is judged against more weight than the voters can cast
(`duplicateVoter_totalWeight`).
-/
import NibiruWasm.Cw3Fixed.Proofs.Handlers
import NibiruWasm.Cw3.Utils

namespace NibiruWasm.Cw3Fixed

open Cosmwasm Chain Cw3 CwUtils

variable {Exp Dur Thr : Type} (L : Cw3Lib Exp Dur Thr Empty)

/-- The voting power `VOTERS` holds: the sum of the stored weights. -/
def storedWeight (voters : Store String ℕ) : ℕ := Store.sumBy (fun _ w => w) voters

@[simp] theorem sumU64_eq_ok {l : List ℕ} {n : ℕ} :
    sumU64 l = .ok n ↔ l.sum ≤ Uint64.MAX ∧ n = l.sum := by
  unfold sumU64
  by_cases h : l.sum ≤ Uint64.MAX <;> simp [h, eq_comm]

/-- What a committed `instantiate` stored: the total of the request's
weights, and the voters saved in the request's order. -/
theorem instantiate_config_eq_ok {addrValidate : String → Except StdError Unit}
    {msg : InstantiateMsg Dur Thr} {s0 : State Exp Dur Thr}
    (h : instantiate L addrValidate msg = .ok s0) :
    s0.config.totalWeight = (msg.voters.map fun v => v.weight).sum
      ∧ s0.voters = msg.voters.foldl (fun m v => m.insert v.addr v.weight) ∅ := by
  simp only [instantiate, ite_throw_eq_ok, throw_bind, bind_eq_ok, mapError_eq_ok,
    sumU64_eq_ok] at h
  obtain ⟨-, total, ⟨-, htotal⟩, -, -, voters, hvoters, hs0⟩ := h
  rw [pure_eq_ok] at hs0
  subst hs0
  -- each committed step of the fold is a plain save
  have hstep : ∀ (m : Store String ℕ) (v : Voter) r,
      ((addrValidate v.addr).mapError ContractError.std >>= fun _ =>
        (pure (m.insert v.addr v.weight) : Except ContractError _)) = .ok r →
      r = m.insert v.addr v.weight := by
    intro m v r hr
    simp only [bind_eq_ok, mapError_eq_ok, pure_eq_ok] at hr
    obtain ⟨-, -, hr⟩ := hr
    exact hr.symm
  exact ⟨htotal, foldlM_eq_ok hstep hvoters⟩

/-- The stored weights never exceed the total the threshold was checked
against, and with distinct addresses they are exactly that total. -/
theorem instantiate_storedWeight {addrValidate : String → Except StdError Unit}
    {msg : InstantiateMsg Dur Thr} {s0 : State Exp Dur Thr}
    (h : instantiate L addrValidate msg = .ok s0) :
    storedWeight s0.voters ≤ s0.config.totalWeight
      ∧ ((msg.voters.map Voter.addr).Nodup → s0.config.totalWeight = storedWeight s0.voters) := by
  obtain ⟨htotal, hvoters⟩ := instantiate_config_eq_ok L h
  rw [htotal, hvoters, storedWeight]
  constructor
  · -- a repeated address keeps only its last weight
    have hle := Store.sumBy_foldl_insert_le (fun _ w => w) Voter.addr Voter.weight msg.voters ∅
    simpa [Store.sumBy] using hle
  · intro hnd
    have heq := Store.sumBy_foldl_insert (fun _ w => w) Voter.addr Voter.weight msg.voters ∅ hnd
      (fun _ _ => AList.lookup_empty _)
    rw [heq]
    simp [Store.sumBy]

/-- Two distinct voters, with weights 1 and 2, and a threshold of 3 yes
votes. -/
def twoVotersMsg : InstantiateMsg Duration ℕ := ⟨[⟨"a", 1⟩, ⟨"b", 2⟩], 3, .height 10⟩

/-- With `twoVotersMsg` all of the total is stored. -/
theorem instantiate_storedWeight_twoVoters :
    ∃ s0, instantiate (Cw3Lib.absoluteCount Empty) (fun _ => .ok ()) twoVotersMsg = .ok s0
      ∧ storedWeight s0.voters ≤ s0.config.totalWeight
      ∧ s0.config.totalWeight = storedWeight s0.voters ∧ storedWeight s0.voters = 3 := by
  obtain ⟨s0, hs0⟩ : ∃ s0, instantiate (Cw3Lib.absoluteCount Empty) (fun _ => .ok ()) twoVotersMsg
      = .ok s0 := ⟨_, rfl⟩
  obtain ⟨hle, heq⟩ := instantiate_storedWeight (Cw3Lib.absoluteCount Empty) hs0
  have htotal : s0.config.totalWeight = 3 := by
    rw [(instantiate_config_eq_ok _ hs0).1]
    rfl
  have hnd : (twoVotersMsg.voters.map Voter.addr).Nodup := by decide
  exact ⟨s0, hs0, hle, heq hnd, by rw [← heq hnd, htotal]⟩

/-- Voter `a` listed twice, with weights 1 and 2, and a threshold of 3
yes votes. -/
def duplicateVoterMsg : InstantiateMsg Duration ℕ := ⟨[⟨"a", 1⟩, ⟨"a", 2⟩], 3, .height 10⟩

/-- `instantiate` accepts `duplicateVoterMsg`: the threshold 3 passes
against a total weight of 3, while `VOTERS` holds `a` with weight 2
only. -/
theorem duplicateVoter_totalWeight :
    ∃ s0, instantiate (Cw3Lib.absoluteCount Empty) (fun _ => .ok ()) duplicateVoterMsg = .ok s0
      ∧ s0.config.threshold = 3 ∧ s0.config.totalWeight = 3
      ∧ s0.voters.lookup "a" = some 2 ∧ storedWeight s0.voters = 2 :=
  ⟨_, rfl, rfl, rfl, by decide, by decide⟩

end NibiruWasm.Cw3Fixed
