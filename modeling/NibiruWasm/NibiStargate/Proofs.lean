/-
What nibi-stargate's runs do (`tokenSupply_of_mints`): over any run
from `instantiate`, `TOKEN_SUPPLY` of a subdenom is the sum of the
amounts of the committed `Mint`s whose denom's third part is that
subdenom, and there is no entry while there is none; every committed
transaction sends exactly one Stargate message, and in the contract's
own name; and only `Mint` writes storage.

`execute_eq_ok` says once what a committed message does. The supply of
one subdenom then moves by each committed message alone
(`step_tokenSupply`), so it is the run's committed messages folded
(`run_observe_foldl`), and the fold is the sum of the minted amounts
(`foldl_mintedTo`). `Burn` never subtracts: the count is of what was
minted through the contract, not of what is in circulation.
-/
import NibiruWasm.NibiStargate.Contract
import NibiruWasm.Chain.Run
import NibiruWasm.Chain.Except

namespace NibiruWasm.NibiStargate

open Cosmwasm Chain Text

variable (encode : TokenfactoryMsg → String)

/-- The subdenom `Mint` counts a coin under: the third part of its denom
split at `/`. -/
def subdenomOf (coin : Coin) : String := String.ofList ((coin.denom.toList.splitOn '/').getD 2 [])

/-- What a message adds to the supply of `key`: a `Mint`'s amount when
its subdenom is `key`. -/
def ExecuteMsg.mintedTo (key : String) : ExecuteMsg → Option ℕ
  | .mint coin _ => if subdenomOf coin = key then some coin.amount else none
  | _ => none

/-- The storage update of `Mint`: the subdenom's supply, from zero when
there is none, plus the amount. -/
theorem addSupply_eq_ok {s s' : State} {supplyKey : String} {amount : ℕ}
    (h : addSupply s supplyKey amount = .ok s') :
    s'.tokenSupply = s.tokenSupply.insert supplyKey ((s.tokenSupply.lookup supplyKey).getD 0 + amount) := by
  unfold addSupply at h
  split at h
  · next supply hsupply =>
      simp only [bind_eq_ok, mapError_eq_ok, addU256_eq_ok, pure_eq_ok] at h
      obtain ⟨_, ⟨-, rfl⟩, rfl⟩ := h
      rw [hsupply, Option.getD_some]
  · next hsupply =>
      simp only [pure_eq_ok] at h
      rw [← h, hsupply, Option.getD_none, Nat.zero_add]

/-- What a committed message does: one Stargate message in the
contract's name, storage unchanged but by `Mint`, and `Mint` of a denom
of three parts adding its amount to its subdenom's supply. -/
theorem execute_eq_ok {s s' : State} {env : Env} {info : MessageInfo} {msg : ExecuteMsg}
    {ms : List CosmosMsg} (h : execute encode s env info msg = .ok (s', ms)) :
    (∃ m : TokenfactoryMsg, ms = [m.intoStargateMsg encode] ∧ m.sender = env.contractAddress)
      ∧ ((∀ coin mintTo, msg ≠ .mint coin mintTo) → s' = s)
      ∧ ∀ coin mintTo, msg = .mint coin mintTo →
          s'.tokenSupply = s.tokenSupply.insert (subdenomOf coin)
            ((s.tokenSupply.lookup (subdenomOf coin)).getD 0 + coin.amount) := by
  cases msg with
  | mint coin mintTo =>
      simp only [execute, throw_bind, ite_throw_eq_ok, bind_eq_ok, pure_eq_ok, Prod.mk.injEq] at h
      obtain ⟨-, s'', hadd, rfl, rfl⟩ := h
      refine ⟨⟨_, rfl, rfl⟩, fun hne => absurd rfl (hne coin mintTo), ?_⟩
      rintro coin' mintTo' ⟨⟩
      exact addSupply_eq_ok hadd
  | _ =>
      -- `CreateDenom`, `Burn` and `ChangeAdmin` only send their message
      simp only [execute, pure_eq_ok, Prod.mk.injEq] at h
      obtain ⟨rfl, rfl⟩ := h
      exact ⟨⟨_, rfl, rfl⟩, fun _ => rfl, fun _ _ hmint => by cases hmint⟩

/-- One committed step moves the supply of `key` by its message alone. -/
theorem step_tokenSupply {s s' : State} {tx : Tx} {ms : List CosmosMsg} (key : String)
    (h : step encode s tx = .ok (s', ms)) :
    s'.tokenSupply.lookup key
      = (tx.msg.mintedTo key).elim (s.tokenSupply.lookup key)
          fun a => some ((s.tokenSupply.lookup key).getD 0 + a) := by
  obtain ⟨-, hframe, hmint⟩ := execute_eq_ok encode h
  cases hmsg : tx.msg with
  | mint coin mintTo =>
      rw [hmint coin mintTo hmsg, ExecuteMsg.mintedTo]
      by_cases hkey : subdenomOf coin = key
      · rw [if_pos hkey, hkey, AList.lookup_insert]
        rfl
      · rw [if_neg hkey, AList.lookup_insert_ne (Ne.symm hkey)]
        rfl
  | _ => rw [hframe (fun _ _ hmint => by rw [hmsg] at hmint; cases hmint)]; rfl

/-- The fold of the supply's moves over messages: the sum of the minted
amounts, added to the start when there are any. -/
theorem foldl_mintedTo (key : String) :
    ∀ (msgs : List ExecuteMsg) (o : Option ℕ),
      msgs.foldl (fun o m => (m.mintedTo key).elim o fun a => some (o.getD 0 + a)) o
        = if msgs.filterMap (·.mintedTo key) = [] then o
          else some (o.getD 0 + (msgs.filterMap (·.mintedTo key)).sum)
  | [], o => rfl
  | m :: msgs, o => by
      rw [List.foldl_cons, foldl_mintedTo key msgs]
      cases hm : m.mintedTo key with
      | none => rw [List.filterMap_cons_none hm]; rfl
      | some a =>
          rw [List.filterMap_cons_some hm, if_neg (List.cons_ne_nil _ _), List.sum_cons]
          simp only [Option.elim, Option.getD_some]
          split
          · next hnil => rw [hnil, List.sum_nil, Nat.add_zero]
          · rw [Nat.add_assoc]

/-- Over any run from `instantiate`: a subdenom's `TOKEN_SUPPLY` is the
sum of the amounts of the committed `Mint`s of that subdenom, and absent
while there is none; every committed transaction sends exactly one
Stargate message, in the contract's own name; and every committed
message other than `Mint` leaves storage as it is. -/
theorem tokenSupply_of_mints (txs : List Tx) (key : String) :
    (run (step encode) instantiate txs).1.tokenSupply.lookup key
        = (if ((run (step encode) instantiate txs).2.map (·.1.msg)).filterMap (·.mintedTo key) = [] then
            none
          else some (((run (step encode) instantiate txs).2.map (·.1.msg)).filterMap (·.mintedTo key)).sum)
      ∧ ∀ c ∈ trace (step encode) instantiate txs,
          (∃ m : TokenfactoryMsg, c.msgs = [m.intoStargateMsg encode] ∧ m.sender = c.tx.env.contractAddress)
            ∧ ((∀ coin mintTo, c.tx.msg ≠ .mint coin mintTo) → c.post = c.pre) := by
  refine ⟨?_, fun c hc => ?_⟩
  · have hrun := run_observe_foldl (fun s : State => s.tokenSupply.lookup key)
      (fun o tx => (tx.msg.mintedTo key).elim o fun a => some (o.getD 0 + a))
      (fun _ _ _ _ h => step_tokenSupply encode key h) instantiate txs
    -- `instantiate` saves no supply
    have h0 : instantiate.tokenSupply.lookup key = none := AList.lookup_empty key
    rw [h0, List.foldl_map] at hrun
    have hfold := foldl_mintedTo key ((run (step encode) instantiate txs).2.map (·.1.msg)) none
    rw [List.foldl_map, Option.getD_none] at hfold
    simp only [Nat.zero_add] at hfold
    rw [hrun]
    exact hfold
  · obtain ⟨hmsgs, hframe, -⟩ := execute_eq_ok encode (exec_of_mem_trace hc)
    exact ⟨hmsgs, hframe⟩

-- two mints of `foo` count, the burn does not, and a denom of one part fails
example : (run (step fun _ => "") instantiate
      [⟨⟨⟨1, 1⟩, "contract"⟩, ⟨"admin", []⟩, .mint ⟨"tf/contract/foo", 5⟩ "alice"⟩,
       ⟨⟨⟨2, 2⟩, "contract"⟩, ⟨"admin", []⟩, .burn ⟨"tf/contract/foo", 2⟩ "alice"⟩,
       ⟨⟨⟨3, 3⟩, "contract"⟩, ⟨"admin", []⟩, .mint ⟨"foo", 7⟩ "bob"⟩,
       ⟨⟨⟨4, 4⟩, "contract"⟩, ⟨"admin", []⟩, .mint ⟨"tf/contract/foo", 3⟩ "bob"⟩]).1.tokenSupply.lookup "foo"
    = some 8 := by
  decide

end NibiruWasm.NibiStargate
