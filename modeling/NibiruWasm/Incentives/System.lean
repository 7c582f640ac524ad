/-
The chain that runs the lockup and incentives contracts together.

The incentives contract reads the lockup contract through queries only,
so its laws are laws of the pair, and of the bank that holds the coins:

- a transaction's funds move from the sender to the contract it calls
  before the contract runs (`Bank.transfer`); a sender that lacks them
  fails the transaction;
- the contract's bank sends run after it, from its balance
  (`Bank.dispatch`); one that the balance cannot cover fails the
  transaction, and with it every write;
- the incentives contract's queries are answered by the lockup model at
  the address it saved, at the block of the transaction (`querier`).

The bank checks balances only: denoms and amounts are not validated.
-/
import NibiruWasm.Incentives.Contract
import NibiruWasm.Lockup.Contract
import NibiruWasm.Chain.Run

namespace NibiruWasm.Incentives

open Cosmwasm Chain

-- ============================================================== bank

/-- The balance of every address in every denom. -/
abbrev Bank := String → String → ℕ

namespace Bank

/-- Adds a coin to an address. -/
def credit (b : Bank) (addr : String) (coin : Coin) : Bank :=
  fun a d => if a = addr ∧ d = coin.denom then b a d + coin.amount else b a d

/-- Takes a coin from an address that holds it. -/
def debit (b : Bank) (addr : String) (coin : Coin) : Option Bank :=
  if coin.amount ≤ b addr coin.denom then
    some fun a d => if a = addr ∧ d = coin.denom then b a d - coin.amount else b a d
  else none

/-- Moves coins from one address to another, when the first holds them. -/
def transfer (b : Bank) (src dst : String) : List Coin → Option Bank
  | [] => some b
  | coin :: rest => (b.debit src coin).bind fun b => (b.credit dst coin).transfer src dst rest

/-- Runs the messages a contract returned: its bank sends, from its own
balance. The two contracts return no other message. -/
def dispatch (contract : String) (b : Bank) : List CosmosMsg → Option Bank
  | [] => some b
  | .bank (.send toAddress amount) :: rest =>
      (b.transfer contract toAddress amount).bind fun b => dispatch contract b rest
  | _ :: _ => none

end Bank

-- ============================================================ system

/-- The two contracts and the bank. -/
structure System where
  lockup : Lockup.State
  incentives : State
  bank : Bank

/-- A message to one of the two contracts. -/
inductive SysMsg
  | lockup (msg : Lockup.ExecuteMsg)
  | incentives (msg : ExecuteMsg)

/-- One transaction: its block, its sender, the coins it sends along and
its message. -/
structure SysTx where
  block : BlockInfo
  sender : String
  funds : List Coin
  msg : SysMsg

/-- Why a transaction fails. -/
inductive SysError
  | insufficientFunds
  | lockup (e : Lockup.ContractError)
  | incentives (e : ContractError)

/-- The failure of a bank operation that could not be covered. -/
def orInsufficient : Option Bank → Except SysError Bank
  | some b => .ok b
  | none => .error .insufficientFunds

variable (lockupAddr incentivesAddr : String)

/-- The answers of the chain's contracts to the incentives contract's
queries at `block`: the lockup model at its address, and no contract at
any other. -/
def querier (lockup : Lockup.State) (block : BlockInfo) : LockupQuerier := fun addr q =>
  if addr = lockupAddr then Lockup.query lockup ⟨block, lockupAddr⟩ q
  else .error (.genericErr ("Querier system error: No such contract: " ++ addr))

/-- A transaction as the chain runs it: funds in, the contract, its bank
sends out. -/
def step (s : System) (tx : SysTx) : Except SysError (System × List CosmosMsg) :=
  match tx.msg with
  | .lockup msg => do
      let bank ← orInsufficient (s.bank.transfer tx.sender lockupAddr tx.funds)
      let (lockup, ms) ←
        (Lockup.execute s.lockup ⟨tx.block, lockupAddr⟩ ⟨tx.sender, tx.funds⟩ msg).mapError .lockup
      let bank ← orInsufficient (bank.dispatch lockupAddr ms)
      pure ({ s with lockup, bank }, ms)
  | .incentives msg => do
      let bank ← orInsufficient (s.bank.transfer tx.sender incentivesAddr tx.funds)
      let (incentives, ms) ← (execute (querier lockupAddr s.lockup tx.block) s.incentives
        ⟨tx.block, incentivesAddr⟩ ⟨tx.sender, tx.funds⟩ msg).mapError .incentives
      let bank ← orInsufficient (bank.dispatch incentivesAddr ms)
      pure ({ s with incentives, bank }, ms)

/-- The chain after both contracts are instantiated, the incentives
contract with the lockup contract's address. -/
def genesis (bank : Bank) : System :=
  ⟨Lockup.instantiate, instantiate lockupAddr, bank⟩

end NibiruWasm.Incentives
