/-
nibiru-ownable: a contract's owner, and the two-step transfer of
ownership (`lib.rs`).

The owner proposes a new owner, with an optional deadline; the proposed
account accepts before the deadline and becomes the owner. The owner
may instead renounce, which leaves the contract without an owner for
good. The `OWNERSHIP` item is written once by `initialize_owner` at
instantiation, so a contract's storage holds it from then on and
loading it does not fail; it is modelled as the value itself.

Every update runs inside `OWNERSHIP.update`: a failed check leaves the
stored ownership as it was.
-/
import NibiruWasm.CwUtils.Expiration

namespace NibiruWasm.Ownable

open Cosmwasm CwUtils

/-- `Ownership<String>`. -/
structure Ownership where
  owner : Option String
  pendingOwner : Option String
  pendingExpiry : Option Expiration
  deriving DecidableEq, Repr

/-- `Action`. -/
inductive Action
  | transferOwnership (newOwner : String) (expiry : Option Expiration)
  | acceptOwnership
  | renounceOwnership
  deriving DecidableEq, Repr

/-- `OwnershipError`. -/
inductive OwnershipError
  | std (e : StdError)
  | noOwner
  | notOwner
  | notPendingOwner
  | transferNotFound
  | transferExpired
  deriving DecidableEq, Repr

/-- `OwnershipError`'s `Display`. -/
def OwnershipError.display : OwnershipError → String
  | .std e => e.display
  | .noOwner => "Contract ownership has been renounced"
  | .notOwner => "Caller is not the contract's current owner"
  | .notPendingOwner => "Caller is not the contract's pending owner"
  | .transferNotFound => "There isn't a pending ownership transfer"
  | .transferExpired => "A pending ownership transfer exists but it has expired"

/-- `initialize_owner`: the given owner, no transfer pending. -/
def initializeOwner (owner : Option String) : Ownership :=
  ⟨owner, none, none⟩

/-- `is_owner`: the contract has an owner and it is `addr`. -/
def isOwner (ownership : Ownership) (addr : String) : Bool :=
  match ownership.owner with
  | some owner => addr == owner
  | none => false

/-- `check_owner`: there is an owner and it is the sender. -/
def checkOwner (ownership : Ownership) (sender : String) : Except OwnershipError Unit :=
  match ownership.owner with
  | none => .error .noOwner
  | some currentOwner => if sender ≠ currentOwner then .error .notOwner else .ok ()

/-- `assert_owner`: `check_owner` against the stored ownership. -/
def assertOwner (ownership : Ownership) (sender : String) : Except OwnershipError Unit :=
  checkOwner ownership sender

/-- `transfer_ownership`: the owner names a pending owner, replacing any
pending transfer. The expiry is not checked against the block. -/
def transferOwnership (ownership : Ownership) (sender newOwner : String)
    (expiry : Option Expiration) : Except OwnershipError Ownership := do
  checkOwner ownership sender
  pure { ownership with pendingOwner := some newOwner, pendingExpiry := expiry }

/-- The deadline of the pending transfer has been reached. -/
def pendingExpired (ownership : Ownership) (block : BlockInfo) : Bool :=
  match ownership.pendingExpiry with
  | some expiry => expiry.isExpired block
  | none => false

/-- `accept_ownership`: the pending owner, before the deadline, becomes
the owner. -/
def acceptOwnership (ownership : Ownership) (block : BlockInfo) (sender : String) :
    Except OwnershipError Ownership :=
  match ownership.pendingOwner with
  | none => .error .transferNotFound
  | some pendingOwner =>
      if sender ≠ pendingOwner then .error .notPendingOwner
      else if pendingExpired ownership block then .error .transferExpired
      else .ok ⟨ownership.pendingOwner, none, none⟩

/-- `renounce_ownership`: the owner leaves the contract without owner and
cancels any pending transfer. -/
def renounceOwnership (ownership : Ownership) (sender : String) :
    Except OwnershipError Ownership := do
  checkOwner ownership sender
  pure ⟨none, none, none⟩

/-- `update_ownership`. -/
def updateOwnership (ownership : Ownership) (block : BlockInfo) (sender : String) :
    Action → Except OwnershipError Ownership
  | .transferOwnership newOwner expiry => transferOwnership ownership sender newOwner expiry
  | .acceptOwnership => acceptOwnership ownership block sender
  | .renounceOwnership => renounceOwnership ownership sender

/-- One `update_ownership` call: the block, the sender and the action. -/
structure Tx where
  block : BlockInfo
  sender : String
  action : Action

/-- An ownership update as the chain runs it; it emits no message. -/
def step (ownership : Ownership) (tx : Tx) : Except OwnershipError (Ownership × List CosmosMsg) :=
  (updateOwnership ownership tx.block tx.sender tx.action).map fun o => (o, [])

end NibiruWasm.Ownable
