/-
The `cw_utils` types the contracts share: `Expiration`, the deadline of a
proposal and of an ownership transfer, and `Duration`, a voting period.

`Expiration::is_expired` compares with the block's height or time, so
along blocks in chain order an expiration once reached stays reached
(`Expiration.isExpired_mono`).
-/
import NibiruWasm.Cosmwasm.Std

namespace NibiruWasm.CwUtils

open Cosmwasm

/-- `cw_utils::Expiration`; a time is in seconds. -/
inductive Expiration
  | atHeight (height : ℕ)
  | atTime (time : ℕ)
  | never
  deriving DecidableEq, Repr

/-- `Expiration::is_expired`. -/
def Expiration.isExpired : Expiration → BlockInfo → Bool
  | .atHeight height, block => decide (height ≤ block.height)
  | .atTime time, block => decide (time ≤ block.time)
  | .never, _ => false

/-- `PartialOrd for Expiration`: expirations of one kind compare, `Never`
comes after every other, and a height and a time do not compare. -/
def Expiration.partialCmp : Expiration → Expiration → Option Ordering
  | .atHeight a, .atHeight b => some (compare a b)
  | .atTime a, .atTime b => some (compare a b)
  | .never, .never => some .eq
  | .never, _ => some .gt
  | _, .never => some .lt
  | _, _ => none

/-- `cw_utils::Duration`. -/
inductive Duration
  | height (blocks : ℕ)
  | time (seconds : ℕ)
  deriving DecidableEq, Repr

/-- `Duration::after`. -/
def Duration.after : Duration → BlockInfo → Expiration
  | .height blocks, block => .atHeight (block.height + blocks)
  | .time seconds, block => .atTime (block.time + seconds)

/-- An expiration reached at a block is reached at every later one. -/
theorem Expiration.isExpired_mono (e : Expiration) {b b' : BlockInfo} (hb : b ≤ b')
    (h : e.isExpired b = true) : e.isExpired b' = true := by
  cases e with
  | atHeight height =>
      simp only [Expiration.isExpired, decide_eq_true_eq] at h ⊢
      exact Nat.le_trans h hb.1
  | atTime time =>
      simp only [Expiration.isExpired, decide_eq_true_eq] at h ⊢
      exact Nat.le_trans h hb.2
  | never => cases h

end NibiruWasm.CwUtils
