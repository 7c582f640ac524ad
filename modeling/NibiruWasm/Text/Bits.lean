/-
Bit strings, the most significant bit first, and registers that are
linear in exclusive or.

`bitsOf w n` is the low `w` bits of `n`, the highest first. Regrouping
values of one width into values of another is then list append: the low
`a + b` bits of `n` are the `a` bits above its low `b`, then its low `b`
(`bitsOf_add`). A list of `w`-bit values is determined by its bits
(`flatMap_bitsOf_inj`), and a value is zero below bit `w` exactly when
its bit string is all zeros (`bitsOf_eq_replicate_iff`).

A register whose update is linear in exclusive or, in the register and
the input together, run over the exclusive or of two inputs from the
exclusive or of two registers ends in the exclusive or of the two runs
(`foldl_zipWith_xor`). That is the algebra of a CRC or BCH checksum: the
register run over a text and its check symbols is the register run over
the text and zeros, moved by the run over the check symbols alone.
-/
import Mathlib

namespace NibiruWasm.Text.Bits

-- ========================================================= bit strings

/-- The low `w` bits of `n`, the most significant first. -/
def bitsOf : ℕ → ℕ → List Bool
  | 0, _ => []
  | w + 1, n => n.testBit w :: bitsOf w n

@[simp] theorem bitsOf_zero (n : ℕ) : bitsOf 0 n = [] := rfl

theorem bitsOf_succ (w n : ℕ) : bitsOf (w + 1) n = n.testBit w :: bitsOf w n := rfl

@[simp] theorem length_bitsOf (w n : ℕ) : (bitsOf w n).length = w := by
  induction w with
  | zero => rfl
  | succ w ih => rw [bitsOf_succ, List.length_cons, ih]

/-- Numbers with the same low `w` bits have the same bit string. -/
theorem bitsOf_congr {w m n : ℕ} (h : ∀ i < w, m.testBit i = n.testBit i) :
    bitsOf w m = bitsOf w n := by
  induction w with
  | zero => rfl
  | succ w ih => rw [bitsOf_succ, bitsOf_succ, h w (by omega), ih fun i hi => h i (by omega)]

/-- And only they. -/
theorem testBit_of_bitsOf_eq {w m n : ℕ} (h : bitsOf w m = bitsOf w n) :
    ∀ i < w, m.testBit i = n.testBit i := by
  induction w with
  | zero => intro i hi; omega
  | succ w ih =>
      rw [bitsOf_succ, bitsOf_succ, List.cons.injEq] at h
      intro i hi
      rcases Nat.lt_succ_iff_lt_or_eq.mp hi with hi | rfl
      · exact ih h.2 i hi
      · exact h.1

/-- A number below `2 ^ w` has no bit at `w` or above. -/
theorem testBit_of_lt_two_pow {w i n : ℕ} (hn : n < 2 ^ w) (hi : w ≤ i) : n.testBit i = false :=
  Nat.testBit_lt_two_pow (lt_of_lt_of_le hn (Nat.pow_le_pow_right (by omega) hi))

/-- Two numbers below `2 ^ w` with one bit string are equal. -/
theorem bitsOf_inj {w m n : ℕ} (hm : m < 2 ^ w) (hn : n < 2 ^ w) (h : bitsOf w m = bitsOf w n) :
    m = n := by
  apply Nat.eq_of_testBit_eq
  intro i
  by_cases hi : i < w
  · exact testBit_of_bitsOf_eq h i hi
  · rw [testBit_of_lt_two_pow hm (by omega), testBit_of_lt_two_pow hn (by omega)]

@[simp] theorem bitsOf_zero_right (w : ℕ) : bitsOf w 0 = List.replicate w false := by
  induction w with
  | zero => rfl
  | succ w ih => rw [bitsOf_succ, ih, Nat.zero_testBit, List.replicate_succ]

/-- The low `a + b` bits: the `a` above the low `b`, then the low `b`. -/
theorem bitsOf_add (a b n : ℕ) : bitsOf (a + b) n = bitsOf a (n >>> b) ++ bitsOf b n := by
  induction a with
  | zero => rw [Nat.zero_add, bitsOf_zero, List.nil_append]
  | succ a ih =>
      rw [Nat.add_right_comm, bitsOf_succ, ih, bitsOf_succ, Nat.testBit_shiftRight, Nat.add_comm b a,
        List.cons_append]

/-- A number below `2 ^ b` has zeros above its low `b` bits. -/
theorem bitsOf_of_lt {b n : ℕ} (a : ℕ) (hn : n < 2 ^ b) :
    bitsOf (a + b) n = List.replicate a false ++ bitsOf b n := by
  rw [bitsOf_add, Nat.shiftRight_eq_div_pow, Nat.div_eq_of_lt hn, bitsOf_zero_right]

/-- Reducing modulo `2 ^ k` keeps the low `w ≤ k` bits. -/
theorem bitsOf_mod_two_pow {w k : ℕ} (h : w ≤ k) (n : ℕ) : bitsOf w (n % 2 ^ k) = bitsOf w n :=
  bitsOf_congr fun i hi => by
    rw [Nat.testBit_mod_two_pow, decide_eq_true (by omega : i < k), Bool.true_and]

/-- Shifting up `b` places appends `b` zeros. -/
theorem bitsOf_shiftLeft (a b n : ℕ) :
    bitsOf (a + b) (n <<< b) = bitsOf a n ++ List.replicate b false := by
  have hlow : bitsOf b (n <<< b) = bitsOf b 0 :=
    bitsOf_congr fun i hi => by
      rw [Nat.testBit_shiftLeft, decide_eq_false (by omega : ¬i ≥ b), Bool.false_and,
        Nat.zero_testBit]
  rw [bitsOf_add, Nat.shiftLeft_shiftRight, hlow, bitsOf_zero_right]

/-- The bits of an `or` are the `or` of the bits. -/
theorem bitsOf_or (w m n : ℕ) :
    bitsOf w (m ||| n) = List.zipWith (· || ·) (bitsOf w m) (bitsOf w n) := by
  induction w with
  | zero => rfl
  | succ w ih => rw [bitsOf_succ, bitsOf_succ, bitsOf_succ, Nat.testBit_or, ih, List.zipWith_cons_cons]

/-- Below bits shifted up `k` places, exclusive or is addition. -/
theorem shiftLeft_xor_of_lt {k v : ℕ} (x : ℕ) (hv : v < 2 ^ k) : (x <<< k) ^^^ v = 2 ^ k * x + v := by
  apply Nat.eq_of_testBit_eq
  intro i
  rw [Nat.testBit_xor, Nat.testBit_shiftLeft, Nat.testBit_two_pow_mul_add x hv]
  by_cases hi : i < k
  · rw [if_pos hi, decide_eq_false (by omega : ¬i ≥ k), Bool.false_and, Bool.false_xor]
  · -- above bit `k` only `x` has bits
    rw [if_neg hi, decide_eq_true (by omega : i ≥ k), Bool.true_and,
      testBit_of_lt_two_pow hv (by omega), Bool.xor_false]

/-- A number is zero below bit `w` exactly when its low `w` bits are. -/
theorem bitsOf_eq_replicate_iff {w n : ℕ} : bitsOf w n = List.replicate w false ↔ n % 2 ^ w = 0 := by
  rw [← bitsOf_mod_two_pow (le_refl w) n, ← bitsOf_zero_right]
  exact ⟨bitsOf_inj (Nat.mod_lt _ (by positivity)) (by positivity), fun h => by rw [h]⟩

/-- `or` of a string padded with zeros and zeros followed by a string,
the two lined up: the one string, then the other. -/
theorem zipWith_or_append {p q : List Bool} {m n : ℕ} (hp : p.length = m) (hq : q.length = n) :
    List.zipWith (· || ·) (p ++ List.replicate n false) (List.replicate m false ++ q) = p ++ q := by
  subst hp hq
  have hright : ∀ l : List Bool, List.zipWith (· || ·) l (List.replicate l.length false) = l := by
    intro l
    induction l with
    | nil => rfl
    | cons b l ih => rw [List.length_cons, List.replicate_succ, List.zipWith_cons_cons, ih, Bool.or_false]
  have hleft : ∀ l : List Bool, List.zipWith (· || ·) (List.replicate l.length false) l = l := by
    intro l
    induction l with
    | nil => rfl
    | cons b l ih => rw [List.length_cons, List.replicate_succ, List.zipWith_cons_cons, ih, Bool.false_or]
  rw [List.zipWith_append (by rw [List.length_replicate]), hright, hleft]

-- ===================================================== strings of values

section Values

variable {α : Type*} {w : ℕ} {f : α → ℕ}

theorem length_flatMap_bitsOf (xs : List α) :
    (xs.flatMap fun x => bitsOf w (f x)).length = w * xs.length := by
  induction xs with
  | nil => rfl
  | cons x xs ih => rw [List.flatMap_cons, List.length_append, ih, length_bitsOf, List.length_cons,
      Nat.mul_succ, Nat.add_comm]

/-- Values of a positive width, each below `2 ^ w` and read through an
injective `f`, are determined by their bits. -/
theorem flatMap_bitsOf_inj (hw : 0 < w) (hf : Function.Injective f) (hlt : ∀ x, f x < 2 ^ w) :
    ∀ {xs ys : List α}, (xs.flatMap fun x => bitsOf w (f x)) = (ys.flatMap fun x => bitsOf w (f x)) →
      xs = ys
  | [], [], _ => rfl
  | [], y :: ys, h => by
      have := congrArg List.length h
      rw [List.flatMap_nil, List.length_nil, length_flatMap_bitsOf, List.length_cons] at this
      exact absurd this (by positivity)
  | x :: xs, [], h => by
      have := congrArg List.length h
      rw [List.flatMap_nil, List.length_nil, length_flatMap_bitsOf, List.length_cons] at this
      exact absurd this.symm (by positivity)
  | x :: xs, y :: ys, h => by
      rw [List.flatMap_cons, List.flatMap_cons] at h
      -- the first `w` bits are the heads' bits, the rest the tails'
      obtain ⟨hhead, htail⟩ := List.append_inj h (by rw [length_bitsOf, length_bitsOf])
      rw [hf (bitsOf_inj (hlt x) (hlt y) hhead), flatMap_bitsOf_inj hw hf hlt htail]

end Values

-- ==================================================== linear registers

section Linear

variable {σ α : Type*} [XorOp σ] [XorOp α] {step : σ → α → σ}

/-- A register linear in exclusive or, run over the exclusive or of two
inputs of one length from the exclusive or of two registers, ends in the
exclusive or of the two runs. -/
theorem foldl_zipWith_xor (hstep : ∀ a b v u, step (a ^^^ b) (v ^^^ u) = step a v ^^^ step b u) :
    ∀ (vs us : List α) (a b : σ), vs.length = us.length →
      (List.zipWith (· ^^^ ·) vs us).foldl step (a ^^^ b) = vs.foldl step a ^^^ us.foldl step b
  | [], [], _, _, _ => rfl
  | v :: vs, u :: us, a, b, h => by
      rw [List.zipWith_cons_cons, List.foldl_cons, hstep,
        foldl_zipWith_xor hstep vs us _ _ (Nat.succ.inj h), List.foldl_cons, List.foldl_cons]
  | [], _ :: _, _, _, h => absurd h (by simp)
  | _ :: _, [], _, _, h => absurd h (by simp)

end Linear

end NibiruWasm.Text.Bits
