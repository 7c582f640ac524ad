/-
nibiru-std's `DecimalExt` arithmetic against the integers.

A `DecimalExt` denotes a signed count of `10^-18` units, `toInt`. On
canonical values (the sign is `Zero` exactly for a zero magnitude) the
count determines the value (`Canonical.toInt_injective`), so the derived
`PartialEq` is equality of the signed values.

# Against the integers

- `neg` is negation and keeps values canonical;
- `add` and `sub` on canonical values are the integer sum and
  difference, stay canonical, and commit exactly when the result's
  magnitude fits in a `Uint128` (`Canonical.add_eq_ok`,
  `Canonical.add_ok_iff`);
- `mul` and `quo` compute the sign from the factors' signs, apart from
  the magnitude: the sign of the exact result times `Decimal`'s rounded
  product or quotient (`mul_toInt`, `quo_toInt`). When that rounds to a
  zero magnitude the sign stays `Positive` or `Negative`, and the result
  is not canonical.

`Canonical.arithmetic` states these together.

# The order

`#[derive(PartialOrd, Ord)]` compares the sign's discriminant first
(`Positive < Negative < Zero`, the declaration order) and the magnitude
second (`DecimalExt.cmp`). That is not the order of the signed values:
every positive value is below every negative one, and among negative
values the larger magnitude is the greater.
-/
import NibiruWasm.NibiruStd.Math
import NibiruWasm.Chain.Except

namespace NibiruWasm.NibiruStd

open Cosmwasm Chain

/-- The integer a sign multiplies by. -/
def Sign.toInt : Sign → ℤ
  | .positive => 1
  | .negative => -1
  | .zero => 0

theorem Sign.toInt_injective {s t : Sign} (h : s.toInt = t.toInt) : s = t := by
  cases s <;> cases t <;> first | rfl | (simp [Sign.toInt] at h)

/-- Opposite nonzero signs cancel. -/
theorem Sign.toInt_eq_neg {s t : Sign} (hst : s ≠ t) (hs : s ≠ .zero) (ht : t ≠ .zero) :
    s.toInt = -t.toInt := by
  cases s <;> cases t <;> simp_all [Sign.toInt]

/-- The discriminant `#[derive(Ord)]` orders `Sign` by: the declaration
order `Positive`, `Negative`, `Zero`. -/
def Sign.discriminant : Sign → ℕ
  | .positive => 0
  | .negative => 1
  | .zero => 2

namespace DecimalExt

/-- The value of a `DecimalExt`: its signed count of `10^-18` units. -/
def toInt (d : DecimalExt) : ℤ := d.sign.toInt * d.dec.atomics

/-- The sign of a product is the product of the signs. -/
@[simp] theorem toInt_mulSign (s t : Sign) : (mulSign s t).toInt = s.toInt * t.toInt := by
  cases s <;> cases t <;> rfl

variable {a b c d : DecimalExt}

-- ======================================================= canonical

theorem Canonical.atomics_ne_zero (hd : d.Canonical) (hs : d.sign ≠ .zero) :
    d.dec.atomics ≠ 0 :=
  fun h => hs (hd.mpr h)

/-- A canonical value's count is its magnitude, with its sign. -/
theorem Canonical.toInt_cases (hd : d.Canonical) :
    (d.sign = .positive ∧ d.toInt = d.dec.atomics ∧ 0 < d.dec.atomics)
      ∨ (d.sign = .negative ∧ d.toInt = -d.dec.atomics ∧ 0 < d.dec.atomics)
      ∨ (d.sign = .zero ∧ d.toInt = 0 ∧ d.dec.atomics = 0) := by
  cases hs : d.sign with
  | positive =>
      have hnz := hd.atomics_ne_zero (by simp [hs])
      exact .inl ⟨rfl, by simp [toInt, hs, Sign.toInt], Nat.pos_of_ne_zero hnz⟩
  | negative =>
      have hnz := hd.atomics_ne_zero (by simp [hs])
      exact .inr (.inl ⟨rfl, by simp [toInt, hs, Sign.toInt], Nat.pos_of_ne_zero hnz⟩)
  | zero => exact .inr (.inr ⟨rfl, by simp [toInt, hs, Sign.toInt], hd.mp hs⟩)

theorem Canonical.natAbs_toInt (hd : d.Canonical) : d.toInt.natAbs = d.dec.atomics := by
  rcases hd.toInt_cases with ⟨-, h, -⟩ | ⟨-, h, -⟩ | ⟨-, h, h0⟩
  · rw [h, Int.natAbs_natCast]
  · rw [h, Int.natAbs_neg, Int.natAbs_natCast]
  · rw [h, h0, Int.natAbs_zero]

/-- A canonical value's sign is the sign of its count. -/
theorem Canonical.sign_toInt (hd : d.Canonical) : d.sign.toInt = d.toInt.sign := by
  rcases hd.toInt_cases with ⟨hs, h, hpos⟩ | ⟨hs, h, hpos⟩ | ⟨hs, h, -⟩
  · rw [hs, h, Int.sign_natCast_of_ne_zero (by omega)]
    rfl
  · rw [hs, h, Int.sign_neg, Int.sign_natCast_of_ne_zero (by omega)]
    rfl
  · rw [hs, h]
    rfl

/-- Canonical values are determined by their counts: the derived
`PartialEq` is equality of the signed values. -/
theorem Canonical.toInt_injective (ha : a.Canonical) (hb : b.Canonical)
    (h : a.toInt = b.toInt) : a = b := by
  have hsign : a.sign = b.sign := Sign.toInt_injective (by rw [ha.sign_toInt, hb.sign_toInt, h])
  have hdec : a.dec = b.dec := Decimal.ext (by rw [← ha.natAbs_toInt, ← hb.natAbs_toInt, h])
  cases a
  cases b
  simp only at hsign hdec
  rw [hsign, hdec]

-- ======================================================== negation

@[simp] theorem toInt_neg (d : DecimalExt) : d.neg.toInt = -d.toInt := by
  unfold neg toInt
  cases hs : d.sign <;> simp [Sign.toInt, hs]

theorem Canonical.neg (hd : d.Canonical) : d.neg.Canonical := by
  unfold DecimalExt.neg Canonical at *
  cases hs : d.sign <;> simp_all

-- ========================================================= addition

/-- `Decimal` addition adds the magnitudes. -/
theorem Decimal.add_eq_ok {x y z : Decimal} (h : x.add y = .ok z) :
    z.atomics = x.atomics + y.atomics :=
  Decimal.ofAtomics_eq_ok.mp h

/-- `Decimal` subtraction of a smaller magnitude subtracts. -/
theorem Decimal.sub_eq_ok {x y z : Decimal} (h : x.sub y = .ok z) :
    y.atomics ≤ x.atomics ∧ z.atomics = x.atomics - y.atomics := by
  unfold Cosmwasm.Decimal.sub at h
  split at h
  · exact ⟨‹_›, Decimal.ofAtomics_eq_ok.mp h⟩
  · cases h

/-- Equal signs: the magnitudes add under the common sign. -/
theorem Canonical.add_of_sign_eq (ha : a.Canonical) (hb : b.Canonical) (hs : a.sign = b.sign)
    (h : a.add b = .ok c) : c.Canonical ∧ c.toInt = a.toInt + b.toInt := by
  simp only [DecimalExt.add, if_pos hs, bind_eq_ok, pure_eq_ok] at h
  obtain ⟨dec, hdec, rfl⟩ := h
  have hsum := Decimal.add_eq_ok hdec
  unfold Canonical toInt at *
  rw [hsum, ← hs]
  rw [← hs] at hb
  constructor
  · rw [Nat.add_eq_zero_iff]
    exact ⟨fun hz => ⟨ha.mp hz, hb.mp hz⟩, fun hz => ha.mpr hz.1⟩
  · push_cast
    ring

/-- Opposite signs: the smaller magnitude is taken from the larger,
whose sign the result takes, made `Zero` when they are equal. -/
theorem Canonical.add_of_sign_ne (ha : a.Canonical) (hb : b.Canonical) (hs : a.sign ≠ b.sign)
    (h : a.add b = .ok c) : c.Canonical ∧ c.toInt = a.toInt + b.toInt := by
  by_cases hz : b.dec.isZero = true
  · -- `other` is zero: the result is `self`
    simp only [DecimalExt.add, if_neg hs, hz, if_true, pure_eq_ok] at h
    subst h
    have hb0 : b.sign = .zero := hb.mpr (Decimal.isZero_iff.mp hz)
    exact ⟨ha, by simp [toInt, hb0, Sign.toInt]⟩
  have hbnz : b.dec.atomics ≠ 0 := fun h0 => hz (Decimal.isZero_iff.mpr h0)
  have hbs : b.sign ≠ .zero := fun h0 => hbnz (hb.mp h0)
  rw [Bool.not_eq_true] at hz
  by_cases hle : b.dec.atomics ≤ a.dec.atomics
  · -- `self` is the larger: its sign, the difference of the magnitudes
    simp only [DecimalExt.add, if_neg hs, hz, Bool.false_eq_true, if_false, decide_eq_true hle,
      if_true, bind_eq_ok, pure_eq_ok] at h
    obtain ⟨dec, hdec, rfl⟩ := h
    have hdiff := (Decimal.sub_eq_ok hdec).2
    have has : a.sign ≠ .zero := fun h0 => hbnz (by have := ha.mp h0; omega)
    have hneg := Sign.toInt_eq_neg hs has hbs
    unfold Canonical toInt
    by_cases hd0 : dec.atomics = 0
    · -- equal magnitudes cancel to a canonical zero
      have heq : a.dec.atomics = b.dec.atomics := by omega
      have hdz : dec.isZero = true := Decimal.isZero_iff.mpr hd0
      simp only [hdz, if_true]
      refine ⟨⟨fun _ => hd0, fun _ => trivial⟩, ?_⟩
      rw [hneg, heq, hd0]
      push_cast
      ring
    · have hdz : dec.isZero = false := Decimal.isZero_eq_false_iff.mpr hd0
      simp only [hdz, Bool.false_eq_true, if_false]
      refine ⟨⟨fun h0 => absurd h0 has, fun h0 => absurd h0 hd0⟩, ?_⟩
      rw [hneg, hdiff, Nat.cast_sub hle]
      ring
  · -- `other` is the larger: its sign, the difference the other way
    have hlt : a.dec.atomics < b.dec.atomics := Nat.lt_of_not_le hle
    simp only [DecimalExt.add, if_neg hs, hz, Bool.false_eq_true, if_false, decide_eq_false hle,
      bind_eq_ok, pure_eq_ok] at h
    obtain ⟨dec, hdec, rfl⟩ := h
    have hdiff := (Decimal.sub_eq_ok hdec).2
    have hd0 : dec.atomics ≠ 0 := by omega
    have hdz : dec.isZero = false := Decimal.isZero_eq_false_iff.mpr hd0
    unfold Canonical toInt
    simp only [hdz, Bool.false_eq_true, if_false]
    refine ⟨⟨fun h0 => absurd h0 hbs, fun h0 => absurd h0 hd0⟩, ?_⟩
    rw [hdiff, Nat.cast_sub hlt.le]
    -- `self` is zero, or of the opposite sign
    by_cases has : a.sign = .zero
    · have ha0 := ha.mp has
      simp [has, ha0, Sign.toInt]
    · rw [Sign.toInt_eq_neg hs has hbs]
      ring

/-- On canonical values `add` is the integer sum, and stays canonical. -/
theorem Canonical.add_eq_ok (ha : a.Canonical) (hb : b.Canonical) (h : a.add b = .ok c) :
    c.Canonical ∧ c.toInt = a.toInt + b.toInt := by
  by_cases hs : a.sign = b.sign
  · exact ha.add_of_sign_eq hb hs h
  · exact ha.add_of_sign_ne hb hs h

/-- A canonical result's magnitude fits. -/
theorem Canonical.natAbs_toInt_lt (hd : d.Canonical) : d.toInt.natAbs < 2 ^ 128 := by
  rw [hd.natAbs_toInt]
  exact d.dec.atomics_lt

/-- Under equal signs the magnitude of the sum is the sum of the
magnitudes. -/
theorem Canonical.natAbs_add_of_sign_eq (ha : a.Canonical) (hb : b.Canonical)
    (hs : a.sign = b.sign) :
    (a.toInt + b.toInt).natAbs = a.dec.atomics + b.dec.atomics := by
  have hsum : a.toInt + b.toInt = a.sign.toInt * ((a.dec.atomics + b.dec.atomics : ℕ) : ℤ) := by
    unfold toInt
    rw [← hs]
    push_cast
    ring
  rw [hsum, Int.natAbs_mul, Int.natAbs_natCast]
  cases has : a.sign with
  | zero =>
      have h1 := ha.mp has
      have h2 := hb.mp (hs ▸ has)
      simp [h1, h2]
  | positive => simp [Sign.toInt]
  | negative => simp [Sign.toInt]

/-- On canonical values `add` commits exactly when the magnitude of the
sum fits in a `Uint128`; only equal signs can overflow. -/
theorem Canonical.add_ok_iff (ha : a.Canonical) (hb : b.Canonical) :
    (∃ c, a.add b = .ok c) ↔ (a.toInt + b.toInt).natAbs < 2 ^ 128 := by
  constructor
  · rintro ⟨c, h⟩
    obtain ⟨hc, hsum⟩ := ha.add_eq_ok hb h
    rw [← hsum]
    exact hc.natAbs_toInt_lt
  · intro hlt
    by_cases hs : a.sign = b.sign
    · rw [ha.natAbs_add_of_sign_eq hb hs] at hlt
      have hdec : a.dec.add b.dec = .ok ⟨_, hlt⟩ := Decimal.ofAtomics_eq_ok.mpr rfl
      exact ⟨_, by simp only [DecimalExt.add, if_pos hs, hdec, ok_bind]; rfl⟩
    by_cases hz : b.dec.isZero = true
    · exact ⟨a, by simp only [DecimalExt.add, if_neg hs, hz, if_true]; rfl⟩
    rw [Bool.not_eq_true] at hz
    -- opposite signs: the larger magnitude minus the smaller never fails
    by_cases hle : b.dec.atomics ≤ a.dec.atomics
    · obtain ⟨dec, hdec, -⟩ := Decimal.sub_of_le hle
      exact ⟨_, by
        simp only [DecimalExt.add, if_neg hs, hz, Bool.false_eq_true, if_false,
          decide_eq_true hle, if_true, hdec, ok_bind]
        rfl⟩
    · obtain ⟨dec, hdec, -⟩ := Decimal.sub_of_le (Nat.le_of_lt (Nat.lt_of_not_le hle))
      exact ⟨_, by
        simp only [DecimalExt.add, if_neg hs, hz, Bool.false_eq_true, if_false,
          decide_eq_false hle, hdec, ok_bind]
        rfl⟩

/-- On canonical values `sub` is the integer difference, and stays
canonical. -/
theorem Canonical.sub_eq_ok (ha : a.Canonical) (hb : b.Canonical) (h : a.sub b = .ok c) :
    c.Canonical ∧ c.toInt = a.toInt - b.toInt := by
  obtain ⟨hc, hsum⟩ := ha.add_eq_ok hb.neg h
  refine ⟨hc, ?_⟩
  rw [hsum, toInt_neg, Int.sub_eq_add_neg]

-- ==================================================== product, quotient

/-- `mul`: the sign of the exact product, times `Decimal`'s product
rounded down to 18 places. -/
theorem mul_toInt (h : a.mul b = .ok c) :
    c.sign = mulSign a.sign b.sign
      ∧ c.dec.atomics = a.dec.atomics * b.dec.atomics / 10 ^ Decimal.decimalPlaces
      ∧ c.toInt = (a.sign.toInt * b.sign.toInt) * c.dec.atomics := by
  simp only [DecimalExt.mul, bind_eq_ok, pure_eq_ok] at h
  obtain ⟨dec, hdec, rfl⟩ := h
  exact ⟨rfl, Decimal.ofAtomics_eq_ok.mp hdec, by simp [toInt]⟩

/-- The sign `quo` computes for a nonzero divisor is the product of the
signs. -/
theorem quoSign_toInt {s t r : Sign} (ht : t ≠ .zero) (h : quoSign s t = .ok r) :
    r.toInt = s.toInt * t.toInt := by
  cases s <;> cases t <;> simp_all [quoSign, Sign.toInt] <;> subst h <;> rfl

/-- `quo` by a nonzero divisor: the sign of the exact quotient, times
`Decimal`'s quotient rounded down to 18 places. -/
theorem quo_toInt (hb : b.sign ≠ .zero) (h : a.quo b = .ok (.ok c)) :
    c.sign.toInt = a.sign.toInt * b.sign.toInt
      ∧ c.dec.atomics = a.dec.atomics * 10 ^ Decimal.decimalPlaces / b.dec.atomics := by
  unfold DecimalExt.quo at h
  cases hq : quoSign a.sign b.sign with
  | error err =>
      rw [hq] at h
      cases h
  | ok sign =>
      rw [hq] at h
      simp only [bind_eq_ok, pure_eq_ok, Except.ok.injEq] at h
      obtain ⟨dec, hdec, rfl⟩ := h
      refine ⟨quoSign_toInt hb hq, ?_⟩
      unfold Cosmwasm.Decimal.div at hdec
      split at hdec
      · cases hdec
      · exact Decimal.ofAtomics_eq_ok.mp hdec

-- =========================================================== order

/-- `#[derive(PartialOrd, Ord)]` on `DecimalExt`: the fields in order,
the sign's discriminant first, then the magnitude (`Decimal`'s own
derived order, by its `Uint128`). -/
def cmp (a b : DecimalExt) : Ordering :=
  (compare a.sign.discriminant b.sign.discriminant).then (compare a.dec.atomics b.dec.atomics)

/-- The decimal `10^-18 * n` with sign `s`. -/
def ofUnits (s : Sign) (n : ℕ) (h : n < 2 ^ 128) : DecimalExt := ⟨s, ⟨n, h⟩⟩

/-- Two products of canonical nonzero decimals that round to a zero
magnitude, and two comparisons the derived order gets wrong:

- `10^-18 * 10^-18` is `Positive` with magnitude 0, and `10^-18 / 10` is
  too: neither is canonical;
- `1 < -1` and `-2 > -1` by the derived order. -/
theorem mul_quo_order_counterexample :
    (ofUnits .positive 1 (by decide)).Canonical
      ∧ (ofUnits .positive 1 (by decide)).mul (ofUnits .positive 1 (by decide))
          = .ok (ofUnits .positive 0 (by decide))
      ∧ ¬(ofUnits .positive 0 (by decide)).Canonical
      ∧ (ofUnits .positive 1 (by decide)).quo (ofUnits .positive (10 ^ 19) (by decide))
          = .ok (.ok (ofUnits .positive 0 (by decide)))
      ∧ cmp (ofUnits .positive (10 ^ 18) (by decide)) (ofUnits .negative (10 ^ 18) (by decide))
          = .lt
      ∧ (ofUnits .negative (10 ^ 18) (by decide)).toInt < (ofUnits .positive (10 ^ 18) (by decide)).toInt
      ∧ cmp (ofUnits .negative (2 * 10 ^ 18) (by decide)) (ofUnits .negative (10 ^ 18) (by decide))
          = .gt
      ∧ (ofUnits .negative (2 * 10 ^ 18) (by decide)).toInt
          < (ofUnits .negative (10 ^ 18) (by decide)).toInt :=
  ⟨by decide, rfl, by decide, rfl, rfl, by decide, rfl, by decide⟩

-- ==================================================== all of it at once

/-- `DecimalExt`'s arithmetic on canonical values against the integers:
equal counts are equal values, `neg` is negation, `add` and `sub` are
the exact sum and difference and stay canonical,
`add` commits exactly when the sum's magnitude fits in a `Uint128`, and
`mul` and `quo` are the sign of the exact result times `Decimal`'s
product or quotient of the magnitudes, rounded down. -/
theorem Canonical.arithmetic (ha : a.Canonical) (hb : b.Canonical) :
    (a.toInt = b.toInt → a = b)
      ∧ a.neg.Canonical ∧ a.neg.toInt = -a.toInt
      ∧ (∀ c, a.add b = .ok c → c.Canonical ∧ c.toInt = a.toInt + b.toInt)
      ∧ ((∃ c, a.add b = .ok c) ↔ (a.toInt + b.toInt).natAbs < 2 ^ 128)
      ∧ (∀ c, a.sub b = .ok c → c.Canonical ∧ c.toInt = a.toInt - b.toInt)
      ∧ (∀ c, a.mul b = .ok c → c.sign = mulSign a.sign b.sign
          ∧ c.dec.atomics = a.dec.atomics * b.dec.atomics / 10 ^ Decimal.decimalPlaces
          ∧ c.toInt = (a.sign.toInt * b.sign.toInt) * c.dec.atomics)
      ∧ (b.sign ≠ .zero → ∀ c, a.quo b = .ok (.ok c) → c.sign.toInt = a.sign.toInt * b.sign.toInt
          ∧ c.dec.atomics = a.dec.atomics * 10 ^ Decimal.decimalPlaces / b.dec.atomics) :=
  ⟨ha.toInt_injective hb, ha.neg, toInt_neg a, fun _ h => ha.add_eq_ok hb h, ha.add_ok_iff hb, fun _ h => ha.sub_eq_ok hb h, fun _ h => mul_toInt h,
    fun hs _ h => quo_toInt hs h⟩

/-- The arithmetic at `1` and `-2`. -/
theorem Canonical.arithmetic_one_two :
    (ofUnits .positive (10 ^ 18) (by decide)).Canonical
      ∧ (ofUnits .negative (2 * 10 ^ 18) (by decide)).Canonical
      ∧ (∀ c, (ofUnits .positive (10 ^ 18) (by decide)).add (ofUnits .negative (2 * 10 ^ 18) (by decide))
          = .ok c → c.Canonical ∧ c.toInt = -10 ^ 18)
      ∧ (∀ c, (ofUnits .positive (10 ^ 18) (by decide)).mul (ofUnits .negative (2 * 10 ^ 18) (by decide))
          = .ok c → c.toInt = -(2 * 10 ^ 18)) := by
  have ha : (ofUnits .positive (10 ^ 18) (by decide)).Canonical := by decide
  have hb : (ofUnits .negative (2 * 10 ^ 18) (by decide)).Canonical := by decide
  obtain ⟨-, -, -, hadd, -, -, hmul, -⟩ := Canonical.arithmetic ha hb
  refine ⟨ha, hb, fun c hc => ?_, fun c hc => ?_⟩
  · obtain ⟨hcan, hint⟩ := hadd c hc
    exact ⟨hcan, by rw [hint]; decide⟩
  · obtain ⟨-, hatomics, hint⟩ := hmul c hc
    rw [hint, hatomics]
    decide

end DecimalExt

end NibiruWasm.NibiruStd
