/-
`cosmwasm_std::Decimal`, as nibiru-std's `math.rs` uses it.

A `Decimal` is a `Uint128` count of `10^-18` units: the structure
carries the bound, so no out-of-range value can be built. Its operators
panic where cosmwasm's do, and a panic is `StdError.panic` as for
`Uint128`.

cosmwasm_std is not part of the repository, and its text functions are
parameters: a `DecimalLib` is a `Display` and a `FromStr`. What the
codec of nibiru-std relies on is stated as two hypotheses:

- `DisplaySpec`: the text is the whole part, then, when there is one,
  `.` and at most 18 fractional digits, and it denotes the value;
- `FromStrSpec`: a text `whole.frac` with at most 18 fractional digits
  parses exactly to the decimal it denotes, when there is one.

`DecimalFormat.lean` gives an implementation meeting both.
-/
import NibiruWasm.Cosmwasm.Std
import NibiruWasm.Text.Digits

namespace NibiruWasm.Cosmwasm

open Text

/-- `Decimal::DECIMAL_PLACES`. -/
def Decimal.decimalPlaces : ℕ := 18

/-- `cosmwasm_std::Decimal`: its `Uint128` count of `10^-18` units. -/
@[ext] structure Decimal where
  atomics : ℕ
  atomics_lt : atomics < 2 ^ 128
  deriving DecidableEq

namespace Decimal

/-- `Decimal::zero`. -/
def zero : Decimal := ⟨0, by positivity⟩

/-- `Decimal::one`: `10^18` units. -/
def one : Decimal := ⟨10 ^ decimalPlaces, by norm_num [decimalPlaces]⟩

/-- `Decimal::new`: a `Uint128` read as a count of units, not as a
whole number. -/
def new (value : ℕ) (h : value < 2 ^ 128) : Decimal := ⟨value, h⟩

/-- `Decimal::is_zero`. -/
def isZero (d : Decimal) : Bool := d.atomics == 0

@[simp] theorem isZero_iff {d : Decimal} : d.isZero = true ↔ d.atomics = 0 := by
  simp [isZero]

@[simp] theorem isZero_eq_false_iff {d : Decimal} : d.isZero = false ↔ d.atomics ≠ 0 := by
  simp [isZero]

/-- A count of units as a `Decimal`, panicking with `msg` when it does
not fit. -/
def ofAtomics (msg : String) (n : ℕ) : Except StdError Decimal :=
  if h : n < 2 ^ 128 then .ok ⟨n, h⟩ else .error (.panic msg)

@[simp] theorem ofAtomics_eq_ok {msg : String} {n : ℕ} {d : Decimal} :
    ofAtomics msg n = .ok d ↔ d.atomics = n := by
  unfold ofAtomics
  split
  · next h =>
      constructor
      · intro hd
        cases hd
        rfl
      · intro hd
        rw [Except.ok.injEq]
        exact Decimal.ext hd.symm
  · next h =>
      simp only [reduceCtorEq, false_iff]
      intro hd
      exact h (hd ▸ d.atomics_lt)

-- ========================================================= operators

/-- `Decimal + Decimal`: panics on overflow. -/
def add (a b : Decimal) : Except StdError Decimal :=
  ofAtomics "attempt to add with overflow" (a.atomics + b.atomics)

/-- `Decimal - Decimal`: panics below zero. -/
def sub (a b : Decimal) : Except StdError Decimal :=
  if b.atomics ≤ a.atomics then ofAtomics "attempt to subtract with overflow" (a.atomics - b.atomics)
  else .error (.panic "attempt to subtract with overflow")

/-- `Decimal * Decimal`: the product rounded down to 18 places, panicking
when it does not fit. -/
def mul (a b : Decimal) : Except StdError Decimal :=
  ofAtomics "attempt to multiply with overflow" (a.atomics * b.atomics / 10 ^ decimalPlaces)

/-- `Decimal / Decimal`: the quotient rounded down to 18 places
(`Decimal::checked_from_ratio`), panicking on a zero divisor or when it
does not fit. -/
def div (a b : Decimal) : Except StdError Decimal :=
  if b.atomics = 0 then .error (.panic "Division failed - denominator must not be zero")
  else ofAtomics "Division failed - multiplication overflow" (a.atomics * 10 ^ decimalPlaces / b.atomics)

/-- `Decimal::from_ratio`: `numerator / denominator` rounded down to 18
places, panicking on a zero denominator or when it does not fit. -/
def fromRatio (numerator denominator : ℕ) : Except StdError Decimal :=
  if denominator = 0 then .error (.panic "Denominator must not be zero")
  else ofAtomics "Multiplication overflow" (numerator * 10 ^ decimalPlaces / denominator)

theorem sub_of_le {a b : Decimal} (h : b.atomics ≤ a.atomics) :
    ∃ d : Decimal, sub a b = .ok d ∧ d.atomics = a.atomics - b.atomics := by
  have hlt : a.atomics - b.atomics < 2 ^ 128 := lt_of_le_of_lt (Nat.sub_le _ _) a.atomics_lt
  exact ⟨⟨_, hlt⟩, by simp [sub, h], rfl⟩

theorem zero_atomics : zero.atomics = 0 := rfl

theorem one_atomics : one.atomics = 10 ^ decimalPlaces := rfl

theorem add_eq_ok_iff {a b d : Decimal} : a.add b = .ok d ↔ d.atomics = a.atomics + b.atomics :=
  ofAtomics_eq_ok

theorem mul_eq_ok_iff {a b d : Decimal} :
    a.mul b = .ok d ↔ d.atomics = a.atomics * b.atomics / 10 ^ decimalPlaces :=
  ofAtomics_eq_ok

theorem div_eq_ok_iff {a b d : Decimal} :
    a.div b = .ok d ↔ b.atomics ≠ 0 ∧ d.atomics = a.atomics * 10 ^ decimalPlaces / b.atomics := by
  unfold div
  by_cases hb : b.atomics = 0
  · simp [hb]
  · simp [hb]

end Decimal

-- ============================================== the text interface

/-- The text functions of `Decimal` that nibiru-std calls. -/
structure DecimalLib where
  display : Decimal → List Char
  fromStr : List Char → Except StdError Decimal

/-- `Display` writes the whole part, then, when there is one, `.` and at
most 18 fractional digits, and the text denotes the decimal. -/
def DecimalLib.DisplaySpec (lib : DecimalLib) : Prop :=
  ∀ d : Decimal, ∃ whole frac, IsDigits whole ∧ whole ≠ [] ∧ IsDigits frac
    ∧ frac.length ≤ Decimal.decimalPlaces ∧ lib.display d = fixedPoint whole frac
    ∧ fixedValue Decimal.decimalPlaces whole frac = d.atomics

/-- `FromStr` parses a text `whole.frac` with at most 18 fractional
digits to exactly the decimal it denotes: it succeeds when that fits in
a `Uint128` and returns it. -/
def DecimalLib.FromStrSpec (lib : DecimalLib) : Prop :=
  ∀ whole frac, IsDigits whole → whole ≠ [] → IsDigits frac → frac ≠ [] →
    frac.length ≤ Decimal.decimalPlaces →
      ∀ d : Decimal, lib.fromStr (whole ++ '.' :: frac) = .ok d
        ↔ d.atomics = fixedValue Decimal.decimalPlaces whole frac

end NibiruWasm.Cosmwasm
