/-
An implementation of `Decimal`'s `Display` and `FromStr` with the
layout of cosmwasm_std's, and the proofs that it meets `DisplaySpec`
and `FromStrSpec`. It makes the hypotheses of the codec theorems
satisfiable and lets the codec run on concrete texts.

`Display` writes the whole part and, when the fraction is not zero,
`.` and the fraction's 18 digits without trailing zeros. `FromStr`
splits at `.`, parses the parts as `Uint128`s and scales the fraction
by its number of digits, with checked arithmetic throughout.
-/
import NibiruWasm.Cosmwasm.Decimal
import NibiruWasm.Chain.Except

namespace NibiruWasm.Cosmwasm

open Text Chain

namespace Decimal

/-- `Display for Decimal`. -/
def display (d : Decimal) : List Char :=
  let whole := d.atomics / 10 ^ decimalPlaces
  let fractional := d.atomics % 10 ^ decimalPlaces
  if fractional = 0 then render whole
  else render whole ++ '.' :: trimEndZeros (padLeft decimalPlaces (render fractional))

/-- `u128::from_str`: an optional `+`, then one or more digits denoting
less than `2^128`. -/
def parseU128 (s : List Char) : Option ℕ :=
  let digits := (stripPrefix '+' s).getD s
  if digits ≠ [] ∧ IsDigits digits ∧ value digits < 2 ^ 128 then some (value digits) else none

/-- A `Uint128` parse whose failure is reported as `msg`. -/
def parseUint128 (msg : String) (s : List Char) : Except StdError ℕ :=
  match parseU128 s with
  | some n => .ok n
  | none => .error (.genericErr msg)

/-- The count of units once checked arithmetic has bounded it. -/
def checkedAtomics (n : ℕ) : Except StdError Decimal :=
  if h : n < 2 ^ 128 then .ok ⟨n, h⟩ else .error (.genericErr "Value too big")

/-- The fractional part of `FromStr`, when there is one: its digits
scaled to 18 places and added to the whole part's units. -/
def addFractional (atomics : ℕ) : Option (List Char) → Except StdError ℕ
  | none => .ok atomics
  | some fractionalPart => do
      let fractional ← parseUint128 "Error parsing fractional" fractionalPart
      if decimalPlaces < fractionalPart.length then
        throw (.genericErr "Cannot parse more than 18 fractional digits")
      (checkedAdd atomics (fractional * 10 ^ (decimalPlaces - fractionalPart.length))).mapError
        fun _ => .genericErr "Value too big"

/-- `FromStr for Decimal`. -/
def fromStr (input : List Char) : Except StdError Decimal := do
  let parts := input.splitOn '.'
  let whole ← parseUint128 "Error parsing whole" (parts.headD [])
  let atomics ← (checkedMul whole (10 ^ decimalPlaces)).mapError fun _ => .genericErr "Value too big"
  let atomics ← addFractional atomics (parts.drop 1).head?
  if 2 < parts.length then throw (.genericErr "Unexpected number of dots")
  checkedAtomics atomics

-- ============================================================ display

/-- The fractional digits `Display` writes: none for a whole number. -/
def fractionDigits (d : Decimal) : List Char :=
  if d.atomics % 10 ^ decimalPlaces = 0 then []
  else trimEndZeros (padLeft decimalPlaces (render (d.atomics % 10 ^ decimalPlaces)))

/-- The 18 padded digits of a nonzero fraction are its trimmed digits
followed by zeros, and they denote the fraction. -/
theorem fractionDigits_spec (d : Decimal) (h : d.atomics % 10 ^ decimalPlaces ≠ 0) :
    fractionDigits d ≠ [] ∧ (fractionDigits d).length ≤ decimalPlaces
      ∧ value (fractionDigits d) * 10 ^ (decimalPlaces - (fractionDigits d).length)
        = d.atomics % 10 ^ decimalPlaces := by
  have hlen : (render (d.atomics % 10 ^ decimalPlaces)).length ≤ decimalPlaces :=
    length_render_le (by decide) (Nat.mod_lt _ (by positivity))
  have hpad := length_padLeft (k := decimalPlaces) hlen
  have hval := value_trimEndZeros (padLeft decimalPlaces (render (d.atomics % 10 ^ decimalPlaces)))
  rw [value_padLeft, value_render, hpad] at hval
  simp only [fractionDigits, h, if_false]
  refine ⟨fun hnil => ?_, ?_, hval.symm⟩
  · -- an empty trimmed text would denote zero
    rw [hnil, value_nil, zero_mul] at hval
    exact h hval
  · exact (length_trimEndZeros_le _).trans hpad.le

theorem display_eq (d : Decimal) :
    d.display = fixedPoint (render (d.atomics / 10 ^ decimalPlaces)) (fractionDigits d) := by
  by_cases h : d.atomics % 10 ^ decimalPlaces = 0
  · simp [display, fixedPoint, fractionDigits, h]
  · have hne := (fractionDigits_spec d h).1
    simp only [display, fixedPoint, hne, if_false, h]
    simp [fractionDigits, h]

theorem display_spec : DecimalLib.DisplaySpec ⟨display, fromStr⟩ := by
  intro d
  refine ⟨render (d.atomics / 10 ^ decimalPlaces), fractionDigits d, isDigits_render _,
    render_ne_nil _, ?_, ?_, display_eq d, ?_⟩
  · by_cases h : d.atomics % 10 ^ decimalPlaces = 0
    · simp [fractionDigits, h]
    · simp only [fractionDigits, h, if_false]
      exact ((isDigits_render _).padLeft _).trimEndZeros
  · by_cases h : d.atomics % 10 ^ decimalPlaces = 0
    · simp [fractionDigits, h]
    · exact (fractionDigits_spec d h).2.1
  · -- the whole part's units and the fraction add up to the count
    have hsplit := Nat.div_add_mod d.atomics (10 ^ decimalPlaces)
    by_cases h : d.atomics % 10 ^ decimalPlaces = 0
    · simp only [fixedValue, value_render, fractionDigits, h, value_nil, zero_mul, add_zero,
        if_true]
      rw [h, add_zero] at hsplit
      rw [mul_comm]
      exact hsplit
    · rw [fixedValue, value_render, (fractionDigits_spec d h).2.2, mul_comm]
      exact hsplit

-- ============================================================ parsing

theorem parseU128_of_isDigits {s : List Char} (hs : IsDigits s) (hne : s ≠ []) :
    parseU128 s = if value s < 2 ^ 128 then some (value s) else none := by
  have hdigits : (stripPrefix '+' s).getD s = s := by
    rw [stripPrefix_of_head_ne (head?_ne_of_isDigits hs (by decide)), Option.getD_none]
  simp only [parseU128, hdigits, ne_eq, hne, not_false_eq_true, hs, true_and]

theorem parseUint128_eq_ok {msg : String} {s : List Char} (hs : IsDigits s) (hne : s ≠ [])
    {n : ℕ} : parseUint128 msg s = .ok n ↔ value s < 2 ^ 128 ∧ n = value s := by
  unfold parseUint128
  rw [parseU128_of_isDigits hs hne]
  by_cases h : value s < 2 ^ 128
  · rw [if_pos h, Except.ok.injEq]
    exact ⟨fun hn => ⟨h, hn.symm⟩, fun hn => hn.2.symm⟩
  · rw [if_neg h]
    simp only [reduceCtorEq, false_iff, not_and]
    exact fun hlt => absurd hlt h

@[simp] theorem checkedAtomics_eq_ok {n : ℕ} {d : Decimal} :
    checkedAtomics n = .ok d ↔ d.atomics = n := by
  unfold checkedAtomics
  split
  · next h =>
      constructor
      · intro hd
        cases hd
        rfl
      · intro hd
        rw [Except.ok.injEq]
        exact Decimal.ext hd.symm
  · next h =>
      simp only [reduceCtorEq, false_iff]
      intro hd
      exact h (hd ▸ d.atomics_lt)

/-- The parts of a text `whole.frac` of digits. -/
theorem splitOn_point {whole frac : List Char} (hw : IsDigits whole) (hf : IsDigits frac) :
    (whole ++ '.' :: frac).splitOn '.' = [whole, frac] := by
  rw [List.splitOn_append_cons_self_of_not_mem (not_mem_of_isDigits hw (by decide)),
    List.splitOn_eq_singleton (not_mem_of_isDigits hf (by decide))]

/-- What `addFractional` does with the digits of a fraction. -/
theorem addFractional_eq_ok {frac : List Char} (hf : IsDigits frac) (hfne : frac ≠ [])
    (hlen : frac.length ≤ decimalPlaces) {atomics n : ℕ} :
    addFractional atomics (some frac) = .ok n
      ↔ value frac < 2 ^ 128 ∧ n = atomics + value frac * 10 ^ (decimalPlaces - frac.length)
        ∧ n ≤ Uint128.MAX := by
  have hnot : ¬ decimalPlaces < frac.length := by omega
  simp only [addFractional, bind_eq_ok, parseUint128_eq_ok hf hfne, throw_bind, hnot,
    ite_throw_eq_ok, not_false_eq_true, true_and, mapError_eq_ok, checkedAdd_eq_ok]
  constructor
  · rintro ⟨_, ⟨hlt, rfl⟩, hle, rfl⟩
    exact ⟨hlt, rfl, hle⟩
  · rintro ⟨hlt, rfl, hle⟩
    exact ⟨_, ⟨hlt, rfl⟩, hle, rfl⟩

section point

variable {whole frac : List Char} (hw : IsDigits whole) (hwne : whole ≠ []) (hf : IsDigits frac)
  (hfne : frac ≠ []) (hlen : frac.length ≤ decimalPlaces)

omit hwne hfne hlen in
/-- On a text `whole.frac` of digits, `FromStr` is its chain of checked
steps: there is no third part. -/
theorem fromStr_point (hw : IsDigits whole) (hf : IsDigits frac) :
    fromStr (whole ++ '.' :: frac) = (do
      let w ← parseUint128 "Error parsing whole" whole
      let a ← (checkedMul w (10 ^ decimalPlaces)).mapError fun _ => .genericErr "Value too big"
      let a ← addFractional a (some frac)
      checkedAtomics a) := by
  simp only [fromStr, splitOn_point hw hf, List.headD_cons, List.drop_succ_cons, List.drop_zero,
    List.head?_cons, List.length_cons, List.length_nil, zero_add, Nat.reduceAdd,
    lt_self_iff_false, if_false]

include hw hwne hf hfne hlen

/-- A parse of `whole.frac` returns the units the text denotes. -/
theorem fromStr_point_atomics {d : Decimal} (h : fromStr (whole ++ '.' :: frac) = .ok d) :
    d.atomics = fixedValue decimalPlaces whole frac := by
  rw [fromStr_point hw hf] at h
  simp only [bind_eq_ok, parseUint128_eq_ok hw hwne, mapError_eq_ok, checkedMul_eq_ok,
    addFractional_eq_ok hf hfne hlen, checkedAtomics_eq_ok] at h
  obtain ⟨_, ⟨-, rfl⟩, _, ⟨-, rfl⟩, _, ⟨-, rfl, -⟩, hd⟩ := h
  rw [hd, fixedValue]

/-- A text `whole.frac` that denotes less than `2^128` parses. -/
theorem fromStr_point_of_lt (hlt : fixedValue decimalPlaces whole frac < 2 ^ 128) :
    fromStr (whole ++ '.' :: frac) = .ok ⟨_, hlt⟩ := by
  -- every intermediate count is at most the final one
  have hwhole : value whole * 10 ^ decimalPlaces ≤ fixedValue decimalPlaces whole frac :=
    Nat.le_add_right _ _
  have hwlt : value whole < 2 ^ 128 :=
    lt_of_le_of_lt (Nat.le_mul_of_pos_right _ (by positivity : 0 < 10 ^ decimalPlaces))
      (lt_of_le_of_lt hwhole hlt)
  have hflt : value frac < 2 ^ 128 :=
    calc value frac < 10 ^ frac.length := value_lt hf
      _ ≤ 10 ^ decimalPlaces := Nat.pow_le_pow_right (by norm_num) hlen
      _ < 2 ^ 128 := by norm_num [decimalPlaces]
  have hparse : parseUint128 "Error parsing whole" whole = .ok (value whole) :=
    (parseUint128_eq_ok hw hwne).mpr ⟨hwlt, rfl⟩
  have hmul : (checkedMul (value whole) (10 ^ decimalPlaces)).mapError
      (fun _ => StdError.genericErr "Value too big") = .ok (value whole * 10 ^ decimalPlaces) :=
    mapError_eq_ok.mpr (checkedMul_eq_ok.mpr ⟨le_MAX_iff.mpr (lt_of_le_of_lt hwhole hlt), rfl⟩)
  have hfrac : addFractional (value whole * 10 ^ decimalPlaces) (some frac)
      = .ok (fixedValue decimalPlaces whole frac) :=
    (addFractional_eq_ok hf hfne hlen).mpr ⟨hflt, rfl, le_MAX_iff.mpr hlt⟩
  rw [fromStr_point hw hf, hparse, ok_bind, hmul, ok_bind, hfrac, ok_bind]
  exact checkedAtomics_eq_ok.mpr rfl

end point

theorem fromStr_spec : DecimalLib.FromStrSpec ⟨display, fromStr⟩ := by
  intro whole frac hw hwne hf hfne hlen d
  constructor
  · exact fromStr_point_atomics hw hwne hf hfne hlen
  · intro hd
    have hlt : fixedValue decimalPlaces whole frac < 2 ^ 128 := hd ▸ d.atomics_lt
    show fromStr (whole ++ '.' :: frac) = .ok d
    rw [fromStr_point_of_lt hw hwne hf hfne hlen hlt]
    exact congrArg Except.ok (Decimal.ext hd.symm)

end Decimal

/-- The text functions above, as a `DecimalLib`. -/
def DecimalLib.std : DecimalLib := ⟨Decimal.display, Decimal.fromStr⟩

theorem DecimalLib.std_displaySpec : DecimalLib.std.DisplaySpec := Decimal.display_spec

theorem DecimalLib.std_fromStrSpec : DecimalLib.std.FromStrSpec := Decimal.fromStr_spec

example : Decimal.display ⟨1500000000000000000, by norm_num⟩ = "1.5".toList := by decide

example : Decimal.fromStr "420.69".toList = .ok ⟨420690000000000000000, by norm_num⟩ := by decide

end NibiruWasm.Cosmwasm
