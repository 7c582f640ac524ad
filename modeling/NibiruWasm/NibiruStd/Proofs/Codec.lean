/-
The `SdkDec` codec of nibiru-std round-trips, in both directions.

The encoding is described by one lemma, the decoding by two; each
names the text it produces or reads, so that the round trips are
assembled without opening the codec again:

- `toSdkDecPbRepr_spec` (given `DisplaySpec`): encoding never fails,
  and writes a `-`, exactly for a negative nonzero value, followed by
  digits that denote the magnitude's units;
- `fromSdkDec_signPrefix`: decoding `-`? digits is `DecimalExt`'s
  parse of the same digits with the point put back (`insertPoint_spec`
  says where);
- `fromSdkDec_eq_ok` (given `FromStrSpec`): it returns exactly the
  decimal with those units and the sign of the text, made `Zero` for
  zero, when the units fit.
-/
import NibiruWasm.NibiruStd.Math
import NibiruWasm.Cosmwasm.DecimalFormat
import NibiruWasm.Chain.Except

namespace NibiruWasm.NibiruStd

open Cosmwasm Text Chain

/-- The sign a count of units gets from a text, negative when `neg`:
`Zero` for zero. -/
def signOf (neg : Bool) (n : ℕ) : Sign :=
  if n = 0 then .zero else if neg then .negative else .positive

theorem signOf_flag (neg : Bool) (n : ℕ) :
    (signOf neg n == .negative && !(n == 0)) = (neg && n != 0) := by
  by_cases hn : n = 0
  · simp [signOf, hn]
  · have hb : (n == 0) = false := beq_eq_false_iff_ne.mpr hn
    cases neg <;> simp [signOf, hn, hb, bne]

/-- A canonical decimal has the sign its magnitude and its sign flag
give. -/
theorem DecimalExt.Canonical.sign_eq {d : DecimalExt} (hd : d.Canonical) :
    d.sign = signOf (d.sign == .negative && !d.dec.isZero) d.dec.atomics := by
  unfold DecimalExt.Canonical at hd
  cases hs : d.sign with
  | zero => simp [signOf, hd.mp hs]
  | positive =>
      have hnz : d.dec.atomics ≠ 0 := fun h => by simp [hd.mpr h] at hs
      simp [signOf, hnz]
  | negative =>
      have hnz : d.dec.atomics ≠ 0 := fun h => by simp [hd.mpr h] at hs
      simp [signOf, hnz, Decimal.isZero]

theorem signPrefix_append (neg : Bool) (l : List Char) :
    signPrefix neg ++ l = if neg then '-' :: l else l := by
  cases neg <;> rfl

variable (lib : DecimalLib)

-- ========================================================= encoding

/-- Splitting `Decimal`'s text gives back its two parts. -/
theorem intFracParts_fixedPoint {whole frac : List Char} (hw : IsDigits whole)
    (hf : IsDigits frac) (absStr : List Char) :
    DecimalExt.intFracParts absStr ((fixedPoint whole frac).splitOn '.') = .ok (whole, frac) := by
  rw [splitOn_fixedPoint (not_mem_of_isDigits hw (by decide)) (not_mem_of_isDigits hf (by decide))]
  split
  · next h => rw [h]; rfl
  · rfl

/-- The second format check of the encoding passes on `Decimal`'s
text: a point comes with fractional digits. -/
theorem splitOn_fixedPoint_check {whole frac : List Char} (hw : IsDigits whole)
    (hf : IsDigits frac) :
    (((fixedPoint whole frac).splitOn '.').length == 2 && frac.isEmpty) = false := by
  rw [splitOn_fixedPoint (not_mem_of_isDigits hw (by decide)) (not_mem_of_isDigits hf (by decide))]
  by_cases h : frac = [] <;> simp [h]

/-- The encoding of a decimal: a `-` exactly for a negative nonzero
value, then digits that denote its units. -/
theorem toSdkDecPbRepr_spec (hD : lib.DisplaySpec) (d : DecimalExt) :
    ∃ ts, IsDigits ts ∧ ts ≠ [] ∧ value ts = d.dec.atomics
      ∧ d.toSdkDecPbRepr lib = .ok (signPrefix (d.sign == .negative && !d.dec.isZero) ++ ts) := by
  by_cases hz : d.dec.atomics = 0
  · -- zero is written as 18 zeros, with no sign
    have hzero : d.dec.isZero = true := Decimal.isZero_iff.mpr hz
    refine ⟨List.replicate DecimalExt.precisionDigits '0', isDigits_replicate_zero _,
      by simp [DecimalExt.precisionDigits], by simp [hz], ?_⟩
    simp [DecimalExt.toSdkDecPbRepr, hzero, signPrefix]
  · obtain ⟨whole, frac, hw, hwne, hf, hlen, hdisp, hval⟩ := hD d.dec
    have hnz : d.dec.isZero = false := Decimal.isZero_eq_false_iff.mpr hz
    have hlen' : ¬ DecimalExt.precisionDigits < frac.length := by
      simp only [DecimalExt.precisionDigits, Decimal.decimalPlaces] at hlen ⊢
      omega
    have hcheck : (whole.isEmpty || (((fixedPoint whole frac).splitOn '.').length == 2
        && frac.isEmpty)) = false := by
      rw [splitOn_fixedPoint_check hw hf, Bool.or_false, List.isEmpty_eq_false_iff]
      exact hwne
    refine ⟨whole ++ frac ++ List.replicate (DecimalExt.precisionDigits - frac.length) '0',
      by simp [hw, hf], by simp [hwne], ?_, ?_⟩
    · -- the digits are the text with the point dropped and the fraction padded
      rw [List.append_assoc, value_append, List.length_append, List.length_replicate, ← hval]
      have hp : frac.length + (DecimalExt.precisionDigits - frac.length) = Decimal.decimalPlaces := by
        simp only [DecimalExt.precisionDigits, Decimal.decimalPlaces] at hlen ⊢
        omega
      rw [hp, value_append_zeros, fixedValue]
      rfl
    · rw [DecimalExt.toSdkDecPbRepr, if_neg (by simp [hnz])]
      simp only [hdisp, intFracParts_fixedPoint hw hf, ok_bind, hcheck, Bool.false_eq_true,
        if_false, hlen', hnz, Bool.not_false, Bool.and_true, signPrefix_append]
      rfl

-- ========================================================= decoding

/-- Where `from_sdk_dec` puts the point: the text becomes `whole.frac`
with 18 fractional digits that denotes the same units. -/
theorem insertPoint_spec {ds : List Char} (hds : IsDigits ds) (hne : ds ≠ []) :
    ∃ whole frac, IsDigits whole ∧ whole ≠ [] ∧ IsDigits frac ∧ frac ≠ []
      ∧ frac.length ≤ Decimal.decimalPlaces ∧ DecimalExt.insertPoint ds = whole ++ '.' :: frac
      ∧ fixedValue Decimal.decimalPlaces whole frac = value ds := by
  have hpos : 0 < ds.length := List.length_pos_iff.mpr hne
  by_cases hsmall : ds.length ≤ DecimalExt.precisionDigits
  · -- a `0` before the point, the digits padded to 18 after it
    refine ⟨['0'], List.replicate (DecimalExt.precisionDigits - ds.length) '0' ++ ds,
      by decide, by simp, by simp [hds], by simp [hne], ?_, ?_, ?_⟩
    · simp only [List.length_append, List.length_replicate, DecimalExt.precisionDigits,
        Decimal.decimalPlaces] at hsmall ⊢
      omega
    · simp [DecimalExt.insertPoint, hsmall]
    · have hlen : (List.replicate (DecimalExt.precisionDigits - ds.length) '0' ++ ds).length
          = Decimal.decimalPlaces := by
        simp only [List.length_append, List.length_replicate, DecimalExt.precisionDigits,
          Decimal.decimalPlaces] at hsmall ⊢
        omega
      simp [fixedValue, hlen, value_cons, digitValue]
  · -- the last 18 digits after the point
    have hk : 0 < ds.length - DecimalExt.precisionDigits := by omega
    have hdrop : (ds.drop (ds.length - DecimalExt.precisionDigits)).length = Decimal.decimalPlaces := by
      simp only [List.length_drop, DecimalExt.precisionDigits, Decimal.decimalPlaces] at hsmall ⊢
      omega
    refine ⟨ds.take (ds.length - DecimalExt.precisionDigits),
      ds.drop (ds.length - DecimalExt.precisionDigits), hds.take _, ?_, hds.drop _, ?_, hdrop.le,
      by simp [DecimalExt.insertPoint, hsmall], ?_⟩
    · exact List.ne_nil_of_length_pos (by simp only [List.length_take]; omega)
    · exact List.ne_nil_of_length_pos (by rw [hdrop]; decide)
    · have hexp : ds.length - (ds.length - DecimalExt.precisionDigits) = Decimal.decimalPlaces := by
        simp only [DecimalExt.precisionDigits, Decimal.decimalPlaces] at hsmall ⊢
        omega
      rw [fixedValue, hdrop, Nat.sub_self, pow_zero, mul_one,
        value_take_drop ds (ds.length - DecimalExt.precisionDigits), hexp]

/-- `DecimalExt`'s parse of a text not starting with `-`, with a `-` in
front exactly when `neg`: the decimal the rest parses to, with the sign
of `neg` made `Zero` for zero. -/
theorem fromStr_signPrefix (neg : Bool) {rest : List Char} (hrest : rest.head? ≠ some '-') :
    DecimalExt.fromStr lib (signPrefix neg ++ rest)
      = (lib.fromStr rest).mapError (fun err => .cwDecParseError
          (String.ofList (signPrefix neg ++ rest)) err) >>= fun cwDec =>
            pure ⟨signOf neg cwDec.atomics, cwDec⟩ := by
  have hsign : ∀ cwDec : Decimal,
      (if cwDec.isZero = true then Sign.zero
        else if (signPrefix neg ++ rest).head? = some '-' then .negative else .positive)
        = signOf neg cwDec.atomics := by
    intro cwDec
    cases neg with
    | true => simp [signOf, signPrefix]
    | false =>
        simp only [signPrefix, Bool.false_eq_true, if_false, List.nil_append]
        simp [signOf, hrest]
  have hstrip : (stripPrefix '-' (signPrefix neg ++ rest)).getD (signPrefix neg ++ rest) = rest := by
    cases neg with
    | true => simp [signPrefix]
    | false => simp [signPrefix, stripPrefix_of_head_ne hrest]
  simp only [DecimalExt.fromStr, hstrip, hsign]

/-- Decoding `-`? digits is parsing the same digits with the point put
back. -/
theorem fromSdkDec_signPrefix (neg : Bool) {ds : List Char} (hds : IsDigits ds) (hne : ds ≠ []) :
    DecimalExt.fromSdkDec lib (signPrefix neg ++ ds)
      = DecimalExt.fromStr lib (signPrefix neg ++ DecimalExt.insertPoint ds) := by
  have hnonempty : (signPrefix neg ++ ds).isEmpty = false := by simp [hne]
  have hdot : '.' ∉ signPrefix neg ++ ds := by
    have hds' : '.' ∉ ds := not_mem_of_isDigits hds (by decide)
    cases neg <;> simp [signPrefix, hds']
  have hstrip : DecimalExt.stripSign (signPrefix neg ++ ds) = (neg, ds) := by
    cases neg with
    | true => simp [DecimalExt.stripSign, signPrefix]
    | false =>
        have hhead : ds.head? ≠ some '-' := head?_ne_of_isDigits hds (by decide)
        simp [DecimalExt.stripSign, signPrefix, stripPrefix_of_head_ne hhead]
  have hcheck : (ds.isEmpty || ds.any fun c => !c.isDigit) = false := by
    rw [isDigits_iff_any.mpr hds, Bool.or_false, List.isEmpty_eq_false_iff]
    exact hne
  rw [DecimalExt.fromSdkDec, if_neg (by simp [hnonempty]), if_neg hdot]
  simp only [hstrip, hcheck, Bool.false_eq_true, if_false]
  rw [signPrefix_append]

/-- Decoding `-`? digits returns exactly the decimal of the units the
digits denote, with the text's sign made `Zero` for zero. -/
theorem fromSdkDec_eq_ok (hF : lib.FromStrSpec) (neg : Bool) {ds : List Char} (hds : IsDigits ds)
    (hne : ds ≠ []) (d : DecimalExt) :
    DecimalExt.fromSdkDec lib (signPrefix neg ++ ds) = .ok d
      ↔ d.dec.atomics = value ds ∧ d.sign = signOf neg (value ds) := by
  obtain ⟨whole, frac, hw, hwne, hf, hfne, hlen, hpoint, hval⟩ := insertPoint_spec hds hne
  have hhead : (whole ++ '.' :: frac).head? ≠ some '-' := by
    obtain ⟨c, rest, rfl⟩ := List.exists_cons_of_ne_nil hwne
    simpa using head?_ne_of_isDigits hw (c := '-') (by decide)
  rw [fromSdkDec_signPrefix lib neg hds hne, hpoint, fromStr_signPrefix lib neg hhead]
  simp only [bind_eq_ok, mapError_eq_ok, pure_eq_ok, hF whole frac hw hwne hf hfne hlen, hval]
  constructor
  · rintro ⟨cwDec, hc, rfl⟩
    exact ⟨hc, by rw [hc]⟩
  · rintro ⟨hc, hs⟩
    refine ⟨d.dec, hc, ?_⟩
    rw [hc, ← hs]

-- ======================================================= round trips

/-- nibiru-std's `SdkDec` codec, given `Decimal`'s text layout:

- every canonical decimal decodes from its encoding to itself, so the
  `Display` of an `SdkDec` built by `SdkDec::new` writes the decimal;
- `SdkDec::new` never fails and the `Display` of what it builds never
  panics, for every decimal;
- every text `-`? digits that decodes encodes back to digits that
  denote the same units, with a `-` exactly when the text had one and
  the units are not zero. -/
theorem sdkDec_round_trip (hD : lib.DisplaySpec) (hF : lib.FromStrSpec) :
    (∀ d : DecimalExt, d.Canonical →
        (∃ repr, d.toSdkDecPbRepr lib = .ok repr ∧ DecimalExt.fromSdkDec lib repr = .ok d)
          ∧ ∀ sd, SdkDec.new lib d = .ok sd → sd.display lib = .ok (d.display lib))
    ∧ (∀ d : DecimalExt, ∃ sd, SdkDec.new lib d = .ok sd ∧ ∃ text, sd.display lib = .ok text)
    ∧ (∀ (neg : Bool) (ds : List Char), IsDigits ds → ds ≠ [] →
        ∀ d, DecimalExt.fromSdkDec lib (signPrefix neg ++ ds) = .ok d →
          ∃ ts, IsDigits ts ∧ value ts = value ds
            ∧ d.toSdkDecPbRepr lib = .ok (signPrefix (neg && value ds != 0) ++ ts)) := by
  -- what every encoding decodes to: the decimal with its sign made canonical
  have hdecode : ∀ d : DecimalExt, ∃ repr, d.toSdkDecPbRepr lib = .ok repr
      ∧ DecimalExt.fromSdkDec lib repr
        = .ok ⟨signOf (d.sign == .negative && !d.dec.isZero) d.dec.atomics, d.dec⟩ := by
    intro d
    obtain ⟨ts, hts, htsne, hval, henc⟩ := toSdkDecPbRepr_spec lib hD d
    refine ⟨_, henc, (fromSdkDec_eq_ok lib hF _ hts htsne _).mpr ⟨hval.symm, ?_⟩⟩
    rw [hval]
  have hnew : ∀ d : DecimalExt, ∀ sd, SdkDec.new lib d = .ok sd →
      d.toSdkDecPbRepr lib = .ok sd.protobufRepr := by
    intro d sd h
    simp only [SdkDec.new, bind_eq_ok, pure_eq_ok] at h
    obtain ⟨repr, hrepr, rfl⟩ := h
    exact hrepr
  refine ⟨fun d hd => ?_, fun d => ?_, fun neg ds hds hne d h => ?_⟩
  · -- a canonical decimal is its own canonical form
    obtain ⟨repr, henc, hdec⟩ := hdecode d
    have hself : (⟨signOf (d.sign == .negative && !d.dec.isZero) d.dec.atomics, d.dec⟩ :
        DecimalExt) = d := by
      rw [← hd.sign_eq]
    rw [hself] at hdec
    refine ⟨⟨repr, henc, hdec⟩, fun sd hsd => ?_⟩
    have hrepr : sd.protobufRepr = repr := Except.ok.inj ((hnew d sd hsd).symm.trans henc)
    simp only [SdkDec.display, SdkDec.pbRepr, hrepr, hdec]
  · obtain ⟨repr, henc, hdec⟩ := hdecode d
    refine ⟨⟨repr⟩, by simp [SdkDec.new, henc], ?_⟩
    simp [SdkDec.display, SdkDec.pbRepr, hdec]
  · -- the decoded decimal has the text's units and sign, so it encodes to them
    obtain ⟨hunits, hsign⟩ := (fromSdkDec_eq_ok lib hF neg hds hne d).mp h
    obtain ⟨ts, hts, -, hval, henc⟩ := toSdkDecPbRepr_spec lib hD d
    refine ⟨ts, hts, hval.trans hunits, ?_⟩
    rw [henc, hsign, Decimal.isZero, hunits, signOf_flag]

/-- The round trips with the text functions of `DecimalFormat`. -/
theorem sdkDec_round_trip_std :
    DecimalLib.std.DisplaySpec ∧ DecimalLib.std.FromStrSpec
      ∧ ((∀ d : DecimalExt, d.Canonical →
          (∃ repr, d.toSdkDecPbRepr DecimalLib.std = .ok repr
            ∧ DecimalExt.fromSdkDec DecimalLib.std repr = .ok d)
            ∧ ∀ sd, SdkDec.new DecimalLib.std d = .ok sd
              → sd.display DecimalLib.std = .ok (d.display DecimalLib.std))
        ∧ (∀ d : DecimalExt, ∃ sd, SdkDec.new DecimalLib.std d = .ok sd
            ∧ ∃ text, sd.display DecimalLib.std = .ok text)
        ∧ (∀ (neg : Bool) (ds : List Char), IsDigits ds → ds ≠ [] →
            ∀ d, DecimalExt.fromSdkDec DecimalLib.std (signPrefix neg ++ ds) = .ok d →
              ∃ ts, IsDigits ts ∧ value ts = value ds
                ∧ d.toSdkDecPbRepr DecimalLib.std = .ok (signPrefix (neg && value ds != 0) ++ ts))) :=
  ⟨DecimalLib.std_displaySpec, DecimalLib.std_fromStrSpec,
    sdkDec_round_trip DecimalLib.std DecimalLib.std_displaySpec DecimalLib.std_fromStrSpec⟩

example : DecimalExt.toSdkDecPbRepr DecimalLib.std ⟨.negative, ⟨123456000000000000000, by norm_num⟩⟩
    = .ok ('-' :: render 123456000000000000000) := by decide

example : (DecimalExt.fromSdkDec DecimalLib.std ['0', '0', '0', '5']).map
    (fun d => (d.sign, d.dec.atomics)) = .ok (.positive, 5) := by decide +kernel

end NibiruWasm.NibiruStd
