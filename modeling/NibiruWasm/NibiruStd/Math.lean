/-
nibiru-std's `math.rs`: `DecimalExt`, a signed `cosmwasm_std::Decimal`,
and `SdkDec`, a decimal in the protobuf text form of the Cosmos SDK's
`LegacyDec`.

A `DecimalExt` is a sign and a magnitude; the type does not force the
sign of zero to be `Zero`, and `Canonical` says when it is. Its
arithmetic panics where `Decimal`'s does. `quo` returns a `Result`
and can also panic, so it has two layers: the panic outside, the
`Result` inside.

The protobuf form is the count of `10^-18` units written as an
integer, with a `-` for a negative value. `to_sdk_dec_pb_repr` builds
it from `Decimal`'s text: it drops the point and pads the fraction to
18 digits. `from_sdk_dec` puts the point back 18 digits from the right
and parses the result with `DecimalExt::from_str`. Texts are lists of
characters; an error message turns them into a `String`.
-/
import NibiruWasm.Cosmwasm.Decimal

namespace NibiruWasm.NibiruStd

open Cosmwasm Text

/-- `Sign`: `Positive` and `Negative` exclude zero. -/
inductive Sign
  | positive
  | negative
  | zero
  deriving DecidableEq, Repr

/-- `MathError`. -/
inductive MathError
  | divisionByZero
  | cwDecParseError (decStr : String) (err : StdError)
  | sdkDecError (msg : String)
  deriving DecidableEq, Repr

/-- `MathError`'s `Display`. -/
def MathError.display : MathError → String
  | .divisionByZero => "division by zero not well defined"
  | .cwDecParseError decStr err =>
      "could not parse decimal from string \"" ++ decStr ++ "\": " ++ err.display
  | .sdkDecError msg => "could not parse to cosmosdk.io/math.LegacyDec: " ++ msg

/-- `DecimalExt`: a sign and the magnitude as a `Decimal`. -/
structure DecimalExt where
  sign : Sign
  dec : Decimal
  deriving DecidableEq

namespace DecimalExt

/-- `DecimalExt::zero`, the default. -/
def zero : DecimalExt := ⟨.zero, Decimal.zero⟩

/-- The sign is `Zero` exactly when the magnitude is zero. -/
def Canonical (d : DecimalExt) : Prop := d.sign = .zero ↔ d.dec.atomics = 0

instance (d : DecimalExt) : Decidable d.Canonical :=
  inferInstanceAs (Decidable (d.sign = .zero ↔ d.dec.atomics = 0))

-- ======================================================== arithmetic

/-- `DecimalExt::add`: magnitudes add under equal signs; otherwise the
smaller one is taken from the larger, which gives its sign. -/
def add (self other : DecimalExt) : Except StdError DecimalExt :=
  if self.sign = other.sign then do
    let dec ← self.dec.add other.dec
    pure ⟨self.sign, dec⟩
  else if other.dec.isZero then pure self
  else do
    let selfDecGt := decide (other.dec.atomics ≤ self.dec.atomics)
    let sign := if selfDecGt then self.sign else other.sign
    let dec ← if selfDecGt then self.dec.sub other.dec else other.dec.sub self.dec
    let sign := if dec.isZero then Sign.zero else sign
    pure ⟨sign, dec⟩

/-- `DecimalExt::neg`. -/
def neg (self : DecimalExt) : DecimalExt :=
  match self.sign with
  | .positive => ⟨.negative, self.dec⟩
  | .negative => ⟨.positive, self.dec⟩
  | .zero => self

/-- `DecimalExt::sub`. -/
def sub (self other : DecimalExt) : Except StdError DecimalExt :=
  self.add other.neg

/-- The sign of a product: `Zero` if a factor's sign is. -/
def mulSign : Sign → Sign → Sign
  | .zero, _ | _, .zero => .zero
  | .positive, .positive | .negative, .negative => .positive
  | .positive, .negative | .negative, .positive => .negative

/-- `DecimalExt::mul`. -/
def mul (self other : DecimalExt) : Except StdError DecimalExt := do
  let dec ← self.dec.mul other.dec
  pure ⟨mulSign self.sign other.sign, dec⟩

/-- The sign of a quotient: `Zero` for a zero dividend, an error for a
zero divisor. -/
def quoSign : Sign → Sign → Except MathError Sign
  | .zero, _ => .ok .zero
  | _, .zero => .error .divisionByZero
  | .positive, .positive | .negative, .negative => .ok .positive
  | .positive, .negative | .negative, .positive => .ok .negative

/-- `DecimalExt::quo`: the sign first, then `Decimal` division, which
panics on a zero magnitude. -/
def quo (self other : DecimalExt) : Except StdError (Except MathError DecimalExt) :=
  match quoSign self.sign other.sign with
  | .error err => pure (.error err)
  | .ok sign => do
      let dec ← self.dec.div other.dec
      pure (.ok ⟨sign, dec⟩)

/-- `From<Decimal>`: zero, or positive. -/
def ofDecimal (cwDec : Decimal) : DecimalExt :=
  if cwDec.isZero then zero else ⟨.positive, cwDec⟩

-- ============================================================== text

variable (lib : DecimalLib)

/-- `FromStr for DecimalExt`: a leading `-` makes a nonzero value
negative; the rest is parsed by `Decimal`'s `FromStr`. -/
def fromStr (s : List Char) : Except MathError DecimalExt := do
  let nonStrictSign := if s.head? = some '-' then Sign.negative else .positive
  let absValue := (stripPrefix '-' s).getD s
  let cwDec ← (lib.fromStr absValue).mapError fun cwStdErr => .cwDecParseError (String.ofList s) cwStdErr
  let sign := if cwDec.isZero then Sign.zero else nonStrictSign
  pure ⟨sign, cwDec⟩

/-- `Display for DecimalExt`. -/
def display (d : DecimalExt) : List Char :=
  (if d.sign = .negative then ['-'] else []) ++ lib.display d.dec

/-- `DecimalExt::precision_digits`. -/
def precisionDigits : ℕ := 18

/-- The integer and fractional parts of `Decimal`'s text split at `.`. -/
def intFracParts (absStr : List Char) : List (List Char) → Except MathError (List Char × List Char)
  | [intPart, fracPart] => .ok (intPart, fracPart)
  | [intPart] => .ok (intPart, [])
  | _ => .error (.sdkDecError ("Invalid decimal format: " ++ String.ofList absStr))

/-- `DecimalExt::to_sdk_dec_pb_repr`. -/
def toSdkDecPbRepr (self : DecimalExt) : Except MathError (List Char) :=
  if self.dec.isZero then .ok (List.replicate precisionDigits '0')
  else do
    let absStr := lib.display self.dec
    let neg := self.sign == .negative
    let parts := absStr.splitOn '.'
    let (intPart, fracPart) ← intFracParts absStr parts
    if intPart.isEmpty || (parts.length == 2 && fracPart.isEmpty) then
      throw (.sdkDecError ("Expected decimal string but got: " ++ String.ofList absStr))
    let sdkDec := intPart ++ fracPart
    if precisionDigits < fracPart.length then
      throw (.sdkDecError ("Value exceeds max precision digits (" ++ toString precisionDigits
        ++ "): " ++ String.ofList absStr))
    let sdkDec := sdkDec ++ List.replicate (precisionDigits - fracPart.length) '0'
    let sdkDec := if neg then '-' :: sdkDec else sdkDec
    pure sdkDec

/-- The sign flag and the rest of a protobuf text. -/
def stripSign (sdkDecStr : List Char) : Bool × List Char :=
  match stripPrefix '-' sdkDecStr with
  | some stripped => (true, stripped)
  | none => (false, sdkDecStr)

/-- The point put back 18 digits from the right, after a `0` and zeros
when there are at most 18 digits. -/
def insertPoint (absStr : List Char) : List Char :=
  let inputSize := absStr.length
  if inputSize ≤ precisionDigits then
    '0' :: '.' :: (List.replicate (precisionDigits - inputSize) '0' ++ absStr)
  else
    let decPointPlace := inputSize - precisionDigits
    absStr.take decPointPlace ++ '.' :: absStr.drop decPointPlace

/-- `DecimalExt::from_sdk_dec`. -/
def fromSdkDec (sdkDecStr : List Char) : Except MathError DecimalExt :=
  if sdkDecStr.isEmpty then .ok zero
  else if '.' ∈ sdkDecStr then
    .error (.sdkDecError ("Expected a decimal string but got '" ++ String.ofList sdkDecStr ++ "'"))
  else
    let (neg, absStr) := stripSign sdkDecStr
    if absStr.isEmpty || absStr.any (fun c => !c.isDigit) then
      .error (.sdkDecError ("Invalid decimal format: " ++ String.ofList sdkDecStr))
    else
      let decimalStr := insertPoint absStr
      let decimalStr := if neg then '-' :: decimalStr else decimalStr
      fromStr lib decimalStr

end DecimalExt

-- ============================================================ SdkDec

/-- `SdkDec`: the protobuf text of a `LegacyDec`. -/
structure SdkDec where
  protobufRepr : List Char
  deriving DecidableEq

namespace SdkDec

variable (lib : DecimalLib)

/-- `SdkDec::new`. -/
def new (dec : DecimalExt) : Except MathError SdkDec := do
  let protobufRepr ← dec.toSdkDecPbRepr lib
  pure ⟨protobufRepr⟩

/-- `SdkDec::pb_repr`. -/
def pbRepr (sd : SdkDec) : List Char := sd.protobufRepr

/-- `SdkDec::from_dec`. -/
def fromDec (dec : DecimalExt) : Except MathError SdkDec := new lib dec

/-- `SdkDec::from_cw_dec`. -/
def fromCwDec (cwDec : Decimal) : Except MathError SdkDec := new lib (DecimalExt.ofDecimal cwDec)

/-- `FromStr for SdkDec`. -/
def fromStr (s : List Char) : Except MathError SdkDec := do
  let dec ← DecimalExt.fromStr lib s
  new lib dec

/-- `Display for SdkDec`: decodes the protobuf text and writes the
decimal, panicking when it does not decode. -/
def display (sd : SdkDec) : Except StdError (List Char) :=
  match DecimalExt.fromSdkDec lib sd.pbRepr with
  | .ok dec => .ok (dec.display lib)
  | .error err => .error (.panic ("ParseError: could not marshal SdkDec "
      ++ String.ofList sd.protobufRepr ++ " to DecimalExt: " ++ err.display))

end SdkDec

end NibiruWasm.NibiruStd
