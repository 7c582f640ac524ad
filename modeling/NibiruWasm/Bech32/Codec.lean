/-
The bech32 crate, version 0.9.1, as nibiru-std calls it: `encode`,
`decode`, `ToBase32` for bytes and `FromBase32` for `Vec<u8>` (BIP-173,
with the checksum constant of BIP-350 as the second variant).

An address is a human-readable part, the separator `1`, a character of
`CHARSET` for each 5-bit group of data, and six characters of checksum.
The checksum is the `polymod` register, a BCH code over 5-bit groups,
run over the prefix's expansion, the data and six zeros, and moved by
the variant's constant; a text decodes when the register run over the
expansion, the data and the checksum ends in one of the two constants.

`check_hrp` reads the prefix as its UTF-8 bytes: 1 to 83 of them, from
`!` to `~`, not of mixed case; an upper-case prefix is lowered. `decode`
splits at the last `1`, reads the data characters in either case but
not in both, and drops the checksum; it sets no bound on the length of
the whole text. Where the crate wraps a value as `u5(..)` the value is
below 32, so the reduction in `toU5` does nothing. The register stays
below `2 ^ 30`, so its `u32` arithmetic never wraps and is computed on
`ℕ`.

`to_base32` regroups the bytes, the high bit first, through an 8-bit
buffer, and pads the last group with zeros. `from_base32` is
`convert_bits(data, 5, 8, false)`, whose `u32` accumulator wraps
(`% 2 ^ 32`) and which rejects four bits of padding or more, and padding
that is not zero. The panic of `convert_bits` on a width outside 1 to 8
is left out: `from_base32` calls it at 5 and 8, and the bound on the
rounds of its inner loop (`drainBits`) is enough for any width from 1.
-/
import NibiruWasm.NibiruStd.Address

namespace NibiruWasm.NibiruStd

/-- `Variant::constant`: `BECH32_CONST` and `BECH32M_CONST`. -/
def Variant.constant : Variant → ℕ
  | .bech32 => 1
  | .bech32m => 0x2bc830a3

/-- `Variant::from_remainder`. -/
def Variant.fromRemainder (c : ℕ) : Option Variant :=
  if c = 1 then some .bech32 else if c = 0x2bc830a3 then some .bech32m else none

end NibiruWasm.NibiruStd

namespace NibiruWasm.Bech32

open NibiruStd Text

-- ========================================================= characters

/-- `CHARSET`: the character of each 5-bit value. -/
def charset : List Char :=
  ['q', 'p', 'z', 'r', 'y', '9', 'x', '8', 'g', 'f', '2', 't', 'v', 'd', 'w', '0',
   's', '3', 'j', 'n', '5', '4', 'k', 'h', 'c', 'e', '6', 'm', 'u', 'a', '7', 'l']

/-- `u5(..)`: the crate wraps values below 32 only. -/
def toU5 (x : ℕ) : U5 := ⟨x % 32, Nat.mod_lt _ (by decide)⟩

/-- `u5::to_char`. -/
def toChar (d : U5) : Char := charset.getD d.val 'q'

/-- `CHARSET_REV`: the value of a character of `CHARSET` in either case,
and `none` for every other ASCII character (the table's `-1`). -/
def charsetRev (c : Char) : Option U5 :=
  let i := charset.idxOf c.toLower
  if h : i < 32 then some ⟨i, h⟩ else none

-- ============================================================ the prefix

/-- `Case`. -/
inductive Case
  | upper
  | lower
  | none
  deriving DecidableEq, Repr

/-- The loop of `check_hrp` over the prefix's bytes, with `has_lower`
and `has_upper`. -/
def checkHrpBytes : Bool → Bool → List UInt8 → Except Bech32Error (Bool × Bool)
  | hasLower, hasUpper, [] => .ok (hasLower, hasUpper)
  | hasLower, hasUpper, b :: bytes =>
      if ¬(33 ≤ b.toNat ∧ b.toNat ≤ 126) then .error (.invalidChar (Char.ofNat b.toNat))
      else
        let (hasLower, hasUpper) :=
          if 97 ≤ b.toNat ∧ b.toNat ≤ 122 then (true, hasUpper)
          else if 65 ≤ b.toNat ∧ b.toNat ≤ 90 then (hasLower, true)
          else (hasLower, hasUpper)
        if hasLower ∧ hasUpper then .error .mixedCase
        else checkHrpBytes hasLower hasUpper bytes

/-- `check_hrp`, on the prefix's bytes. -/
def checkHrp (hrp : List UInt8) : Except Bech32Error Case :=
  if hrp = [] ∨ hrp.length > 83 then .error .invalidLength
  else do
    let (hasLower, hasUpper) ← checkHrpBytes false false hrp
    -- `(true, true)` is unreachable: the loop fails on it first
    pure (if hasUpper ∧ ¬hasLower then .upper else if hasLower ∧ ¬hasUpper then .lower else .none)

/-- The prefix as `encode` and `split_and_decode` go on with it: lowered
when `check_hrp` finds it upper-case. -/
def lowerIfUpper : Case → List Char → List Char
  | .upper, hrp => hrp.map Char.toLower
  | _, hrp => hrp

/-- `hrp_expand`: the high three bits of each byte, a zero, the low five
of each. -/
def hrpExpand (hrp : List UInt8) : List U5 :=
  hrp.map (fun b => toU5 (b.toNat >>> 5)) ++ 0 :: hrp.map (fun b => toU5 (b.toNat &&& 0x1f))

-- ========================================================== the register

/-- `GEN`. -/
def gen : List ℕ := [0x3b6a57b2, 0x26508e6d, 0x1ea119fa, 0x3d4233dd, 0x2a1462b3]

/-- One round of the loop over `GEN.iter().enumerate()`: the entry
joins the register when its bit of `b` is set. -/
def genRound (b chk : ℕ) (entry : ℕ × ℕ) : ℕ :=
  if (b >>> entry.2) &&& 1 = 1 then chk ^^^ entry.1 else chk

/-- `polymod_step`, and a round of `polymod`: `b` is the register's top
five bits (`as u8`), the register moves up five places under `v`, and
`GEN` adds the feedback of `b`. -/
def polymodStep (chk : ℕ) (v : U5) : ℕ :=
  let b := (chk >>> 25) % 256
  gen.zipIdx.foldl (genRound b) (((chk &&& 0x1ffffff) <<< 5) ^^^ v.val)

/-- `polymod`. -/
def polymod (values : List U5) : ℕ := values.foldl polymodStep 1

/-- `verify_checksum`. -/
def verifyChecksum (hrp : List UInt8) (data : List U5) : Option Variant :=
  Variant.fromRemainder (polymod (hrpExpand hrp ++ data))

-- ============================================================== encoding

/-- `Bech32Writer::write_checksum`, from the register `chk` after the
prefix and the data: six zero rounds, the variant's constant, then the
register's six groups, the highest first. -/
def writeChecksum (chk : ℕ) (variant : Variant) : List Char :=
  let plm := (List.replicate 6 0).foldl polymodStep chk ^^^ variant.constant
  (List.range 6).map fun p => toChar (toU5 ((plm >>> (5 * (5 - p))) &&& 0x1f))

/-- `encode`, through `encode_to_fmt` and `Bech32Writer`: the prefix,
`1`, the data's characters and the checksum. The writer's register
starts at 1 and takes the prefix's expansion and the data. -/
def encode (hrp : String) (data : List U5) (variant : Variant) : Except Bech32Error String := do
  let case ← checkHrp (Hex.utf8 hrp.toList)
  let hrpLower := lowerIfUpper case hrp.toList
  let chk := polymod (hrpExpand (Hex.utf8 hrpLower) ++ data)
  pure (String.ofList (hrpLower ++ '1' :: (data.map toChar ++ writeChecksum chk variant)))

-- ============================================================== decoding

/-- `s.rfind(SEP)` and `split_at`: the text before the last `sep`, and
the text after it. -/
def rsplitOnce (sep : Char) : List Char → Option (List Char × List Char)
  | [] => none
  | c :: rest =>
      match rsplitOnce sep rest with
      | some (hrp, data) => some (c :: hrp, data)
      | none => if c = sep then some ([], rest) else none

/-- The case checks of `split_and_decode`'s closure: a lower-case and an
upper-case character cannot both occur, in the prefix or the data. -/
def caseStep (case : Case) (c : Char) : Except Bech32Error Case :=
  if c.isLower then
    match case with
    | .upper => .error .mixedCase
    | _ => .ok .lower
  else if c.isUpper then
    match case with
    | .lower => .error .mixedCase
    | _ => .ok .upper
  else .ok case

/-- `split_and_decode`'s closure over the data characters, collected:
the first failure stops it. -/
def decodeData : Case → List Char → Except Bech32Error (List U5)
  | _, [] => .ok []
  | case, c :: rest =>
      if c.toNat ≥ 128 then .error (.invalidChar c)
      else do
        let case ← caseStep case c
        match charsetRev c with
        | some d => do
            let ds ← decodeData case rest
            pure (d :: ds)
        | none => .error (.invalidChar c)

/-- `split_and_decode`: the lowered prefix, and the data with its
checksum. -/
def splitAndDecode (s : String) : Except Bech32Error (List Char × List U5) :=
  match rsplitOnce '1' s.toList with
  | none => .error .missingSeparator
  | some (rawHrp, rawData) => do
      let case ← checkHrp (Hex.utf8 rawHrp)
      let data ← decodeData case rawData
      pure (lowerIfUpper case rawHrp, data)

/-- `decode`. -/
def decode (s : String) : Except Bech32Error (String × List U5 × Variant) := do
  let (hrpLower, data) ← splitAndDecode s
  if data.length < 6 then throw .invalidLength
  match verifyChecksum (Hex.utf8 hrpLower) data with
  | some variant => pure (String.ofList hrpLower, data.take (data.length - 6), variant)
  | none => throw .invalidChecksum

-- ================================================================ base32

/-- The block `write_base32` runs at the top of each round and once after
the last: a buffer of five bits or more writes its top five and keeps
the rest. -/
def flushFive (buffer bufferBits : ℕ) : List U5 × ℕ × ℕ :=
  if bufferBits ≥ 5 then
    ([toU5 ((buffer &&& 0b1111_1000) >>> 3)], (buffer <<< 5) % 256, bufferBits - 5)
  else ([], buffer, bufferBits)

/-- The rounds of `write_base32` over the bytes left, with `buffer_bits`
unwritten bits at the top of the `u8` buffer. A round completes a group
from the buffer and the byte's high bits and keeps the byte's rest. -/
def writeBase32 : List UInt8 → ℕ → ℕ → List U5
  | [], buffer, bufferBits =>
      let (out, buffer, bufferBits) := flushFive buffer bufferBits
      out ++ if bufferBits ≠ 0 then [toU5 (buffer >>> 3)] else []
  | b :: bytes, buffer, bufferBits =>
      let (out, buffer, bufferBits) := flushFive buffer bufferBits
      let fromBuffer := buffer >>> 3
      let fromByte := b.toNat >>> (3 + bufferBits)
      out ++ toU5 (fromBuffer ||| fromByte)
        :: writeBase32 bytes ((b.toNat <<< (5 - bufferBits)) % 256) (bufferBits + 3)

/-- `ToBase32::to_base32` for bytes. -/
def toBase32 (bytes : List UInt8) : List U5 := writeBase32 bytes 0 0

/-- The `while bits >= to` loop of `convert_bits`: a group of `to` bits
for each `to` of the `bits` pending in `acc`. It runs at most `fuel`
rounds, and `bits` rounds are enough for `to ≥ 1`. -/
def drainBits (acc toBits maxv : ℕ) : ℕ → ℕ → List UInt8 → ℕ × List UInt8
  | 0, bits, ret => (bits, ret)
  | fuel + 1, bits, ret =>
      if bits ≥ toBits then
        drainBits acc toBits maxv fuel (bits - toBits) (ret ++ [UInt8.ofNat ((acc >>> (bits - toBits)) &&& maxv)])
      else (bits, ret)

/-- The loop of `convert_bits` over the values left, then its padding
checks, with the `u32` accumulator `acc` of which the low `bits` are
pending. -/
def convertBitsLoop (fromBits toBits : ℕ) (pad : Bool) :
    List U5 → ℕ → ℕ → List UInt8 → Except Bech32Error (List UInt8)
  | [], acc, bits, ret =>
      let maxv := (1 <<< toBits) - 1
      if pad then
        .ok (if bits > 0 then ret ++ [UInt8.ofNat (((acc <<< (toBits - bits)) % 2 ^ 32) &&& maxv)] else ret)
      else if bits ≥ fromBits ∨ ((acc <<< (toBits - bits)) % 2 ^ 32) &&& maxv ≠ 0 then
        .error .invalidPadding
      else .ok ret
  | value :: data, acc, bits, ret =>
      let v := value.val
      if v >>> fromBits ≠ 0 then .error (.invalidData (UInt8.ofNat v))
      else
        let acc := ((acc <<< fromBits) ||| v) % 2 ^ 32
        let bits := bits + fromBits
        let (bits, ret) := drainBits acc toBits ((1 <<< toBits) - 1) bits bits ret
        convertBitsLoop fromBits toBits pad data acc bits ret

/-- `convert_bits`. -/
def convertBits (data : List U5) (fromBits toBits : ℕ) (pad : Bool) : Except Bech32Error (List UInt8) :=
  convertBitsLoop fromBits toBits pad data 0 0 []

/-- `FromBase32::from_base32` for `Vec<u8>`. -/
def fromBase32 (data : List U5) : Except Bech32Error (List UInt8) := convertBits data 5 8 false

/-- The bech32 crate. -/
def bech32 : Bech32Lib := ⟨decode, encode, toBase32, fromBase32⟩

end NibiruWasm.Bech32
