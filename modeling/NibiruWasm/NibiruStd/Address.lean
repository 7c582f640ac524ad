/-
nibiru-std's `address.rs`: a Nibiru bech32 address to an Ethereum hex
address and back.

`nibiru_bech32_to_eth_address` decodes the address, checks that its
human-readable part is `nibi`, turns the 5-bit data into bytes, and
writes the first 20 of them, of at least 20, in hex behind `0x`.
`eth_address_to_nibiru_bech32` strips one lower-case `0x`, checks that
the rest is 40 bytes long (`str::len` counts bytes), decodes it as hex
and encodes the 20 bytes under `nibi` with the Bech32 checksum.

The hex crate is `Text.Hex`. The conversions take the four functions
of the bech32 crate as the fields of a `Bech32Lib`, and what they rely
on of them is `Bech32Lib.Spec`: that encoding and decoding, and
`to_base32` and `from_base32`, undo each other. `Bech32.Codec` models
the crate, version 0.9.1, as such a `Bech32Lib`, and
`Bech32.bech32_spec` proves that it meets the spec. The `Display` texts
of the errors are left out.
-/
import NibiruWasm.Text.Hex

namespace NibiruWasm.NibiruStd

open Text

/-- bech32's `u5`. -/
abbrev U5 := Fin 32

/-- bech32's `Variant`: the checksum constant of BIP-173 or of BIP-350. -/
inductive Variant
  | bech32
  | bech32m
  deriving DecidableEq, Repr

/-- bech32's `Error`. -/
inductive Bech32Error
  | missingSeparator
  | invalidChecksum
  | invalidLength
  | invalidChar (c : Char)
  | invalidData (d : UInt8)
  | invalidPadding
  | mixedCase
  deriving DecidableEq, Repr

/-- `NibiruError`, the variants `address.rs` raises. -/
inductive NibiruError
  | bech32Error (e : Bech32Error)
  | invalidBech32Prefix (expected actual : String)
  | invalidAddressLength
  | invalidEthAddress (msg : String)
  | hexError (e : Hex.FromHexError)
  deriving DecidableEq, Repr

-- ============================================== the bech32 interface

/-- The functions of the bech32 crate that `address.rs` calls. -/
structure Bech32Lib where
  decode : String → Except Bech32Error (String × List U5 × Variant)
  encode : String → List U5 → Variant → Except Bech32Error String
  toBase32 : List UInt8 → List U5
  fromBase32 : List U5 → Except Bech32Error (List UInt8)

/-- A human-readable part that `encode` accepts and `decode` gives back
as it is: 1 to 83 characters from `!` to `~`, none of them upper-case
(`check_hrp`, lower-case). -/
def ValidHrp (hrp : String) : Prop :=
  hrp.toList ≠ [] ∧ hrp.toList.length ≤ 83
    ∧ ∀ c ∈ hrp.toList, 33 ≤ c.toNat ∧ c.toNat ≤ 126 ∧ c.isUpper = false

instance (hrp : String) : Decidable (ValidHrp hrp) :=
  inferInstanceAs (Decidable (hrp.toList ≠ [] ∧ hrp.toList.length ≤ 83
    ∧ ∀ c ∈ hrp.toList, 33 ≤ c.toNat ∧ c.toNat ≤ 126 ∧ c.isUpper = false))

/-- What `address.rs` relies on of the bech32 crate. -/
structure Bech32Lib.Spec (lib : Bech32Lib) : Prop where
  /-- Encoding under a valid prefix succeeds, since `encode` fails only
  on the prefix, and decoding gives back the prefix, the data and the
  variant. -/
  decode_encode : ∀ hrp data variant, ValidHrp hrp →
    ∃ addr, lib.encode hrp data variant = .ok addr ∧ lib.decode addr = .ok (hrp, data, variant)
  /-- A lower-case text that decodes is what encoding its parts writes. -/
  encode_decode : ∀ addr hrp data variant, lib.decode addr = .ok (hrp, data, variant) →
    addr.toList.map Char.toLower = addr.toList → lib.encode hrp data variant = .ok addr
  /-- `from_base32` reads back the bytes `to_base32` writes. -/
  fromBase32_toBase32 : ∀ bytes, lib.fromBase32 (lib.toBase32 bytes) = .ok bytes
  /-- What `from_base32` accepts is what `to_base32` writes for the bytes
  it returns: no padding but the zero bits `to_base32` adds. -/
  toBase32_fromBase32 : ∀ data bytes, lib.fromBase32 data = .ok bytes → lib.toBase32 bytes = data

-- ======================================================== conversions

variable (lib : Bech32Lib)

/-- `nibiru_bech32_to_eth_address`. -/
def nibiruBech32ToEthAddress (bech32Addr : String) : Except NibiruError String := do
  let (hrp, data, _variant) ← (lib.decode bech32Addr).mapError .bech32Error
  if hrp ≠ "nibi" then throw (.invalidBech32Prefix "nibi" hrp)
  let bytes ← (lib.fromBase32 data).mapError .bech32Error
  if bytes.length < 20 then throw .invalidAddressLength
  pure ("0x" ++ String.ofList (Hex.encode (bytes.take 20)))

/-- `strip_prefix("0x").unwrap_or(eth_addr)`. -/
def stripHexPrefix : List Char → List Char
  | '0' :: 'x' :: rest => rest
  | chars => chars

/-- `eth_address_to_nibiru_bech32`. -/
def ethAddressToNibiruBech32 (ethAddr : String) : Except NibiruError String := do
  let hexStr := stripHexPrefix ethAddr.toList
  if (Hex.utf8 hexStr).length ≠ 40 then
    throw (.invalidEthAddress ("Ethereum address must be 20 bytes (40 hex chars), got "
      ++ toString (Hex.utf8 hexStr).length ++ " chars"))
  let bytes ← (Hex.decode (Hex.utf8 hexStr)).mapError .hexError
  if bytes.length ≠ 20 then
    throw (.invalidEthAddress ("Invalid Ethereum address length: expected 20 bytes, got "
      ++ toString bytes.length))
  (lib.encode "nibi" (lib.toBase32 bytes) .bech32).mapError .bech32Error

end NibiruWasm.NibiruStd
