/-
The two conversions of `address.rs` undo each other, under what
`Bech32Lib.Spec` says of the bech32 crate (`address_round_trips`).

From hex: any spelling of 20 bytes in 40 digits, in any mix of cases,
behind `0x` or not, converts to the bytes encoded under `nibi`, and that
address converts back to `0x` and the bytes' lower-case digits. The
digits cannot begin with `0x` themselves, since `x` is not a digit, so
stripping the prefix takes nothing else.

From bech32: a lower-case `nibi` address of the Bech32 variant whose data
is 20 bytes converts to `0x` and their digits, and back to itself. The
variant matters: the way back always encodes with the Bech32 checksum.

The bech32 crate itself, `Bech32.bech32`, meets the spec
(`Bech32.bech32_spec`), so the round trips hold of the conversions as
the crate runs them (`address_round_trips_bech32`).
-/
import NibiruWasm.Bech32.Base32

namespace NibiruWasm.NibiruStd

open Text Chain

variable {lib : Bech32Lib}

-- ====================================================== the hex side

/-- Hex digits, in either case, do not begin with `0x`. -/
theorem stripHexPrefix_of_toLower {data : List UInt8} {s : List Char} (hdata : data ≠ [])
    (h : s.map Char.toLower = Hex.encode data) : stripHexPrefix s = s := by
  obtain ⟨byte, data, rfl⟩ := List.exists_cons_of_ne_nil hdata
  obtain ⟨c1, c2, s, rfl, -, h2, -⟩ := Hex.eq_cons_of_map_toLower h
  -- the second character lower-cases to a digit, which `x` does not
  have hx : c2 ≠ 'x' := by
    rintro rfl
    rcases Hex.toNat_of_toLower (Hex.mod_sixteen_lt byte) h2 with ⟨-, hc⟩ | ⟨-, hc | hc⟩ <;>
      simp only [Char.toNat, Char.reduceVal, UInt32.reduceToNat] at hc <;> omega
  unfold stripHexPrefix
  split
  · next rest heq =>
      simp only [List.cons.injEq] at heq
      exact absurd heq.2.1 hx
  · rfl

/-- A spelling of 20 bytes, behind `0x` or not, converts to the bytes
encoded under `nibi`, whatever `encode` then does. -/
theorem ethAddressToNibiruBech32_of_toLower {data : List UInt8} {s : List Char}
    {ethAddr : String} (hlen : data.length = 20) (h : s.map Char.toLower = Hex.encode data)
    (haddr : ethAddr.toList = s ∨ ethAddr.toList = '0' :: 'x' :: s) :
    ethAddressToNibiruBech32 lib ethAddr
      = (lib.encode "nibi" (lib.toBase32 data) .bech32).mapError .bech32Error := by
  have hstrip : stripHexPrefix ethAddr.toList = s := by
    rcases haddr with haddr | haddr
    · rw [haddr]
      exact stripHexPrefix_of_toLower (List.ne_nil_of_length_pos (by omega)) h
    · rw [haddr]
      rfl
  have hbytes : (Hex.utf8 s).length = 40 := by
    rw [Hex.length_utf8_of_toLower h, hlen]
  simp only [ethAddressToNibiruBech32, hstrip, hbytes, Hex.decode_utf8_of_toLower h, hlen, ne_eq,
    not_true_eq_false, if_false, mapError_ok, ok_bind]

/-- The text `0x` and digits. -/
theorem toList_hexAddress (digits : List Char) :
    ("0x" ++ String.ofList digits).toList = '0' :: 'x' :: digits := by
  simp [String.toList_append]

-- =================================================== the bech32 side

theorem toList_nibi : ("nibi" : String).toList = ['n', 'i', 'b', 'i'] := by simp

/-- `nibi` is a valid prefix. -/
theorem validHrp_nibi : ValidHrp "nibi" := by
  refine ⟨by simp, by simp, ?_⟩
  -- one character at a time: a decision over the whole list recurses too deep
  rw [toList_nibi]
  simp only [List.forall_mem_cons, List.not_mem_nil, false_imp_iff, implies_true, and_true]
  exact ⟨by decide, by decide, by decide, by decide⟩

/-- A `nibi` address whose data is at least 20 bytes converts to `0x`
and the digits of the first 20. -/
theorem nibiruBech32ToEthAddress_of_decode {bech32Addr : String} {data : List U5}
    {variant : Variant} {bytes : List UInt8}
    (hdecode : lib.decode bech32Addr = .ok ("nibi", data, variant))
    (hbytes : lib.fromBase32 data = .ok bytes) (hlen : 20 ≤ bytes.length) :
    nibiruBech32ToEthAddress lib bech32Addr
      = .ok ("0x" ++ String.ofList (Hex.encode (bytes.take 20))) := by
  simp only [nibiruBech32ToEthAddress, hdecode, hbytes, mapError_ok, ok_bind, ne_eq,
    not_true_eq_false, if_false, Nat.not_lt.mpr hlen]
  rfl

-- ======================================================= round trips

/-- Both round trips of `address.rs`. From hex: a spelling of 20 bytes
in any mix of cases, behind `0x` or not, converts to a `nibi` address
that converts back to `0x` and the bytes' lower-case digits. From
bech32: a lower-case `nibi` address of the Bech32 variant whose data is
20 bytes converts to a hex address that converts back to it. -/
theorem address_round_trips (hlib : lib.Spec) :
    (∀ (data : List UInt8) (s : List Char) (ethAddr : String), data.length = 20 →
        s.map Char.toLower = Hex.encode data →
        (ethAddr.toList = s ∨ ethAddr.toList = '0' :: 'x' :: s) →
        ∃ bech32Addr, ethAddressToNibiruBech32 lib ethAddr = .ok bech32Addr
          ∧ nibiruBech32ToEthAddress lib bech32Addr = .ok ("0x" ++ String.ofList (Hex.encode data)))
      ∧ (∀ (bech32Addr : String) (data : List U5) (bytes : List UInt8),
        lib.decode bech32Addr = .ok ("nibi", data, .bech32) →
        bech32Addr.toList.map Char.toLower = bech32Addr.toList →
        lib.fromBase32 data = .ok bytes → bytes.length = 20 →
        ∃ ethAddr, nibiruBech32ToEthAddress lib bech32Addr = .ok ethAddr
          ∧ ethAddressToNibiruBech32 lib ethAddr = .ok bech32Addr) := by
  constructor
  · intro data s ethAddr hlen h haddr
    obtain ⟨bech32Addr, hencode, hdecode⟩ :=
      hlib.decode_encode "nibi" (lib.toBase32 data) .bech32 validHrp_nibi
    refine ⟨bech32Addr, ?_, ?_⟩
    · rw [ethAddressToNibiruBech32_of_toLower hlen h haddr, hencode]
      rfl
    · rw [nibiruBech32ToEthAddress_of_decode hdecode (hlib.fromBase32_toBase32 data) (by omega),
        List.take_of_length_le (by omega)]
  · intro bech32Addr data bytes hdecode hlower hbytes hlen
    have hhex := nibiruBech32ToEthAddress_of_decode hdecode hbytes (by omega)
    rw [List.take_of_length_le (by omega)] at hhex
    refine ⟨_, hhex, ?_⟩
    -- the way back re-encodes the same data under the same prefix and variant
    rw [ethAddressToNibiruBech32_of_toLower hlen (Hex.map_toLower_encode bytes)
        (.inr (toList_hexAddress _)), hlib.toBase32_fromBase32 data bytes hbytes,
      hlib.encode_decode _ _ _ _ hdecode hlower]
    rfl

/-- The round trips at the bech32 crate, which meets the spec. -/
theorem address_round_trips_bech32 :
    Bech32.bech32.Spec
      ∧ (∀ (data : List UInt8) (s : List Char) (ethAddr : String), data.length = 20 →
          s.map Char.toLower = Hex.encode data →
          (ethAddr.toList = s ∨ ethAddr.toList = '0' :: 'x' :: s) →
          ∃ bech32Addr, ethAddressToNibiruBech32 Bech32.bech32 ethAddr = .ok bech32Addr
            ∧ nibiruBech32ToEthAddress Bech32.bech32 bech32Addr
              = .ok ("0x" ++ String.ofList (Hex.encode data)))
      ∧ (∀ (bech32Addr : String) (data : List U5) (bytes : List UInt8),
          Bech32.bech32.decode bech32Addr = .ok ("nibi", data, .bech32) →
          bech32Addr.toList.map Char.toLower = bech32Addr.toList →
          Bech32.bech32.fromBase32 data = .ok bytes → bytes.length = 20 →
          ∃ ethAddr, nibiruBech32ToEthAddress Bech32.bech32 bech32Addr = .ok ethAddr
            ∧ ethAddressToNibiruBech32 Bech32.bech32 ethAddr = .ok bech32Addr) :=
  ⟨Bech32.bech32_spec, address_round_trips Bech32.bech32_spec⟩

-- the conversions of the source's tests, and the bytes 0 to 19
example : ethAddressToNibiruBech32 Bech32.bech32 "0x46155fAfd58660583ac0d23d8E22B9A13Ca0fb31"
    = .ok "nibi1gc24lt74ses9swkq6g7cug4e5y72p7e34jqgul" := by decide +kernel

example : nibiruBech32ToEthAddress Bech32.bech32 "nibi1gc24lt74ses9swkq6g7cug4e5y72p7e34jqgul"
    = .ok "0x46155fafd58660583ac0d23d8e22b9a13ca0fb31" := by decide +kernel

example : ethAddressToNibiruBech32 Bech32.bech32 "0x000102030405060708090a0b0c0d0e0f10111213"
    = .ok "nibi1qqqsyqcyq5rqwzqfpg9scrgwpugpzysn5n4rc2" := by decide +kernel

end NibiruWasm.NibiruStd
