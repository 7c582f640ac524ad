/-
The `hex` crate's `encode` and `decode`: a byte is two digits, the high
half first.

`encode` writes lower-case digits. `decode` reads the bytes of a text,
digits of either case, and fails on an odd length or at the first byte
that is not a digit, with that byte as a character and its position. A
text is read as its UTF-8 bytes (`utf8`): a character outside ASCII is
two to four bytes, none of them a digit.

The round trip is `decode_utf8_of_toLower`: a text whose characters,
lower-cased, are the digits `encode` writes for some bytes decodes to
those bytes, so upper-case and mixed-case spellings read back too.
-/
import Mathlib

namespace NibiruWasm.Text.Hex

/-- `HEX_CHARS_LOWER`. -/
def charsLower : List Char :=
  ['0', '1', '2', '3', '4', '5', '6', '7', '8', '9', 'a', 'b', 'c', 'd', 'e', 'f']

/-- The lower-case digit of a half byte. -/
def digit (n : ℕ) : Char := charsLower.getD n '0'

/-- `hex::encode`: two lower-case digits a byte, the high half first. -/
def encode (data : List UInt8) : List Char :=
  data.flatMap fun byte => [digit (byte.toNat / 16), digit (byte.toNat % 16)]

/-- `FromHexError`, the variants `decode` raises. -/
inductive FromHexError
  | invalidHexCharacter (c : Char) (index : ℕ)
  | oddLength
  deriving DecidableEq, Repr

/-- `val`: the value of one digit byte, of either case. -/
def val (c : UInt8) (idx : ℕ) : Except FromHexError ℕ :=
  if 65 ≤ c.toNat ∧ c.toNat ≤ 70 then .ok (c.toNat - 65 + 10)
  else if 97 ≤ c.toNat ∧ c.toNat ≤ 102 then .ok (c.toNat - 97 + 10)
  else if 48 ≤ c.toNat ∧ c.toNat ≤ 57 then .ok (c.toNat - 48)
  else .error (.invalidHexCharacter (Char.ofNat c.toNat) idx)

/-- The pairs of digits from the `i`-th pair on, one byte each, in
order: a digit's position is its index in the whole text. -/
def decodePairs (i : ℕ) : List UInt8 → Except FromHexError (List UInt8)
  | hi :: lo :: rest => do
      let h ← val hi (2 * i)
      let l ← val lo (2 * i + 1)
      let tail ← decodePairs (i + 1) rest
      pure (UInt8.ofNat (16 * h + l) :: tail)
  | _ => .ok []

/-- `hex::decode`. -/
def decode (data : List UInt8) : Except FromHexError (List UInt8) :=
  if data.length % 2 ≠ 0 then .error .oddLength else decodePairs 0 data

/-- A text's UTF-8 bytes, `str::as_bytes`. -/
def utf8 (s : List Char) : List UInt8 := s.flatMap String.utf8EncodeChar

-- ============================================================ digits

/-- `0`–`9` are the codes 48–57, `a`–`f` the codes 97–102. -/
theorem toNat_digit {n : ℕ} (hn : n < 16) :
    (digit n).toNat = if n < 10 then 48 + n else 87 + n := by
  interval_cases n <;> rfl

/-- `Char.toLower` moves `A`–`Z` up by 32 and keeps every other code. -/
theorem toNat_toLower (c : Char) :
    c.toLower.toNat = if 65 ≤ c.toNat ∧ c.toNat ≤ 90 then c.toNat + 32 else c.toNat := by
  unfold Char.toLower
  have hA : ('A' : Char).val.toNat = 65 := rfl
  have hZ : ('Z' : Char).val.toNat = 90 := rfl
  have h32 : (('a' : Char).val - ('A' : Char).val).toNat = 32 := rfl
  split
  · next h =>
      rw [ge_iff_le, UInt32.le_iff_toNat_le, UInt32.le_iff_toNat_le, hA, hZ, Char.toNat_val] at h
      rw [if_pos h, Char.toNat_mk, UInt32.toNat_add, h32, Char.toNat_val]
      omega
  · next h =>
      rw [ge_iff_le, UInt32.le_iff_toNat_le, UInt32.le_iff_toNat_le, hA, hZ, Char.toNat_val] at h
      rw [if_neg h]

/-- A character that lower-cases to a digit is that digit or, for the
six letters, its upper-case form. -/
theorem toNat_of_toLower {c : Char} {n : ℕ} (hn : n < 16) (h : c.toLower = digit n) :
    (n < 10 ∧ c.toNat = 48 + n) ∨ (10 ≤ n ∧ (c.toNat = 87 + n ∨ c.toNat = 55 + n)) := by
  have hcode := congrArg Char.toNat h
  rw [toNat_toLower, toNat_digit hn] at hcode
  split_ifs at hcode <;> omega

theorem toLower_digit {n : ℕ} (hn : n < 16) : (digit n).toLower = digit n := by
  interval_cases n <;> rfl

/-- Such a character is one byte. -/
theorem utf8EncodeChar_of_toLower {c : Char} {n : ℕ} (hn : n < 16) (h : c.toLower = digit n) :
    String.utf8EncodeChar c = [c.toUInt8] := by
  apply String.utf8EncodeChar_eq_singleton
  rw [Char.utf8Size_eq_one_iff, UInt32.le_iff_toNat_le, Char.toNat_val]
  have : (127 : UInt32).toNat = 127 := rfl
  rw [this]
  rcases toNat_of_toLower hn h with ⟨-, hc⟩ | ⟨-, hc | hc⟩ <;> omega

/-- And that byte is a digit of value `n`. -/
theorem val_of_toLower {c : Char} {n : ℕ} (hn : n < 16) (h : c.toLower = digit n) (idx : ℕ) :
    val c.toUInt8 idx = .ok n := by
  have hbyte : c.toUInt8.toNat = c.toNat := by
    rw [Char.toUInt8, UInt32.toNat_toUInt8, Char.toNat_val]
    rcases toNat_of_toLower hn h with ⟨-, hc⟩ | ⟨-, hc | hc⟩ <;> omega
  unfold val
  rw [hbyte]
  rcases toNat_of_toLower hn h with ⟨hn', hc⟩ | ⟨hn', hc | hc⟩
  · -- a decimal digit
    rw [if_neg (by omega), if_neg (by omega), if_pos (by omega)]
    congr 1
    omega
  · -- a lower-case letter
    rw [if_neg (by omega), if_pos (by omega)]
    congr 1
    omega
  · -- an upper-case letter
    rw [if_pos (by omega)]
    congr 1
    omega

-- ========================================================= the text

theorem encode_cons (byte : UInt8) (data : List UInt8) :
    encode (byte :: data) = digit (byte.toNat / 16) :: digit (byte.toNat % 16) :: encode data :=
  rfl

/-- The halves of a byte are half bytes. -/
theorem div_sixteen_lt (byte : UInt8) : byte.toNat / 16 < 16 := by
  have := byte.toNat_lt
  omega

theorem mod_sixteen_lt (byte : UInt8) : byte.toNat % 16 < 16 :=
  Nat.mod_lt _ (by norm_num)

theorem length_encode (data : List UInt8) : (encode data).length = 2 * data.length := by
  induction data with
  | nil => rfl
  | cons byte data ih =>
      rw [encode_cons, List.length_cons, List.length_cons, ih, List.length_cons]
      omega

/-- `encode` writes lower-case digits. -/
theorem map_toLower_encode (data : List UInt8) : (encode data).map Char.toLower = encode data := by
  induction data with
  | nil => rfl
  | cons byte data ih =>
      rw [encode_cons, List.map_cons, List.map_cons, ih, toLower_digit (div_sixteen_lt byte),
        toLower_digit (mod_sixteen_lt byte)]

theorem utf8_cons (c : Char) (s : List Char) :
    utf8 (c :: s) = String.utf8EncodeChar c ++ utf8 s :=
  List.flatMap_cons

/-- A spelling of the digits of a byte and more: two characters that
lower-case to its two digits, then a spelling of the rest. -/
theorem eq_cons_of_map_toLower {byte : UInt8} {data : List UInt8} {s : List Char}
    (h : s.map Char.toLower = encode (byte :: data)) :
    ∃ hi lo rest, s = hi :: lo :: rest ∧ hi.toLower = digit (byte.toNat / 16)
      ∧ lo.toLower = digit (byte.toNat % 16) ∧ rest.map Char.toLower = encode data := by
  rw [encode_cons] at h
  obtain ⟨hi, s, rfl, hhi, h⟩ := List.map_eq_cons_iff.mp h
  obtain ⟨lo, rest, rfl, hlo, h⟩ := List.map_eq_cons_iff.mp h
  exact ⟨hi, lo, rest, rfl, hhi, hlo, h⟩

/-- A spelling of digits is one byte a character. -/
theorem utf8_of_toLower : ∀ {data : List UInt8} {s : List Char},
    s.map Char.toLower = encode data → utf8 s = s.map Char.toUInt8
  | [], s, h => by
      rw [List.map_eq_nil_iff.mp h]
      rfl
  | byte :: data, _, h => by
      obtain ⟨hi, lo, rest, rfl, hhi, hlo, h⟩ := eq_cons_of_map_toLower h
      rw [utf8_cons, utf8_cons, utf8EncodeChar_of_toLower (div_sixteen_lt byte) hhi,
        utf8EncodeChar_of_toLower (mod_sixteen_lt byte) hlo, utf8_of_toLower h]
      rfl

/-- The pairs of a spelling of `encode data` decode to `data`, from any
pair on. -/
theorem decodePairs_of_toLower (i : ℕ) : ∀ {data : List UInt8} {s : List Char},
    s.map Char.toLower = encode data → decodePairs i (s.map Char.toUInt8) = .ok data
  | [], s, h => by
      rw [List.map_eq_nil_iff.mp h]
      rfl
  | byte :: data, _, h => by
      obtain ⟨hi, lo, rest, rfl, hhi, hlo, h⟩ := eq_cons_of_map_toLower h
      -- the two digits are the byte's halves
      have hbyte : UInt8.ofNat (16 * (byte.toNat / 16) + byte.toNat % 16) = byte := by
        rw [Nat.div_add_mod, UInt8.ofNat_toNat]
      simp only [List.map_cons, decodePairs, val_of_toLower (div_sixteen_lt byte) hhi,
        val_of_toLower (mod_sixteen_lt byte) hlo, decodePairs_of_toLower (i + 1) h]
      show Except.ok (UInt8.ofNat (16 * (byte.toNat / 16) + byte.toNat % 16) :: data) = _
      rw [hbyte]

/-- Any spelling of `encode data`, in any mix of cases, decodes to
`data`. -/
theorem decode_utf8_of_toLower {data : List UInt8} {s : List Char}
    (h : s.map Char.toLower = encode data) : decode (utf8 s) = .ok data := by
  have hlen : (s.map Char.toUInt8).length = 2 * data.length := by
    rw [List.length_map, ← List.length_map (f := Char.toLower), h, length_encode]
  rw [decode, utf8_of_toLower h, hlen, if_neg (by omega)]
  exact decodePairs_of_toLower 0 h

theorem length_utf8_of_toLower {data : List UInt8} {s : List Char}
    (h : s.map Char.toLower = encode data) : (utf8 s).length = 2 * data.length := by
  rw [utf8_of_toLower h, List.length_map, ← List.length_map (f := Char.toLower), h, length_encode]

end NibiruWasm.Text.Hex
