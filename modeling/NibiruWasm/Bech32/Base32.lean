/-
The 5-bit side of bech32: `from_base32` reads back the bytes
`to_base32` writes (`fromBase32_toBase32`), and what it accepts is what
`to_base32` writes for the bytes it returns (`toBase32_fromBase32`).
With the text round trips of `Bech32.Checksum` the crate meets
`Bech32Lib.Spec` (`bech32_spec`).

Both are read as bit strings, the high bit first (`Text.Bits`).
`write_base32`'s buffer holds its unwritten bits at the top and zeros
below (`Pending`). The block at the top of each round writes the
buffer's top five bits when it has five (`flushFive_spec`); the rest of
the round completes a group from the buffer and the byte's high bits and
keeps the byte's other bits (`combine_spec`). So the groups written are
the bytes' bits followed by fewer than five zeros (`bits_writeBase32`).

`convert_bits` keeps the bits it has not yet written as the low `bits`
of its accumulator, fewer than eight of them once its inner loop is done
(`drainBits_spec`). So what it writes and what it keeps are the bits
read (`convertBitsLoop_spec`), and it accepts exactly when fewer than
five bits are kept and they are zero. Counting bits then fixes the
number of bytes and of padding bits on both ways round.
-/
import NibiruWasm.Bech32.Checksum

namespace NibiruWasm.Bech32

open NibiruStd Text Bits

/-- Groups as a bit string. -/
def bits5 (ds : List U5) : List Bool := ds.flatMap fun d => bitsOf 5 d.val

/-- Bytes as a bit string. -/
def bits8 (bytes : List UInt8) : List Bool := bytes.flatMap fun b => bitsOf 8 b.toNat

@[simp] theorem bits5_nil : bits5 [] = [] := rfl

@[simp] theorem bits8_nil : bits8 [] = [] := rfl

theorem bits5_append (ds es : List U5) : bits5 (ds ++ es) = bits5 ds ++ bits5 es :=
  List.flatMap_append

theorem bits5_cons (d : U5) (ds : List U5) : bits5 (d :: ds) = bitsOf 5 d.val ++ bits5 ds := rfl

theorem bits8_append (bytes bytes' : List UInt8) : bits8 (bytes ++ bytes') = bits8 bytes ++ bits8 bytes' :=
  List.flatMap_append

theorem bits8_cons (b : UInt8) (bytes : List UInt8) : bits8 (b :: bytes) = bitsOf 8 b.toNat ++ bits8 bytes :=
  rfl

theorem length_bits5 (ds : List U5) : (bits5 ds).length = 5 * ds.length := length_flatMap_bitsOf ds

theorem length_bits8 (bytes : List UInt8) : (bits8 bytes).length = 8 * bytes.length :=
  length_flatMap_bitsOf bytes

theorem bits5_inj {ds es : List U5} (h : bits5 ds = bits5 es) : ds = es :=
  flatMap_bitsOf_inj (w := 5) (f := Fin.val) (by decide) Fin.val_injective (fun d => d.isLt) h

theorem bits8_inj {bytes bytes' : List UInt8} (h : bits8 bytes = bits8 bytes') : bytes = bytes' :=
  flatMap_bitsOf_inj (w := 8) (f := UInt8.toNat) (by decide) (fun _ _ hb => UInt8.toNat_inj.mp hb)
    (fun b => b.toNat_lt) h

/-- A `u5` wraps the low five bits. -/
theorem bitsOf_toU5 (x : ℕ) : bitsOf 5 (toU5 x).val = bitsOf 5 x :=
  bitsOf_mod_two_pow (k := 5) le_rfl x

theorem bits5_toU5 (x : ℕ) : bits5 [toU5 x] = bitsOf 5 x := by
  rw [bits5, List.flatMap_singleton, bitsOf_toU5]

-- ========================================================== to_base32

/-- `buffer` holds the `k` bits `p` at its top and zeros below. -/
structure Pending (buffer k : ℕ) (p : List Bool) : Prop where
  lt : buffer < 256
  length : p.length = k
  le : k ≤ 7
  bits : bitsOf 8 buffer = p ++ List.replicate (8 - k) false

theorem pending_zero : Pending 0 0 [] := ⟨by decide, rfl, by decide, by rw [bitsOf_zero_right]; rfl⟩

/-- The top five bits of a byte. -/
theorem bitsOf_shiftRight_three (x : ℕ) : bitsOf 5 (x >>> 3) = (bitsOf 8 x).take 5 := by
  rw [show 8 = 5 + 3 from rfl, bitsOf_add, List.take_left' (length_bitsOf 5 _)]

/-- A byte shifted up `s` places within eight bits: its bits after the
first `s`, then zeros. -/
theorem bitsOf_shiftLeft_mod {s : ℕ} (x : ℕ) (hs : s ≤ 8) :
    bitsOf 8 ((x <<< s) % 256) = (bitsOf 8 x).drop s ++ List.replicate s false := by
  have hsplit : bitsOf 8 x = bitsOf s (x >>> (8 - s)) ++ bitsOf (8 - s) x := by
    rw [← bitsOf_add, Nat.add_sub_cancel' hs]
  rw [show (256 : ℕ) = 2 ^ 8 from rfl, bitsOf_mod_two_pow le_rfl, ← Nat.sub_add_cancel hs,
    bitsOf_shiftLeft, Nat.sub_add_cancel hs, hsplit, List.drop_left' (length_bitsOf s _)]

/-- The top five bits of a buffer with fewer than five pending: those
and zeros. -/
theorem Pending.top {buffer k : ℕ} {p : List Bool} (h : Pending buffer k p) (hk : k < 5) :
    bitsOf 5 (buffer >>> 3) = p ++ List.replicate (5 - k) false := by
  rw [bitsOf_shiftRight_three, h.bits, List.take_append, List.take_of_length_le (by rw [h.length]; omega),
    List.take_replicate, h.length]
  congr 2
  omega

/-- The block at the top of a round: five of the buffer's bits written
when it holds five, fewer than five left. -/
theorem flushFive_spec {buffer k : ℕ} {p : List Bool} (h : Pending buffer k p)
    {out : List U5} {buffer' k' : ℕ} (hflush : flushFive buffer k = (out, buffer', k')) :
    ∃ p', bits5 out ++ p' = p ∧ Pending buffer' k' p' ∧ k' < 5 := by
  have hk7 := h.le
  unfold flushFive at hflush
  split at hflush
  · next hk =>
      simp only [Prod.mk.injEq] at hflush
      obtain ⟨rfl, rfl, rfl⟩ := hflush
      -- the mask clears only bits below the five written
      have hmask : bitsOf 5 ((buffer &&& 0b1111_1000) >>> 3) = bitsOf 5 (buffer >>> 3) :=
        bitsOf_congr fun i hi => by
          rw [Nat.testBit_shiftRight, Nat.testBit_shiftRight, Nat.testBit_and]
          have : (0b1111_1000 : ℕ).testBit (3 + i) = true := by interval_cases i <;> rfl
          rw [this, Bool.and_true]
      have hp : (p ++ List.replicate (8 - k) false).take 5 = p.take 5 :=
        List.take_append_of_le_length (by rw [h.length]; omega)
      have hdrop : (p ++ List.replicate (8 - k) false).drop 5
          = p.drop 5 ++ List.replicate (8 - k) false :=
        List.drop_append_of_le_length (by rw [h.length]; omega)
      refine ⟨p.drop 5, ?_, ⟨Nat.mod_lt _ (by decide), by rw [List.length_drop, h.length],
        by omega, ?_⟩, by omega⟩
      · rw [bits5_toU5, hmask, bitsOf_shiftRight_three, h.bits, hp, List.take_append_drop]
      · rw [bitsOf_shiftLeft_mod buffer (by decide), h.bits, hdrop, List.append_assoc,
          List.replicate_append_replicate]
        congr 2
        omega
  · next hk =>
      simp only [Prod.mk.injEq] at hflush
      obtain ⟨rfl, rfl, rfl⟩ := hflush
      exact ⟨p, rfl, h, by omega⟩

/-- The rest of a round, with fewer than five bits in the buffer: a group
of those bits and the byte's high bits, and the byte's other bits kept. -/
theorem combine_spec {buffer k : ℕ} {p : List Bool} (h : Pending buffer k p) (hk : k < 5) (b : UInt8) :
    bitsOf 5 (toU5 ((buffer >>> 3) ||| (b.toNat >>> (3 + k)))).val ++ bitsOf (3 + k) b.toNat
        = p ++ bitsOf 8 b.toNat
      ∧ Pending ((b.toNat <<< (5 - k)) % 256) (k + 3) (bitsOf (3 + k) b.toNat) := by
  have hbyte : bitsOf 8 b.toNat = bitsOf (5 - k) (b.toNat >>> (3 + k)) ++ bitsOf (3 + k) b.toNat := by
    rw [← bitsOf_add, show 5 - k + (3 + k) = 8 by omega]
  -- the byte's high bits sit below the buffer's
  have hhigh : bitsOf 5 (b.toNat >>> (3 + k))
      = List.replicate k false ++ bitsOf (5 - k) (b.toNat >>> (3 + k)) := by
    rw [← bitsOf_of_lt k, show k + (5 - k) = 5 by omega]
    rw [Nat.shiftRight_eq_div_pow, Nat.div_lt_iff_lt_mul (by positivity), ← Nat.pow_add,
      show 5 - k + (3 + k) = 8 by omega]
    exact b.toNat_lt
  constructor
  · rw [bitsOf_toU5, bitsOf_or, h.top hk, hhigh, hbyte, ← List.append_assoc]
    congr 1
    exact zipWith_or_append h.length (length_bitsOf _ _)
  · refine ⟨Nat.mod_lt _ (by decide), by rw [length_bitsOf]; omega, by omega, ?_⟩
    rw [bitsOf_shiftLeft_mod _ (by omega), hbyte, List.drop_left' (length_bitsOf _ _)]
    congr 2
    omega

/-- The groups `write_base32` writes from a pending buffer: the pending
bits, the bytes' bits, and fewer than five zeros. -/
theorem bits_writeBase32 :
    ∀ (bytes : List UInt8) {buffer k : ℕ} {p : List Bool}, Pending buffer k p →
      ∃ j < 5, bits5 (writeBase32 bytes buffer k) = p ++ bits8 bytes ++ List.replicate j false
  | [], buffer, k, p, h => by
      rcases hflush : flushFive buffer k with ⟨out, buffer', k'⟩
      obtain ⟨p', hout, h', hk'⟩ := flushFive_spec h hflush
      simp only [writeBase32, hflush]
      by_cases hzero : k' = 0
      · -- nothing left in the buffer
        refine ⟨0, by omega, ?_⟩
        have hp' : p' = [] := List.eq_nil_of_length_eq_zero (by rw [h'.length, hzero])
        rw [if_neg (not_not.mpr hzero), List.append_nil, ← hout, hp', bits8_nil, List.append_nil,
          List.append_nil, List.replicate_zero, List.append_nil]
      · -- the last group is the buffer's bits and zeros
        refine ⟨5 - k', by omega, ?_⟩
        rw [if_pos hzero, bits5_append, bits5_toU5, h'.top hk', ← List.append_assoc, hout, bits8_nil,
          List.append_nil]
  | b :: bytes, buffer, k, p, h => by
      rcases hflush : flushFive buffer k with ⟨out, buffer', k'⟩
      obtain ⟨p', hout, h', hk'⟩ := flushFive_spec h hflush
      obtain ⟨hgroup, hnext⟩ := combine_spec h' hk' b
      obtain ⟨j, hj, hrest⟩ := bits_writeBase32 bytes hnext
      refine ⟨j, hj, ?_⟩
      simp only [writeBase32, hflush]
      rw [bits5_append, bits5_cons, hrest, bits8_cons, ← hout]
      simp only [List.append_assoc]
      rw [← List.append_assoc (bitsOf 5 _), hgroup, List.append_assoc]

/-- The groups `to_base32` writes: the bytes' bits and fewer than five
zeros. -/
theorem bits_toBase32 (bytes : List UInt8) :
    ∃ j < 5, bits5 (toBase32 bytes) = bits8 bytes ++ List.replicate j false := by
  obtain ⟨j, hj, h⟩ := bits_writeBase32 bytes pending_zero
  exact ⟨j, hj, by rw [toBase32, h, List.nil_append]⟩

-- ========================================================= from_base32

theorem drainBits_of_lt {acc toBits maxv bits : ℕ} (h : bits < toBits) :
    ∀ (fuel : ℕ) (ret : List UInt8), drainBits acc toBits maxv fuel bits ret = (bits, ret)
  | 0, _ => rfl
  | _ + 1, _ => by rw [drainBits, if_neg (by omega)]

/-- A byte written from the accumulator is the eight bits above the
`bits` it keeps. -/
theorem bitsOf_push (acc bits : ℕ) :
    bitsOf 8 (UInt8.ofNat ((acc >>> bits) &&& ((1 <<< 8) - 1))).toNat ++ bitsOf bits acc
      = bitsOf (8 + bits) acc := by
  rw [Nat.one_shiftLeft, Nat.and_two_pow_sub_one_eq_mod, UInt8.toNat_ofNat',
    Nat.mod_eq_of_lt (Nat.mod_lt _ (by decide)), bitsOf_mod_two_pow le_rfl, bitsOf_add]

/-- The inner loop of `convert_bits` at eight bits: fewer than eight
bits kept, and the bits written and kept unchanged. -/
theorem drainBits_spec (acc fuel bits : ℕ) (hbits : bits < 16) (hfuel : 8 ≤ bits → 1 ≤ fuel)
    (ret : List UInt8) :
    (drainBits acc 8 ((1 <<< 8) - 1) fuel bits ret).1 < 8
      ∧ bits8 (drainBits acc 8 ((1 <<< 8) - 1) fuel bits ret).2
          ++ bitsOf (drainBits acc 8 ((1 <<< 8) - 1) fuel bits ret).1 acc
        = bits8 ret ++ bitsOf bits acc := by
  by_cases hlt : bits < 8
  · rw [drainBits_of_lt hlt]
    exact ⟨hlt, rfl⟩
  · -- one byte, then fewer than eight bits
    obtain ⟨fuel, rfl⟩ : ∃ f, fuel = f + 1 := ⟨fuel - 1, by omega⟩
    rw [drainBits, if_pos (by omega), drainBits_of_lt (by omega)]
    refine ⟨by omega, ?_⟩
    rw [bits8_append, bits8_cons, bits8_nil, List.append_nil, List.append_assoc, bitsOf_push,
      Nat.add_sub_cancel' (by omega)]

/-- `from_base32`'s loop: for the bits read it writes bytes and keeps
fewer than eight bits, and it accepts exactly when fewer than five are
kept and they are zero. -/
theorem convertBitsLoop_spec :
    ∀ (data : List U5) (acc bits : ℕ) (ret : List UInt8), bits < 8 →
      ∃ acc' bits' ret', bits' < 8
        ∧ bits8 ret' ++ bitsOf bits' acc' = bits8 ret ++ bitsOf bits acc ++ bits5 data
        ∧ convertBitsLoop 5 8 false data acc bits ret
          = if bits' < 5 ∧ acc' % 2 ^ bits' = 0 then .ok ret' else .error .invalidPadding
  | [], acc, bits, ret, hbits => by
      refine ⟨acc, bits, ret, hbits, by rw [bits5_nil, List.append_nil], ?_⟩
      -- the padding check reads the kept bits shifted to the top of a byte
      have hshift : bitsOf 8 (acc <<< (8 - bits)) = bitsOf bits acc ++ List.replicate (8 - bits) false := by
        have := bitsOf_shiftLeft bits (8 - bits) acc
        rwa [Nat.add_sub_cancel' hbits.le] at this
      have h8 : List.replicate 8 false = List.replicate bits false ++ List.replicate (8 - bits) false := by
        rw [List.replicate_append_replicate, Nat.add_sub_cancel' hbits.le]
      have hpad : ((acc <<< (8 - bits)) % 2 ^ 32) &&& ((1 <<< 8) - 1) = 0 ↔ acc % 2 ^ bits = 0 := by
        rw [Nat.one_shiftLeft, Nat.and_two_pow_sub_one_eq_mod, ← bitsOf_eq_replicate_iff,
          bitsOf_mod_two_pow (by decide), hshift, ← bitsOf_eq_replicate_iff, h8]
        constructor
        · intro h
          exact List.append_inj_left h (by rw [length_bitsOf, List.length_replicate])
        · intro h
          rw [h]
      simp only [convertBitsLoop, Bool.false_eq_true, if_false]
      by_cases hk : bits < 5
      · by_cases hzero : acc % 2 ^ bits = 0
        · rw [if_neg (fun hor => hor.elim (fun h5 => by omega) (fun hne => hne (hpad.mpr hzero))),
            if_pos ⟨hk, hzero⟩]
        · rw [if_pos (Or.inr fun h0 => hzero (hpad.mp h0)), if_neg (fun h => hzero h.2)]
      · rw [if_pos (Or.inl (by omega)), if_neg (fun h => hk h.1)]
  | value :: data, acc, bits, ret, hbits => by
      -- the value joins the accumulator below the kept bits
      have hacc : bitsOf (bits + 5) (((acc <<< 5) ||| value.val) % 2 ^ 32)
          = bitsOf bits acc ++ bitsOf 5 value.val := by
        rw [bitsOf_mod_two_pow (k := 32) (by omega), bitsOf_or, bitsOf_shiftLeft, bitsOf_of_lt bits value.isLt]
        exact zipWith_or_append (length_bitsOf _ _) (length_bitsOf _ _)
      have hv : value.val >>> 5 = 0 := by
        rw [Nat.shiftRight_eq_div_pow]
        exact Nat.div_eq_of_lt value.isLt
      have hdrain := drainBits_spec (((acc <<< 5) ||| value.val) % 2 ^ 32) (bits + 5) (bits + 5) (by omega)
        (fun _ => by omega) ret
      rcases hd : drainBits (((acc <<< 5) ||| value.val) % 2 ^ 32) 8 ((1 <<< 8) - 1) (bits + 5) (bits + 5)
        ret with ⟨bits2, ret2⟩
      rw [hd] at hdrain
      obtain ⟨hbits2, hdrain⟩ := hdrain
      obtain ⟨acc', bits', ret', hlt, hrun, heq⟩ := convertBitsLoop_spec data _ _ ret2 hbits2
      refine ⟨acc', bits', ret', hlt, ?_, ?_⟩
      · rw [hrun, hdrain, hacc, bits5_cons]
        simp only [List.append_assoc]
      · simp only [convertBitsLoop, hv, ne_eq, not_true_eq_false, if_false, hd]
        exact heq

/-- `from_base32` reads back the bytes `to_base32` writes. -/
theorem fromBase32_toBase32 (bytes : List UInt8) : fromBase32 (toBase32 bytes) = .ok bytes := by
  obtain ⟨j, hj, hgroups⟩ := bits_toBase32 bytes
  obtain ⟨acc', bits', ret', hlt, hrun, heq⟩ := convertBitsLoop_spec (toBase32 bytes) 0 0 []
    (by decide)
  simp only [bits8_nil, bitsOf_zero, List.nil_append] at hrun
  rw [hgroups] at hrun
  -- counting bits: as many bytes, and the kept bits are the padding
  have hlen := congrArg List.length hrun
  rw [List.length_append, List.length_append, length_bits8, length_bits8, length_bitsOf,
    List.length_replicate] at hlen
  have hret : ret'.length = bytes.length := by omega
  obtain ⟨hbytes, hpad⟩ := List.append_inj hrun (by rw [length_bits8, length_bits8, hret])
  have hbits : bits' = j := by omega
  subst hbits
  rw [fromBase32, convertBits, heq, if_pos ⟨hj, bitsOf_eq_replicate_iff.mp hpad⟩, bits8_inj hbytes]

/-- What `from_base32` accepts is what `to_base32` writes for the bytes
it returns. -/
theorem toBase32_fromBase32 {data : List U5} {bytes : List UInt8} (h : fromBase32 data = .ok bytes) :
    toBase32 bytes = data := by
  obtain ⟨acc', bits', ret', hlt, hrun, heq⟩ := convertBitsLoop_spec data 0 0 [] (by decide)
  rw [fromBase32, convertBits, heq] at h
  split at h
  · next hok =>
      cases h
      obtain ⟨j, hj, hgroups⟩ := bits_toBase32 bytes
      simp only [bits8_nil, bitsOf_zero, List.nil_append] at hrun
      rw [bitsOf_eq_replicate_iff.mpr hok.2] at hrun
      -- the padding of both is the bits the bytes leave over to a group
      have hlen := congrArg List.length hrun
      have hlen' := congrArg List.length hgroups
      rw [List.length_append, length_bits8, List.length_replicate, length_bits5] at hlen hlen'
      have hj' : j = bits' := by omega
      rw [← hj'] at hrun
      exact bits5_inj (hgroups.trans hrun)
  · cases h

-- ============================================================ the crate

/-- The bech32 crate meets what `address.rs` relies on. -/
theorem bech32_spec : bech32.Spec where
  decode_encode _ data variant hhrp := decode_encode data variant hhrp
  encode_decode _ _ _ _ h hlower := encode_decode h hlower
  fromBase32_toBase32 := fromBase32_toBase32
  toBase32_fromBase32 _ _ h := toBase32_fromBase32 h

end NibiruWasm.Bech32
