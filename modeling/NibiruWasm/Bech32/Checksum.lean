/-
The text side of bech32: an address is the prefix, `1`, the data's
characters and a checksum that `decode` verifies, and `encode` and
`decode` undo each other (`decode_encode`, `encode_decode`).

The register is linear in exclusive or, in the register and the input
together (`polymodStep_xor`), and below `2 ^ 25` it only moves up five
places (`polymodStep_of_lt`). So the register run over six groups is the
run over six zeros, moved by the groups' value as a base-32 number
(`foldl_checksum`): the six groups `encode` writes are the only ones
that make the run end in the variant's constant (`foldl_checksumGroups`,
`checksumGroups_of_foldl`).

No data character is `1` (`toChar_ne_one`), so `decode` splits an
encoded address at the separator `encode` wrote, whatever `1`s the
prefix holds. A valid prefix is ASCII and not upper-case, so
`check_hrp` passes it as it is, and lower-case data characters pass the
case checks after it.
-/
import NibiruWasm.Bech32.Codec
import NibiruWasm.Text.Bits
import NibiruWasm.Chain.Except

namespace NibiruWasm.Bech32

open NibiruStd Text Bits Chain

-- ============================================================ the register

theorem shiftRight_and_one_eq_one {b i : ℕ} : (b >>> i) &&& 1 = 1 ↔ b.testBit i = true := by
  rw [Nat.and_one_is_mod, Nat.testBit, Nat.one_and_eq_mod_two]
  simp

theorem genRound_eq (b chk : ℕ) (entry : ℕ × ℕ) :
    genRound b chk entry = if b.testBit entry.2 then chk ^^^ entry.1 else chk := by
  simp only [genRound, shiftRight_and_one_eq_one]

/-- A round over `GEN` is linear in the feedback bits and the register
together. -/
theorem genRound_xor (b c x y : ℕ) (entry : ℕ × ℕ) :
    genRound (b ^^^ c) (x ^^^ y) entry = genRound b x entry ^^^ genRound c y entry := by
  rw [genRound_eq, genRound_eq, genRound_eq, Nat.testBit_xor]
  cases b.testBit entry.2 <;> cases c.testBit entry.2 <;>
    simp only [Bool.false_xor, Bool.xor_false, Bool.xor_self, if_true, if_false, Bool.false_eq_true] <;>
    grind

theorem foldl_genRound_xor (b c : ℕ) :
    ∀ (entries : List (ℕ × ℕ)) (x y : ℕ),
      entries.foldl (genRound (b ^^^ c)) (x ^^^ y)
        = entries.foldl (genRound b) x ^^^ entries.foldl (genRound c) y
  | [], _, _ => rfl
  | entry :: entries, x, y => by
      rw [List.foldl_cons, genRound_xor, foldl_genRound_xor b c entries, List.foldl_cons,
        List.foldl_cons]

/-- With no feedback bits no entry joins. -/
theorem foldl_genRound_zero : ∀ (entries : List (ℕ × ℕ)) (x : ℕ), entries.foldl (genRound 0) x = x
  | [], _ => rfl
  | entry :: entries, x => by
      rw [List.foldl_cons, genRound_eq, Nat.zero_testBit, if_neg Bool.false_ne_true,
        foldl_genRound_zero entries x]

theorem foldl_genRound_lt (b : ℕ) :
    ∀ {entries : List (ℕ × ℕ)} {x : ℕ}, (∀ entry ∈ entries, entry.1 < 2 ^ 30) → x < 2 ^ 30 →
      entries.foldl (genRound b) x < 2 ^ 30
  | [], _, _, hx => hx
  | entry :: entries, x, h, hx => by
      rw [List.foldl_cons]
      apply foldl_genRound_lt b fun e he => h e (List.mem_cons_of_mem _ he)
      rw [genRound_eq]
      split
      · exact Nat.xor_lt_two_pow hx (h entry List.mem_cons_self)
      · exact hx

theorem gen_lt : ∀ entry ∈ gen.zipIdx, entry.1 < 2 ^ 30 := by decide

theorem and_0x1ffffff_eq_mod (n : ℕ) : n &&& 0x1ffffff = n % 2 ^ 25 := Nat.and_two_pow_sub_one_eq_mod n 25

theorem and_0x1f_eq_mod (n : ℕ) : n &&& 0x1f = n % 2 ^ 5 := Nat.and_two_pow_sub_one_eq_mod n 5

theorem val_xor (v u : U5) : (v ^^^ u).val = v.val ^^^ u.val := by
  rw [Fin.xor_val, Nat.mod_eq_of_lt (Nat.xor_lt_two_pow (n := 5) v.isLt u.isLt)]

/-- `polymod_step` is linear in exclusive or, in the register and the
group together. -/
theorem polymodStep_xor (a b : ℕ) (v u : U5) :
    polymodStep (a ^^^ b) (v ^^^ u) = polymodStep a v ^^^ polymodStep b u := by
  -- the feedback bits and the shifted register are both linear
  have htop : ((a ^^^ b) >>> 25) % 256 = (a >>> 25) % 256 ^^^ (b >>> 25) % 256 := by
    rw [Nat.shiftRight_xor_distrib, show (256 : ℕ) = 2 ^ 8 from rfl, Nat.xor_mod_two_pow]
  have hlow : ((a ^^^ b) &&& 0x1ffffff) <<< 5 ^^^ (v ^^^ u).val
      = (((a &&& 0x1ffffff) <<< 5) ^^^ v.val) ^^^ (((b &&& 0x1ffffff) <<< 5) ^^^ u.val) := by
    rw [Nat.and_xor_distrib_right, Nat.shiftLeft_xor_distrib, val_xor]
    ac_rfl
  simp only [polymodStep]
  rw [htop, hlow, foldl_genRound_xor]

/-- The register stays below `2 ^ 30`. -/
theorem polymodStep_lt (chk : ℕ) (v : U5) : polymodStep chk v < 2 ^ 30 := by
  have hshift : (chk &&& 0x1ffffff) <<< 5 < 2 ^ 30 := by
    rw [and_0x1ffffff_eq_mod, Nat.shiftLeft_eq]
    have := Nat.mod_lt chk (show 0 < 2 ^ 25 by positivity)
    omega
  have hv : v.val < 2 ^ 30 := by have := v.isLt; omega
  exact foldl_genRound_lt _ gen_lt (Nat.xor_lt_two_pow hshift hv)

/-- Below `2 ^ 25` the register only moves up five places under the
group. -/
theorem polymodStep_of_lt {chk : ℕ} (v : U5) (h : chk < 2 ^ 25) : polymodStep chk v = 32 * chk + v.val := by
  have htop : (chk >>> 25) % 256 = 0 := by
    rw [Nat.shiftRight_eq_div_pow, Nat.div_eq_of_lt h]
  have hlow : chk &&& 0x1ffffff = chk := by
    rw [and_0x1ffffff_eq_mod, Nat.mod_eq_of_lt h]
  simp only [polymodStep]
  rw [htop, foldl_genRound_zero, hlow, shiftLeft_xor_of_lt chk (k := 5) v.isLt]
  rfl

theorem foldl_polymodStep_lt (s : ℕ) :
    ∀ {values : List U5}, values ≠ [] → values.foldl polymodStep s < 2 ^ 30
  | [v], _ => polymodStep_lt s v
  | v :: w :: values, _ => foldl_polymodStep_lt (polymodStep s v) (List.cons_ne_nil w values)

-- ============================================================ the checksum

/-- The value of groups as a number in base 32, the first group highest. -/
def groupsValue (cs : List U5) : ℕ := cs.foldl (fun x c => 32 * x + c.val) 0

/-- The six groups `write_checksum` writes of `plm`, the highest first. -/
def checksumGroups (plm : ℕ) : List U5 :=
  (List.range 6).map fun p => toU5 ((plm >>> (5 * (5 - p))) &&& 0x1f)

theorem writeChecksum_eq (chk : ℕ) (variant : Variant) :
    writeChecksum chk variant
      = (checksumGroups ((List.replicate 6 0).foldl polymodStep chk ^^^ variant.constant)).map toChar := by
  rw [writeChecksum, checksumGroups, List.map_map]
  rfl

@[simp] theorem length_checksumGroups (plm : ℕ) : (checksumGroups plm).length = 6 := rfl

/-- The groups of `plm` are its low 30 bits. -/
theorem groupsValue_checksumGroups (plm : ℕ) : groupsValue (checksumGroups plm) = plm % 2 ^ 30 := by
  simp only [checksumGroups, groupsValue, List.range_succ, List.range_zero, List.nil_append,
    List.map_append, List.map_cons, List.map_nil, List.foldl_append, List.foldl_cons, List.foldl_nil, toU5,
    and_0x1f_eq_mod, Nat.shiftRight_eq_div_pow]
  omega

/-- A list of six, its entries named. -/
theorem eq_of_length_eq_six {α : Type} {cs : List α} (h : cs.length = 6) :
    ∃ c0 c1 c2 c3 c4 c5, cs = [c0, c1, c2, c3, c4, c5] := by
  rcases cs with _ | ⟨c0, _ | ⟨c1, _ | ⟨c2, _ | ⟨c3, _ | ⟨c4, _ | ⟨c5, _ | ⟨c6, cs⟩⟩⟩⟩⟩⟩⟩ <;>
    simp only [List.length_cons, List.length_nil] at h <;> try omega
  exact ⟨c0, c1, c2, c3, c4, c5, rfl⟩

/-- Six groups are the groups of their value. -/
theorem checksumGroups_groupsValue {cs : List U5} (h : cs.length = 6) :
    checksumGroups (groupsValue cs) = cs := by
  obtain ⟨c0, c1, c2, c3, c4, c5, rfl⟩ := eq_of_length_eq_six h
  simp only [checksumGroups, groupsValue, List.range_succ, List.range_zero, List.nil_append,
    List.map_cons, List.map_nil, List.foldl_cons, List.foldl_nil, toU5, and_0x1f_eq_mod,
    Nat.shiftRight_eq_div_pow, List.cons_append, List.cons.injEq, Fin.ext_iff, and_true]
  have := c0.isLt; have := c1.isLt; have := c2.isLt; have := c3.isLt; have := c4.isLt
  have := c5.isLt
  omega

/-- From zero, six groups run the register up to their value: it never
reaches `2 ^ 25` before the last. -/
theorem foldl_polymodStep_zero {cs : List U5} (h : cs.length = 6) :
    cs.foldl polymodStep 0 = groupsValue cs := by
  obtain ⟨c0, c1, c2, c3, c4, c5, rfl⟩ := eq_of_length_eq_six h
  have := c0.isLt; have := c1.isLt; have := c2.isLt; have := c3.isLt; have := c4.isLt
  simp (disch := omega) only [groupsValue, List.foldl_cons, List.foldl_nil, polymodStep_of_lt]

theorem zipWith_zero_xor : ∀ cs : List U5, List.zipWith (· ^^^ ·) (List.replicate cs.length 0) cs = cs
  | [] => rfl
  | c :: cs => by
      rw [List.length_cons, List.replicate_succ, List.zipWith_cons_cons, zipWith_zero_xor cs]
      congr 1
      exact Fin.ext (by rw [val_xor, Fin.val_zero, Nat.zero_xor])

/-- The register run over six groups is its run over six zeros, moved by
the groups' value. -/
theorem foldl_checksum (s : ℕ) {cs : List U5} (h : cs.length = 6) :
    cs.foldl polymodStep s = (List.replicate 6 0).foldl polymodStep s ^^^ groupsValue cs := by
  have hlin := foldl_zipWith_xor polymodStep_xor (List.replicate 6 0) cs s 0
    (by rw [List.length_replicate, h])
  rw [← h, zipWith_zero_xor, Nat.xor_zero, h, foldl_polymodStep_zero h] at hlin
  exact hlin

theorem constant_lt (variant : Variant) : variant.constant < 2 ^ 30 := by
  cases variant <;> decide

theorem fromRemainder_eq_some {c : ℕ} {variant : Variant} :
    Variant.fromRemainder c = some variant ↔ c = variant.constant := by
  unfold Variant.fromRemainder
  cases variant <;> split_ifs <;> simp_all [Variant.constant]

/-- The checksum `encode` writes makes the register end in the variant's
constant. -/
theorem foldl_checksumGroups (s : ℕ) (variant : Variant) :
    (checksumGroups ((List.replicate 6 0).foldl polymodStep s ^^^ variant.constant)).foldl polymodStep s
      = variant.constant := by
  have hzeros := foldl_polymodStep_lt s (show List.replicate 6 (0 : U5) ≠ [] by simp)
  rw [foldl_checksum s (length_checksumGroups _), groupsValue_checksumGroups,
    Nat.mod_eq_of_lt (Nat.xor_lt_two_pow hzeros (constant_lt variant)), Nat.xor_xor_cancel_left]

/-- And it is the only six groups that do. -/
theorem checksumGroups_of_foldl {s : ℕ} {variant : Variant} {cs : List U5} (h : cs.length = 6)
    (hcs : cs.foldl polymodStep s = variant.constant) :
    checksumGroups ((List.replicate 6 0).foldl polymodStep s ^^^ variant.constant) = cs := by
  rw [foldl_checksum s h] at hcs
  rw [← hcs, Nat.xor_xor_cancel_left, checksumGroups_groupsValue h]

-- ============================================================ characters

theorem toChar_ne_one : ∀ d : U5, toChar d ≠ '1' := by decide

theorem charsetRev_toChar : ∀ d : U5, charsetRev (toChar d) = some d := by decide

/-- The characters of `CHARSET` are lower-case letters and digits. -/
theorem toChar_lower : ∀ d : U5,
    (toChar d).toNat < 128 ∧ (toChar d).isUpper = false ∧ (toChar d).toLower = toChar d := by
  decide

/-- `CHARSET_REV` reads a character as the value of its lower case. -/
theorem toChar_of_charsetRev {c : Char} {d : U5} (h : charsetRev c = some d) : toChar d = c.toLower := by
  by_cases hi : charset.idxOf c.toLower < 32
  · simp only [charsetRev, dif_pos hi, Option.some.injEq] at h
    subst h
    have hi' : charset.idxOf c.toLower < charset.length := hi
    show charset.getD (charset.idxOf c.toLower) 'q' = c.toLower
    rw [List.getD_eq_getElem _ _ hi', List.getElem_idxOf]
  · simp only [charsetRev, dif_neg hi, reduceCtorEq] at h

theorem caseStep_toChar {case : Case} (hcase : case ≠ .upper) (d : U5) :
    ∃ case', caseStep case (toChar d) = .ok case' ∧ case' ≠ .upper := by
  obtain ⟨-, hupper, -⟩ := toChar_lower d
  unfold caseStep
  split
  · -- a letter moves the case to lower
    cases case <;> simp_all
  · rw [if_neg (by rw [hupper]; exact Bool.false_ne_true)]
    exact ⟨case, rfl, hcase⟩

/-- The characters of data decode to it, after a prefix that is not
upper-case. -/
theorem decodeData_map_toChar : ∀ (ds : List U5) {case : Case}, case ≠ .upper →
    decodeData case (ds.map toChar) = .ok ds
  | [], _, _ => rfl
  | d :: ds, case, hcase => by
      obtain ⟨hascii, -, -⟩ := toChar_lower d
      obtain ⟨case', hstep, hcase'⟩ := caseStep_toChar hcase d
      rw [List.map_cons, decodeData, if_neg (by omega), hstep, ok_bind, charsetRev_toChar]
      simp only [decodeData_map_toChar ds hcase', ok_bind]
      rfl

/-- What decodes is the data's characters, up to case. -/
theorem map_toLower_of_decodeData :
    ∀ {raw : List Char} {case : Case} {ds : List U5}, decodeData case raw = .ok ds →
      raw.map Char.toLower = ds.map toChar
  | [], _, ds, h => by
      cases h
      rfl
  | c :: raw, case, ds, h => by
      unfold decodeData at h
      split at h
      · cases h
      · simp only [bind_eq_ok] at h
        obtain ⟨case', -, h⟩ := h
        split at h
        · next d hd =>
            simp only [bind_eq_ok, pure_eq_ok] at h
            obtain ⟨ds', hrest, rfl⟩ := h
            rw [List.map_cons, List.map_cons, toChar_of_charsetRev hd, map_toLower_of_decodeData hrest]
        · cases h

-- ============================================================ the separator

theorem rsplitOnce_of_not_mem {sep : Char} : ∀ {r : List Char}, sep ∉ r → rsplitOnce sep r = none
  | [], _ => rfl
  | c :: r, h => by
      rw [List.mem_cons, not_or] at h
      rw [rsplitOnce, rsplitOnce_of_not_mem h.2, if_neg (Ne.symm h.1)]

/-- Text with no `sep` after one splits there. -/
theorem rsplitOnce_append {sep : Char} {r : List Char} (h : sep ∉ r) :
    ∀ l : List Char, rsplitOnce sep (l ++ sep :: r) = some (l, r)
  | [] => by rw [List.nil_append, rsplitOnce, rsplitOnce_of_not_mem h, if_pos rfl]
  | c :: l => by rw [List.cons_append, rsplitOnce, rsplitOnce_append h l]

theorem eq_of_rsplitOnce {sep : Char} :
    ∀ {s l r : List Char}, rsplitOnce sep s = some (l, r) → s = l ++ sep :: r
  | [], _, _, h => by cases h
  | c :: s, l, r, h => by
      unfold rsplitOnce at h
      split at h
      · next hrest =>
          cases h
          rw [eq_of_rsplitOnce hrest, List.cons_append]
      · split at h
        · next hc =>
            cases h
            rw [hc, List.nil_append]
        · cases h

-- ============================================================== the prefix

/-- An ASCII text is one byte a character. -/
theorem utf8_of_lt : ∀ {l : List Char}, (∀ c ∈ l, c.toNat < 128) → Hex.utf8 l = l.map Char.toUInt8
  | [], _ => rfl
  | c :: l, h => by
      have hc : c.utf8Size = 1 := by
        rw [Char.utf8Size_eq_one_iff, UInt32.le_iff_toNat_le, Char.toNat_val]
        have := h c List.mem_cons_self
        exact Nat.le_of_lt_succ this
      rw [Hex.utf8_cons, String.utf8EncodeChar_eq_singleton hc, List.map_cons,
        utf8_of_lt fun c' hc' => h c' (List.mem_cons_of_mem _ hc')]
      rfl

theorem toNat_toUInt8 {c : Char} (h : c.toNat < 128) : c.toUInt8.toNat = c.toNat := by
  rw [Char.toUInt8, UInt32.toNat_toUInt8, Char.toNat_val]
  omega

theorem isUpper_eq_false_iff {c : Char} : c.isUpper = false ↔ ¬(65 ≤ c.toNat ∧ c.toNat ≤ 90) := by
  simp [Char.isUpper, UInt32.le_iff_toNat_le, Char.toNat_val]

/-- Bytes from `!` to `~` with no upper-case letter pass the loop, with
no upper case seen. -/
theorem checkHrpBytes_of_noUpper :
    ∀ {bytes : List UInt8}, (∀ b ∈ bytes, (33 ≤ b.toNat ∧ b.toNat ≤ 126) ∧ ¬(65 ≤ b.toNat ∧ b.toNat ≤ 90)) →
      ∀ hasLower, ∃ hasLower', checkHrpBytes hasLower false bytes = .ok (hasLower', false)
  | [], _, hasLower => ⟨hasLower, rfl⟩
  | b :: bytes, h, hasLower => by
      obtain ⟨hrange, hupper⟩ := h b List.mem_cons_self
      have hrest := checkHrpBytes_of_noUpper fun b' hb' => h b' (List.mem_cons_of_mem _ hb')
      rw [checkHrpBytes, if_neg (not_not.mpr hrange)]
      by_cases hlow : 97 ≤ b.toNat ∧ b.toNat ≤ 122
      · -- a lower-case letter
        simp only [if_pos hlow, Bool.false_eq_true, and_false, if_false]
        exact hrest true
      · simp only [if_neg hlow, if_neg hupper, Bool.false_eq_true, and_false, if_false]
        exact hrest hasLower

/-- A valid prefix passes `check_hrp`, and not as upper-case. -/
theorem checkHrp_of_validHrp {hrp : String} (h : ValidHrp hrp) :
    ∃ case, checkHrp (Hex.utf8 hrp.toList) = .ok case ∧ case ≠ .upper := by
  obtain ⟨hne, hlen, hchars⟩ := h
  have hascii : ∀ c ∈ hrp.toList, c.toNat < 128 := fun c hc => by have := hchars c hc; omega
  rw [utf8_of_lt hascii]
  have hbytes : ∀ b ∈ hrp.toList.map Char.toUInt8,
      (33 ≤ b.toNat ∧ b.toNat ≤ 126) ∧ ¬(65 ≤ b.toNat ∧ b.toNat ≤ 90) := by
    intro b hb
    obtain ⟨c, hc, rfl⟩ := List.mem_map.mp hb
    obtain ⟨hlo, hhi, hupper⟩ := hchars c hc
    rw [toNat_toUInt8 (hascii c hc)]
    exact ⟨⟨hlo, hhi⟩, isUpper_eq_false_iff.mp hupper⟩
  obtain ⟨hasLower, hloop⟩ := checkHrpBytes_of_noUpper hbytes false
  refine ⟨if hasLower ∧ ¬false then .lower else .none, ?_, by split <;> simp⟩
  rw [checkHrp, if_neg (by rw [List.length_map, List.map_eq_nil_iff]; exact not_or.mpr ⟨hne, by omega⟩),
    hloop]
  simp

theorem lowerIfUpper_of_ne_upper {case : Case} (h : case ≠ .upper) (hrp : List Char) :
    lowerIfUpper case hrp = hrp := by
  cases case <;> simp_all [lowerIfUpper]

theorem lowerIfUpper_of_lower (case : Case) {hrp : List Char} (h : hrp.map Char.toLower = hrp) :
    lowerIfUpper case hrp = hrp := by
  cases case <;> simp_all [lowerIfUpper]

-- ============================================================ round trips

/-- A text that decodes: the raw prefix, `1` and the data's characters,
with a prefix that passes `check_hrp`, a checksum that verifies, and
the parts `decode` returns. -/
theorem decode_eq_ok {s hrp : String} {data : List U5} {variant : Variant}
    (h : decode s = .ok (hrp, data, variant)) :
    ∃ rawHrp rawData case ds, s.toList = rawHrp ++ '1' :: rawData
      ∧ checkHrp (Hex.utf8 rawHrp) = .ok case ∧ decodeData case rawData = .ok ds ∧ 6 ≤ ds.length
      ∧ verifyChecksum (Hex.utf8 (lowerIfUpper case rawHrp)) ds = some variant
      ∧ hrp = String.ofList (lowerIfUpper case rawHrp) ∧ data = ds.take (ds.length - 6) := by
  simp only [decode, bind_eq_ok] at h
  obtain ⟨⟨hrpLower, ds⟩, hsplit, h⟩ := h
  unfold splitAndDecode at hsplit
  split at hsplit
  · cases hsplit
  · next rawHrp rawData hraw =>
      simp only [bind_eq_ok, pure_eq_ok, Prod.mk.injEq] at hsplit
      obtain ⟨case, hcase, ds', hds, rfl, rfl⟩ := hsplit
      simp only [throw_bind, ite_throw_eq_ok, not_lt] at h
      obtain ⟨hlen, h⟩ := h
      split at h
      · next variant' hver =>
          simp only [pure_eq_ok, Prod.mk.injEq] at h
          obtain ⟨rfl, rfl, rfl⟩ := h
          exact ⟨rawHrp, rawData, case, ds', eq_of_rsplitOnce hraw, hcase, hds, hlen, hver, rfl, rfl⟩
      · cases h

/-- Encoding under a valid prefix succeeds, and decoding the address
gives back the prefix, the data and the variant. -/
theorem decode_encode {hrp : String} (data : List U5) (variant : Variant) (h : ValidHrp hrp) :
    ∃ addr, encode hrp data variant = .ok addr ∧ decode addr = .ok (hrp, data, variant) := by
  obtain ⟨case, hcase, hne⟩ := checkHrp_of_validHrp h
  set cs := checksumGroups ((List.replicate 6 0).foldl polymodStep
    (polymod (hrpExpand (Hex.utf8 hrp.toList) ++ data)) ^^^ variant.constant) with hcs
  refine ⟨String.ofList (hrp.toList ++ '1' :: (data ++ cs).map toChar), ?_, ?_⟩
  · simp only [encode, hcase, ok_bind, lowerIfUpper_of_ne_upper hne, writeChecksum_eq, ← hcs,
      List.map_append]
    rfl
  · -- the last `1` is the separator, and the checksum verifies
    have hsplit : rsplitOnce '1' (String.ofList (hrp.toList ++ '1' :: (data ++ cs).map toChar)).toList
        = some (hrp.toList, (data ++ cs).map toChar) := by
      rw [String.toList_ofList]
      exact rsplitOnce_append (fun hmem => by
        obtain ⟨d, -, hd⟩ := List.mem_map.mp hmem
        exact toChar_ne_one d hd) _
    have hver : verifyChecksum (Hex.utf8 hrp.toList) (data ++ cs) = some variant := by
      rw [verifyChecksum, fromRemainder_eq_some, polymod, ← List.append_assoc, List.foldl_append]
      exact foldl_checksumGroups _ variant
    simp only [decode, splitAndDecode, hsplit, hcase, decodeData_map_toChar _ hne, ok_bind,
      lowerIfUpper_of_ne_upper hne, bind_eq_ok, pure_eq_ok]
    refine ⟨(hrp.toList, data ++ cs), rfl, ?_⟩
    rw [List.length_append, length_checksumGroups, if_neg (by omega), hver]
    simp only [String.ofList_toList, Nat.add_sub_cancel, List.take_left' rfl]
    rfl

/-- A lower-case text that decodes is what encoding its parts writes. -/
theorem encode_decode {addr hrp : String} {data : List U5} {variant : Variant}
    (h : decode addr = .ok (hrp, data, variant)) (hlower : addr.toList.map Char.toLower = addr.toList) :
    encode hrp data variant = .ok addr := by
  obtain ⟨rawHrp, rawData, case, ds, hs, hcase, hds, hlen, hver, rfl, rfl⟩ := decode_eq_ok h
  -- both parts are lower-case, so the prefix comes back as it is
  rw [hs, List.map_append, List.map_cons] at hlower
  obtain ⟨hhrp, hdata⟩ := List.append_inj hlower (by rw [List.length_map])
  have hraw : rawData = ds.map toChar := by
    rw [← map_toLower_of_decodeData hds]
    exact (List.cons.inj hdata).2.symm
  rw [lowerIfUpper_of_lower case hhrp] at hver ⊢
  -- the last six groups are the checksum `encode` writes
  have hsplit : ds = ds.take (ds.length - 6) ++ ds.drop (ds.length - 6) := (List.take_append_drop _ _).symm
  have hdrop : (ds.drop (ds.length - 6)).length = 6 := by rw [List.length_drop]; omega
  rw [verifyChecksum, fromRemainder_eq_some, polymod, hsplit, ← List.append_assoc,
    List.foldl_append] at hver
  simp only [encode, String.toList_ofList, hcase, ok_bind, lowerIfUpper_of_lower case hhrp,
    writeChecksum_eq, polymod, checksumGroups_of_foldl hdrop hver, ← List.map_append,
    List.take_append_drop, pure_eq_ok]
  rw [← hraw, ← hs, String.ofList_toList]

end NibiruWasm.Bech32
