/-
Decimal digit strings, as text-handling code reads and writes them.

A string is a list of characters. `value` is the number a string of
decimal digits denotes, read most significant digit first as a left
fold, the way a parser accumulates it; `render` is core's
`Nat.toDigits 10`. The lemmas say how `value` meets concatenation,
splitting and padding with zeros, so that code which cuts a number's
text apart, pads it and glues it back can be shown to keep the number.

`fixedPoint whole frac` is the text `whole.frac` of a fixed-point
number (just `whole` when there are no fractional digits), and
`fixedValue p whole frac` the number of `10^-p` units it denotes.
-/
import Mathlib

namespace NibiruWasm.Text

-- ========================================================= digits

/-- The value of a decimal digit character. -/
def digitValue (c : Char) : ℕ := c.toNat - 48

/-- Every character is an ASCII decimal digit. -/
def IsDigits (l : List Char) : Prop := ∀ c ∈ l, c.isDigit = true

instance (l : List Char) : Decidable (IsDigits l) :=
  decidable_of_iff (l.all Char.isDigit = true) (by simp [IsDigits])

variable {a b l : List Char} {c : Char}

theorem digitValue_lt (h : c.isDigit = true) : digitValue c < 10 := by
  simp only [Char.isDigit, Bool.and_eq_true, decide_eq_true_eq] at h
  have h2 : c.val.toNat ≤ 57 := h.2
  simp only [digitValue, Char.toNat]
  omega

@[simp] theorem digitValue_zero : digitValue '0' = 0 := rfl

@[simp] theorem isDigits_nil : IsDigits [] := nofun

@[simp] theorem isDigits_cons : IsDigits (c :: l) ↔ c.isDigit = true ∧ IsDigits l := by
  simp [IsDigits]

@[simp] theorem isDigits_append : IsDigits (a ++ b) ↔ IsDigits a ∧ IsDigits b := by
  simp only [IsDigits, List.mem_append]
  exact ⟨fun h => ⟨fun c hc => h c (.inl hc), fun c hc => h c (.inr hc)⟩,
    fun h c hc => hc.elim (h.1 c) (h.2 c)⟩

@[simp] theorem isDigits_replicate_zero (k : ℕ) : IsDigits (List.replicate k '0') := by
  intro c hc
  rw [List.eq_of_mem_replicate hc]
  rfl

/-- A character that is not a digit does not occur in a digit string. -/
theorem not_mem_of_isDigits (h : IsDigits l) (hc : c.isDigit = false) : c ∉ l :=
  fun hmem => absurd (h c hmem) (by simp [hc])

theorem isDigits_iff_any : (l.any fun c => !c.isDigit) = false ↔ IsDigits l := by
  simp [IsDigits, List.any_eq_false]

theorem IsDigits.take (h : IsDigits l) (k : ℕ) : IsDigits (l.take k) :=
  fun c hc => h c (List.mem_of_mem_take hc)

theorem IsDigits.drop (h : IsDigits l) (k : ℕ) : IsDigits (l.drop k) :=
  fun c hc => h c (List.mem_of_mem_drop hc)

-- ========================================================== value

/-- The number a string of decimal digits denotes, most significant
digit first. -/
def value (l : List Char) : ℕ := l.foldl (fun n c => 10 * n + digitValue c) 0

/-- The fold from any accumulator: the accumulator shifts past every
digit. -/
theorem foldl_value (n : ℕ) (l : List Char) :
    l.foldl (fun n c => 10 * n + digitValue c) n = n * 10 ^ l.length + value l := by
  induction l generalizing n with
  | nil => simp [value]
  | cons c l ih =>
      have hc : value (c :: l) = digitValue c * 10 ^ l.length + value l := by
        rw [value, List.foldl_cons, ih]
        simp
      rw [List.foldl_cons, ih, hc, List.length_cons, pow_succ]
      ring

@[simp] theorem value_nil : value [] = 0 := rfl

theorem value_append (a b : List Char) : value (a ++ b) = value a * 10 ^ b.length + value b := by
  rw [value, List.foldl_append, foldl_value]
  rfl

theorem value_cons (c : Char) (l : List Char) :
    value (c :: l) = digitValue c * 10 ^ l.length + value l := by
  rw [← List.singleton_append, value_append]
  simp [value]

@[simp] theorem value_replicate_zero (k : ℕ) : value (List.replicate k '0') = 0 := by
  induction k with
  | zero => rfl
  | succ k ih => rw [List.replicate_succ, value_cons, ih, digitValue_zero]; simp

@[simp] theorem value_zeros_append (k : ℕ) (l : List Char) :
    value (List.replicate k '0' ++ l) = value l := by
  simp [value_append]

@[simp] theorem value_append_zeros (l : List Char) (k : ℕ) :
    value (l ++ List.replicate k '0') = value l * 10 ^ k := by
  simp [value_append]

/-- A digit string of length `n` denotes less than `10^n`. -/
theorem value_lt (h : IsDigits l) : value l < 10 ^ l.length := by
  induction l with
  | nil => simp
  | cons c l ih =>
      rw [isDigits_cons] at h
      have hl := ih h.2
      have hc := digitValue_lt h.1
      rw [value_cons, List.length_cons]
      calc digitValue c * 10 ^ l.length + value l
          < (digitValue c + 1) * 10 ^ l.length := by rw [add_mul, one_mul]; omega
        _ ≤ 10 * 10 ^ l.length := Nat.mul_le_mul_right _ hc
        _ = 10 ^ (l.length + 1) := by ring

/-- Cutting a digit string after `k` characters. -/
theorem value_take_drop (l : List Char) (k : ℕ) :
    value l = value (l.take k) * 10 ^ (l.length - k) + value (l.drop k) := by
  conv_lhs => rw [← List.take_append_drop k l]
  rw [value_append, List.length_drop]

-- ========================================================= render

/-- The decimal digits of a number, `Nat.toDigits 10`: `0` is `"0"`. -/
def render (n : ℕ) : List Char := Nat.toDigits 10 n

theorem isDigits_render (n : ℕ) : IsDigits (render n) :=
  fun _ hc => Nat.isDigit_of_mem_toDigits (by norm_num) (by norm_num) hc

theorem render_ne_nil (n : ℕ) : render n ≠ [] :=
  List.ne_nil_of_length_pos Nat.length_toDigits_pos

theorem value_render (n : ℕ) : value (render n) = n := by
  induction n using Nat.strong_induction_on with
  | _ n ih =>
      rw [render, Nat.toDigits_eq_if (by norm_num)]
      split
      · next h => simp [value, digitValue, Nat.toNat_digitChar_sub_48_of_lt_ten h]
      · next h =>
          -- all digits but the last are those of `n / 10`
          rw [value_append, ← render, ih (n / 10) (by omega)]
          simp [value, digitValue, Nat.toNat_digitChar_sub_48_of_lt_ten (Nat.mod_lt n (by norm_num))]
          omega

theorem length_render_le {n e : ℕ} (he : 0 < e) (h : n < 10 ^ e) : (render n).length ≤ e :=
  Nat.toDigits_length 10 n e he h

-- ========================================== padding and trimming

/-- Padding on the left with `'0'` to `k` characters (`{:0>k}`). -/
def padLeft (k : ℕ) (l : List Char) : List Char := List.replicate (k - l.length) '0' ++ l

@[simp] theorem value_padLeft (k : ℕ) (l : List Char) : value (padLeft k l) = value l :=
  value_zeros_append _ _

theorem length_padLeft {k : ℕ} (h : l.length ≤ k) : (padLeft k l).length = k := by
  simp only [padLeft, List.length_append, List.length_replicate]
  omega

theorem IsDigits.padLeft (h : IsDigits l) (k : ℕ) : IsDigits (Text.padLeft k l) := by
  simp [Text.padLeft, h]

/-- Dropping the trailing `'0'`s (`trim_end_matches('0')`). -/
def trimEndZeros (l : List Char) : List Char := (l.reverse.dropWhile (· == '0')).reverse

/-- A string is its trimmed part followed by zeros. -/
theorem trimEndZeros_append_zeros (l : List Char) :
    l = trimEndZeros l ++ List.replicate (l.length - (trimEndZeros l).length) '0' := by
  have hsplit := List.takeWhile_append_dropWhile (p := (· == '0')) (l := l.reverse)
  have hzeros : l.reverse.takeWhile (· == '0')
      = List.replicate (l.reverse.takeWhile (· == '0')).length '0' :=
    List.eq_replicate_iff.mpr ⟨rfl, fun c hc => by simpa using List.mem_takeWhile_imp hc⟩
  have hl : l = trimEndZeros l ++ List.replicate (l.reverse.takeWhile (· == '0')).length '0' := by
    conv_lhs => rw [← List.reverse_reverse l, ← hsplit, List.reverse_append, hzeros]
    rw [List.reverse_replicate]
    rfl
  have hlen : l.length - (trimEndZeros l).length = (l.reverse.takeWhile (· == '0')).length := by
    have h := congrArg List.length hl
    rw [List.length_append, List.length_replicate] at h
    omega
  rw [hlen]
  exact hl

theorem IsDigits.trimEndZeros (h : IsDigits l) : IsDigits (Text.trimEndZeros l) := by
  rw [trimEndZeros_append_zeros l, isDigits_append] at h
  exact h.1

theorem length_trimEndZeros_le (l : List Char) : (trimEndZeros l).length ≤ l.length := by
  conv_rhs => rw [trimEndZeros_append_zeros l]
  simp

theorem value_trimEndZeros (l : List Char) :
    value l = value (trimEndZeros l) * 10 ^ (l.length - (trimEndZeros l).length) := by
  conv_lhs => rw [trimEndZeros_append_zeros l]
  exact value_append_zeros _ _

-- ====================================================== fixed point

/-- The text of a fixed-point number: the whole part, then `.` and the
fractional digits when there are any. -/
def fixedPoint (whole frac : List Char) : List Char :=
  if frac = [] then whole else whole ++ '.' :: frac

/-- The number of `10^-p` units that `whole.frac` denotes. -/
def fixedValue (p : ℕ) (whole frac : List Char) : ℕ :=
  value whole * 10 ^ p + value frac * 10 ^ (p - frac.length)

/-- Splitting a fixed-point text at `.` gives back its parts. -/
theorem splitOn_fixedPoint {whole frac : List Char} (hw : '.' ∉ whole) (hf : '.' ∉ frac) :
    (fixedPoint whole frac).splitOn '.' = if frac = [] then [whole] else [whole, frac] := by
  unfold fixedPoint
  split
  · exact List.splitOn_eq_singleton hw
  · rw [List.splitOn_append_cons_self_of_not_mem hw, List.splitOn_eq_singleton hf]

-- ============================================================ signs

/-- Removing one leading character `c` (`strip_prefix(c)`). -/
def stripPrefix (c : Char) : List Char → Option (List Char)
  | d :: rest => if d = c then some rest else none
  | [] => none

/-- A `'-'` in front exactly when `neg`. -/
def signPrefix (neg : Bool) : List Char := if neg then ['-'] else []

@[simp] theorem stripPrefix_cons_self (c : Char) (l : List Char) :
    stripPrefix c (c :: l) = some l := by
  simp [stripPrefix]

theorem stripPrefix_of_head_ne (h : l.head? ≠ some c) : stripPrefix c l = none := by
  cases l with
  | nil => rfl
  | cons d l =>
      have hd : d ≠ c := fun hdc => h (by simp [hdc])
      simp [stripPrefix, hd]

/-- A digit string does not start with a character that is not a digit. -/
theorem head?_ne_of_isDigits (h : IsDigits l) (hc : c.isDigit = false) : l.head? ≠ some c := by
  cases l with
  | nil => simp
  | cons d l =>
      rw [isDigits_cons] at h
      intro hd
      simp only [List.head?_cons, Option.some.injEq] at hd
      rw [hd, hc] at h
      exact Bool.false_ne_true h.1

end NibiruWasm.Text
