import Mathlib.Data.List.DropRight
import Mathlib.Algebra.Order.Round
import Mathlib.Data.Rat.Floor
import Mathlib.Tactic.FieldSimp
import Mathlib.Tactic.Ring

/-! Decimal notation: digits, perhaps followed by a point and more digits. A number of
fixed scale is read back from the text that shows it, trailing zeros or not. -/
namespace Foundation.Numeral

/-- The value of the digits behind the point. -/
def fraction (digits : List Char) : ℚ := Nat.ofDigitChars 10 digits 0 / 10 ^ digits.length

def Digits (text : List Char) : Prop := text ≠ [] ∧ text.all Char.isDigit

instance (text : List Char) : Decidable (Digits text) := inferInstanceAs (Decidable (_ ∧ _))

def read (text : List Char) : Option ℚ :=
  let whole := text.takeWhile (· ≠ '.')
  if Digits whole then
    match text.dropWhile (· ≠ '.') with
    | [] => some (Nat.ofDigitChars 10 whole 0)
    | _ :: digits =>
      if Digits digits then some (Nat.ofDigitChars 10 whole 0 + fraction digits) else none
  else none

/-- A number of `scale` decimal places, without trailing zeros. -/
def write (scale units : Nat) : List Char :=
  let digits := ((Nat.toDigits 10 (10 ^ scale + units % 10 ^ scale)).drop 1).rdropWhile (· = '0')
  let whole := Nat.toDigits 10 (units / 10 ^ scale)
  if digits.isEmpty then whole else whole ++ '.' :: digits

section Values
variable {digits : List Char}

theorem ofDigitChars_lt (digital : digits.all Char.isDigit) :
    Nat.ofDigitChars 10 digits 0 < 10 ^ digits.length := by
  induction digits with
  | nil => simp
  | cons char rest ih =>
    simp only [List.all_cons, Bool.and_eq_true] at digital
    obtain ⟨digit, digital⟩ := digital
    have low := ih digital
    have small : char.toNat - '0'.toNat ≤ 9 := by
      simp only [Char.isDigit, Bool.and_eq_true, decide_eq_true_eq] at digit
      have upper : char.toNat ≤ '9'.toNat := UInt32.le_iff_toNat_le.mp digit.2
      exact Nat.sub_le_sub_right upper _
    rw [Nat.ofDigitChars_cons, Nat.ofDigitChars_eq_ofDigitChars_zero, List.length_cons, pow_succ]
    nlinarith

theorem digits_toDigits (n : Nat) : Digits (Nat.toDigits 10 n) :=
  ⟨Nat.toDigits_ne_nil, List.all_eq_true.mpr fun _ member =>
    Nat.isDigit_of_mem_toDigits (by decide) (by decide) member⟩

/-- A number below a power of ten, with the zeros in front of it. -/
theorem toDigits_padded {scale units : Nat} (small : units < 10 ^ scale) : ∃ first digits,
    Nat.toDigits 10 (10 ^ scale + units) = first :: digits ∧ digits.length = scale ∧
      digits.all Char.isDigit ∧
      Nat.ofDigitChars 10 digits 0 = units := by
  obtain ⟨nonempty, digital⟩ := digits_toDigits (10 ^ scale + units)
  obtain ⟨first, digits, text⟩ := List.exists_cons_of_ne_nil nonempty
  rw [text, List.all_cons, Bool.and_eq_true] at digital
  have long : (Nat.toDigits 10 (10 ^ scale + units)).length ≤ scale + 1 :=
    (Nat.length_toDigits_le_iff (by decide) (Nat.succ_pos scale)).mpr (by rw [pow_succ]; omega)
  have enough : scale ≤ digits.length := by
    rcases Nat.eq_zero_or_pos scale with rfl | positive
    · exact Nat.zero_le _
    · by_contra short
      have below : 10 ^ scale + units < 10 ^ scale :=
        (Nat.length_toDigits_le_iff (by decide) positive).mp (by rw [text, List.length_cons]; omega)
      omega
  rw [text, List.length_cons] at long
  obtain rfl : digits.length = scale := by omega
  have value := Nat.ofDigitChars_ten_toDigits (n := 10 ^ digits.length + units)
  rw [text, Nat.ofDigitChars_cons, Nat.ofDigitChars_eq_ofDigitChars_zero, Nat.mul_zero,
    Nat.zero_add] at value
  have below := ofDigitChars_lt digital.2
  refine ⟨first, digits, text, rfl, digital.2, ?_⟩
  generalize first.toNat - '0'.toNat = lead at value
  rcases lead with _ | _ | lead
  · omega
  · omega
  · have : 10 ^ digits.length * 2 ≤ 10 ^ digits.length * (lead + 1 + 1) :=
      Nat.mul_le_mul_left _ (by omega)
    omega

/-- Trailing zeros do not count. -/
theorem fraction_rdropWhile (digits : List Char) :
    fraction (digits.rdropWhile (· = '0')) = fraction digits := by
  induction digits using List.reverseRecOn with
  | nil => simp
  | append_singleton front last ih =>
    by_cases zero : last = '0'
    · subst zero
      rw [List.rdropWhile_concat_pos _ _ _ (by simp), ih]
      simp only [fraction, Nat.ofDigitChars_append, Nat.ofDigitChars_cons, Nat.ofDigitChars_nil,
        List.length_append, List.length_singleton, pow_succ]
      push_cast
      field_simp
      ring
    · rw [List.rdropWhile_concat_neg _ _ _ (by simpa using zero)]

theorem isDigit_ne_point {char : Char} (digit : char.isDigit) : char ≠ '.' := by
  rintro rfl
  cases digit

end Values

section Reading
variable {whole digits : List Char}

theorem takeWhile_whole (digital : Digits whole) (rest : List Char) :
    (whole ++ '.' :: rest).takeWhile (· ≠ '.') = whole ∧
      (whole ++ '.' :: rest).dropWhile (· ≠ '.') = '.' :: rest := by
  have all : ∀ char ∈ whole, decide (char ≠ '.') = true := fun char member => by
    simpa using isDigit_ne_point (List.all_eq_true.mp digital.2 char member)
  rw [List.takeWhile_append_of_pos all, List.dropWhile_append_of_pos all]
  simp

theorem read_whole (digital : Digits whole) :
    read whole = some (Nat.ofDigitChars 10 whole 0 : ℚ) := by
  have all : ∀ char ∈ whole, decide (char ≠ '.') = true := fun char member => by
    simpa using isDigit_ne_point (List.all_eq_true.mp digital.2 char member)
  have kept : whole.takeWhile (· ≠ '.') = whole := List.takeWhile_eq_self_iff.mpr all
  have dropped : whole.dropWhile (· ≠ '.') = [] := List.dropWhile_eq_nil_iff.mpr all
  simp only [read, kept, dropped, if_pos digital]

theorem read_point (digital : Digits whole) (digits_ : Digits digits) :
    read (whole ++ '.' :: digits) = some (Nat.ofDigitChars 10 whole 0 + fraction digits) := by
  obtain ⟨kept, dropped⟩ := takeWhile_whole digital digits
  simp only [read, kept, dropped, if_pos digital, if_pos digits_]

/-- What is written is read back. -/
theorem read_write (scale units : Nat) :
    read (write scale units) = some ((units : ℚ) / 10 ^ scale) := by
  obtain ⟨first, digits, text, length, digital, value⟩ :=
    toDigits_padded (Nat.mod_lt units (Nat.pow_pos (n := scale) (by decide : 0 < 10)))
  have shown : fraction (digits.rdropWhile (· = '0')) = ((units % 10 ^ scale : Nat) :
      ℚ) / 10 ^ scale := by
    rw [fraction_rdropWhile, fraction, value, length]
  have split : ((units / 10 ^ scale : Nat) : ℚ) +
      ((units % 10 ^ scale : Nat) : ℚ) / 10 ^ scale = (units : ℚ) / 10 ^ scale := by
    have := Nat.div_add_mod units (10 ^ scale)
    have cast : (10 : ℚ) ^ scale * ((units / 10 ^ scale : Nat) : ℚ) +
        ((units % 10 ^ scale : Nat) : ℚ) = units := by
      exact_mod_cast this
    field_simp
    linarith
  have digital' : (digits.rdropWhile (· = '0')).all Char.isDigit :=
    List.all_eq_true.mpr fun char member =>
      List.all_eq_true.mp digital char ((List.rdropWhile_prefix _ digits).subset member)
  simp only [write, text, List.drop_one, List.tail_cons]
  cases rest : digits.rdropWhile (· = '0') with
  | nil =>
    rw [rest, fraction] at shown
    rw [List.isEmpty_nil, if_pos rfl, read_whole (digits_toDigits _),
      Nat.ofDigitChars_ten_toDigits, ← split, ← shown]
    simp
  | cons char others =>
    have nonempty : Digits (char :: others) := ⟨List.cons_ne_nil _ _, rest ▸ digital'⟩
    rw [List.isEmpty_cons, if_neg Bool.false_ne_true, read_point (digits_toDigits _) nonempty,
      Nat.ofDigitChars_ten_toDigits, ← split, ← shown, rest]

end Reading
end Foundation.Numeral
