import FoldTape.Text.Decimal
import FoldTape.Text.Numeral

/-!
# Numerals read back

A natural number that is written in decimal digits is read back as that number, as long as it has
no more digits than a numeral may have.

## Architecture

- **§1 Digits**: what reading makes of one of the ten digits.
- **§2 Numerals**: digits one after the other, and `integer?_decimalText`.
-/

namespace FoldTape

/-! ## §1 Digits -/

/-- A digit is the character of a number below ten. -/
theorem exists_digitChar_of_isDigit {c : Char} (h : c.isDigit) : ∃ d < 10, c = Nat.digitChar d := by
  have hrange : 48 ≤ c.toNat ∧ c.toNat ≤ 57 := by
    simpa [Char.isDigit, UInt32.le_iff_toNat_le] using h
  refine ⟨c.toNat - 48, by omega, Char.toNat_inj.mp ?_⟩
  rw [Nat.toNat_digitChar_of_lt_ten (by omega)]
  omega

/-- Each of the ten digits has its value, and is neither a blank nor an underscore. -/
theorem digitChar_of_lt_ten : ∀ d < 10,
    digitValue? d.digitChar = some d ∧ isNumeralBlank d.digitChar = false ∧
      d.digitChar ≠ '_' := by
  decide

variable {digits : List Char}

/-! ## §2 Numerals -/

/-- Digits are read from left to right. -/
theorem digitsValue?_of_isDigit (hdigits : ∀ c ∈ digits, c.isDigit) (value : Nat) :
    digitsValue? value true digits = some (Nat.ofDigitChars 10 digits value) := by
  induction digits generalizing value with
  | nil => rfl
  | cons c rest ih =>
    obtain ⟨d, hd, rfl⟩ := exists_digitChar_of_isDigit (hdigits c List.mem_cons_self)
    obtain ⟨hvalue, -, hunderscore⟩ := digitChar_of_lt_ten d hd
    rw [Nat.ofDigitChars_cons_digitChar_of_lt_ten hd]
    simp only [digitsValue?, if_neg hunderscore, hvalue]
    exact ih (fun c hc => hdigits c (List.mem_cons_of_mem _ hc)) _

/-- Digits alone are an unsigned numeral, if there are any and not too many. -/
theorem unsignedValue?_of_isDigit (hdigits : ∀ c ∈ digits, c.isDigit) (hne : digits ≠ [])
    (hlength : digits.length ≤ maxDigits) :
    unsignedValue? digits = some (Nat.ofDigitChars 10 digits 0) := by
  have hfilter : digits.filter (· ≠ '_') = digits := by
    refine List.filter_eq_self.mpr ?_
    intro c hc
    obtain ⟨d, hd, rfl⟩ := exists_digitChar_of_isDigit (hdigits c hc)
    exact decide_eq_true (digitChar_of_lt_ten d hd).2.2
  rw [unsignedValue?, hfilter, if_pos hlength, ← digitsValue?_of_isDigit hdigits]
  -- At the first digit it does not matter that none came before.
  cases digits with
  | nil => exact absurd rfl hne
  | cons c rest =>
    obtain ⟨d, hd, rfl⟩ := exists_digitChar_of_isDigit (hdigits c List.mem_cons_self)
    simp only [digitsValue?, if_neg (digitChar_of_lt_ten d hd).2.2]

/-- Digits have no blanks around them. -/
theorem trimBlanks_of_isDigit (hdigits : ∀ c ∈ digits, c.isDigit) : trimBlanks digits = digits := by
  have hkept : ∀ text : List Char, (∀ c ∈ text, c.isDigit) →
      text.dropWhile isNumeralBlank = text := by
    intro text htext
    cases text with
    | nil => rfl
    | cons c rest =>
      obtain ⟨d, hd, rfl⟩ := exists_digitChar_of_isDigit (htext c List.mem_cons_self)
      rw [List.dropWhile_cons_of_neg]
      rw [(digitChar_of_lt_ten d hd).2.1]
      exact Bool.false_ne_true
  rw [trimBlanks, hkept digits hdigits, hkept digits.reverse, List.reverse_reverse]
  intro c hc
  exact hdigits c (List.mem_reverse.mp hc)

/-- **A number in decimal digits is read back**, if a numeral may have so many. -/
theorem integer?_decimalText {n : Nat} (hlength : (Nat.toDigits 10 n).length ≤ maxDigits) :
    integer? (decimalText n) = some (n : Int) := by
  have hdigits : ∀ c ∈ Nat.toDigits 10 n, c.isDigit := by
    intro c hc
    exact Nat.isDigit_of_mem_toDigits (by decide) (by decide) hc
  have hvalue := unsignedValue?_of_isDigit hdigits Nat.toDigits_ne_nil hlength
  rw [Nat.ofDigitChars_ten_toDigits] at hvalue
  rw [integer?, decimalText, String.toList_ofList, decimal_natCast, trimBlanks_of_isDigit hdigits]
  -- There is no sign in front.
  split
  · rename_i hsign
    exact absurd (hdigits '+' (hsign ▸ List.mem_cons_self)) (by decide)
  · rename_i hsign
    exact absurd (hdigits '-' (hsign ▸ List.mem_cons_self)) (by decide)
  · rw [hvalue]
    rfl

end FoldTape
