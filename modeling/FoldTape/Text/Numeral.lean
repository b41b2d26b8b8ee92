/-!
# Numerals

Reading an integer from a text: an optional sign and decimal digits, with blanks before and
after. The digits may be those of any script that Unicode (version 14.0) gives decimal digits,
and a single underscore may stand between two digits. A numeral of more than 4300 digits is
refused.
-/

namespace FoldTape

/-! ## §1 Digits and blanks -/

/-- The zeros of the decimal digits of Unicode; the other nine digits follow each zero. -/
def decimalZeros : List Nat :=
  [0x30, 0x660, 0x6f0, 0x7c0, 0x966, 0x9e6, 0xa66, 0xae6, 0xb66, 0xbe6, 0xc66, 0xce6, 0xd66,
    0xde6, 0xe50, 0xed0, 0xf20, 0x1040, 0x1090, 0x17e0, 0x1810, 0x1946, 0x19d0, 0x1a80, 0x1a90,
    0x1b50, 0x1bb0, 0x1c40, 0x1c50, 0xa620, 0xa8d0, 0xa900, 0xa9d0, 0xa9f0, 0xaa50, 0xabf0,
    0xff10, 0x104a0, 0x10d30, 0x11066, 0x110f0, 0x11136, 0x111d0, 0x112f0, 0x11450, 0x114d0,
    0x11650, 0x116c0, 0x11730, 0x118e0, 0x11950, 0x11c50, 0x11d50, 0x11da0, 0x16a60, 0x16ac0,
    0x16b50, 0x1d7ce, 0x1d7d8, 0x1d7e2, 0x1d7ec, 0x1d7f6, 0x1e140, 0x1e2f0, 0x1e950, 0x1fbf0]

/-- The value of a decimal digit. -/
def digitValue? (c : Char) : Option Nat :=
  (decimalZeros.find? fun first => first ≤ c.toNat && c.toNat ≤ first + 9).map (c.toNat - ·)

/-- The characters that may surround a numeral: the ASCII layout characters, and the white
space of Unicode outside ASCII. -/
def isNumeralBlank (c : Char) : Bool :=
  c = ' ' || ('\t' ≤ c && c ≤ '\r') || c = '\x85' || c = '\u00a0' || c = '\u1680' ||
    ('\u2000' ≤ c && c ≤ '\u200a') || c = '\u2028' || c = '\u2029' || c = '\u202f' ||
    c = '\u205f' || c = '\u3000'

/-- The white space of ASCII that core knows may surround a numeral. -/
theorem isNumeralBlank_of_isWhitespace {c : Char} (h : c.isWhitespace) : isNumeralBlank c := by
  simp only [Char.isWhitespace, Bool.or_eq_true, decide_eq_true_eq] at h
  rcases h with ((rfl | rfl) | rfl) | rfl <;> decide

/-! ## §2 Reading -/

/-- The most digits that a numeral may have. -/
def maxDigits : Nat := 4300

/-- The value of digits with single underscores between them, given the value of the digits
before and whether the last character was a digit. -/
def digitsValue? (value : Nat) (afterDigit : Bool) : List Char → Option Nat
  | [] => if afterDigit then some value else none
  | c :: rest =>
    if c = '_' then if afterDigit then digitsValue? value false rest else none
    else
      match digitValue? c with
      | some d => digitsValue? (10 * value + d) true rest
      | none => none

/-- The value of an unsigned numeral. -/
def unsignedValue? (digits : List Char) : Option Nat :=
  if (digits.filter (· ≠ '_')).length ≤ maxDigits then digitsValue? 0 false digits else none

/-- A text without the blanks at its ends. -/
def trimBlanks (text : List Char) : List Char :=
  ((text.dropWhile isNumeralBlank).reverse.dropWhile isNumeralBlank).reverse

/-- The integer that a text denotes. -/
def integer? (text : String) : Option Int :=
  match trimBlanks text.toList with
  | '+' :: digits => (unsignedValue? digits).map Int.ofNat
  | '-' :: digits => (unsignedValue? digits).map fun n => -(n : Int)
  | digits => (unsignedValue? digits).map Int.ofNat

end FoldTape
