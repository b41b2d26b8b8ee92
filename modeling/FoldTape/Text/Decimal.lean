/-!
# Decimal numbers

How numbers are written: decimal digits without leading zeros, a minus sign in front of a
negative number, and, in a column, blanks on the left up to the width of the column.
-/

namespace FoldTape

/-- Decimal digits of an integer, with a leading minus sign if it is negative. -/
def decimal : Int → List Char
  | .ofNat n => Nat.toDigits 10 n
  | .negSucc n => '-' :: Nat.toDigits 10 (n + 1)

@[simp] theorem decimal_natCast (n : Nat) : decimal n = Nat.toDigits 10 n := rfl

/-- A natural number in a column of a given width. A number that needs more room is not cut. -/
def decimalColumn (width n : Nat) : List Char :=
  (Nat.toDigits 10 n).leftpad width ' '

theorem le_length_decimalColumn (width n : Nat) : width ≤ (decimalColumn width n).length := by
  simp only [decimalColumn, List.length_leftpad]
  omega

/-- A number as a piece of a message. -/
def decimalText (n : Int) : String := String.ofList (decimal n)

end FoldTape
