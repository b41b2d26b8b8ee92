import FoldTape.Instruction
import FoldTape.Text.Lines

/-!
# Listings

A listing shows a program with one instruction on each line: its address, two blanks, its
text. The addresses stand in a column whose width is that of the number of instructions, and
at least four.
-/

namespace FoldTape.Program

/-- The width of the address column: room for the number of instructions, at least four. -/
def addressWidth (p : Program) : Nat := max 4 (Nat.toDigits 10 p.size).length

/-- One line of a listing. -/
def listingLine (width address : Nat) (i : Instruction) : List Char :=
  decimalColumn width address ++ ' ' :: ' ' :: i.text

/-- The lines of a listing, in the order of the addresses. -/
def listingLines (p : Program) : List (List Char) :=
  p.toList.zipIdx.map fun (i, address) => listingLine (addressWidth p) address i

/-- The listing of a program; that of the empty program is empty. -/
def listing (p : Program) : List Char := joinLines (listingLines p)

@[simp] theorem length_listingLines (p : Program) : (listingLines p).length = p.size := by
  simp [listingLines]

end FoldTape.Program
