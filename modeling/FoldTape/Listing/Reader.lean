import FoldTape.Listing

/-!
# Reading listings

The way back from a listing to the program it shows. The addresses are skipped: the lines are
in their order.
-/

namespace FoldTape

/-- The operator with a mnemonic. -/
def Operator.ofMnemonic? (mnemonic : List Char) : Option Operator :=
  Operator.all.find? fun op => op.mnemonic.toList == mnemonic

@[simp] theorem Operator.ofMnemonic?_mnemonic (op : Operator) :
    Operator.ofMnemonic? op.mnemonic.toList = some op := by
  cases op <;> decide +kernel

/-- The natural number that decimal digits denote. -/
def natOfDecimal? (digits : List Char) : Option Nat :=
  if digits ≠ [] ∧ digits.all Char.isDigit then some (Nat.ofDigitChars 10 digits 0) else none

/-- The integer that is written in decimal. -/
def ofDecimal? : List Char → Option Int
  | '-' :: digits => (natOfDecimal? digits).map fun n => -(n : Int)
  | digits => (natOfDecimal? digits).map Int.ofNat

/-- The instruction with a text. -/
def Instruction.ofText? (text : List Char) : Option Instruction :=
  let mnemonic := text.takeWhile (· ≠ '\t')
  match Operator.ofMnemonic? mnemonic, ofDecimal? (text.drop (mnemonic.length + 1)) with
  | some operator, some operand => some ⟨operator, operand⟩
  | _, _ => none

/-- The instruction on a line of a listing: what follows the address and two blanks. -/
def instructionOfLine? (line : List Char) : Option Instruction :=
  let fromAddress := line.dropWhile (· = ' ')
  Instruction.ofText? ((fromAddress.dropWhile Char.isDigit).drop 2)

/-- The program that a listing shows. -/
def Program.ofListing? (listing : List Char) : Option Program :=
  if listing = [] then some #[]
  else ((splitLines listing).mapM instructionOfLine?).map List.toArray

end FoldTape
