import FoldTape.Operator
import FoldTape.Text.Decimal

/-!
# Instructions and programs

An instruction is an operator with an operand: how often the operator is repeated or, for the
two jumps, the address to continue at. A program is a sequence of instructions; the address of
an instruction is its index.
-/

namespace FoldTape

/-- An operator together with its repeat count or, for a jump, its target address. -/
structure Instruction where
  operator : Operator
  operand : Int
  deriving DecidableEq, Repr

/-- A flat sequence of instructions, addressed from zero. -/
abbrev Program := Array Instruction

/-- The text of an instruction: mnemonic, tab, operand. -/
def Instruction.text (i : Instruction) : List Char :=
  i.operator.mnemonic.toList ++ '\t' :: decimal i.operand

end FoldTape
