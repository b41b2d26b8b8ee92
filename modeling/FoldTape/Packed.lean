import FoldTape.Instruction

/-!
# Packed programs

Before a program runs it is packed into two parallel arrays, one of operators and one of
64-bit signed operands. An operand that does not fit into 64 bits makes packing fail, and then
nothing runs.
-/

namespace FoldTape

/-- A program in the form in which it runs. -/
structure Packed where
  operators : Array Operator
  operands : Array Int64
  aligned : operators.size = operands.size

namespace Packed

/-- The number of instructions. -/
def size (p : Packed) : Nat := p.operators.size

/-- The operator and the operand at an address, if the program reaches that far. -/
@[inline] def fetch? (p : Packed) (address : Nat) : Option (Operator × Int64) :=
  if h : address < p.operators.size then
    have : address < p.operands.size := p.aligned ▸ h
    some (p.operators[address], p.operands[address])
  else none

theorem fetch?_eq_none_iff {p : Packed} {address : Nat} :
    p.fetch? address = none ↔ p.size ≤ address := by
  simp [fetch?, size]

end Packed

/-- The first number that is too large for 64 bits with a sign, the power `2⁶³`. -/
def int64Bound : Int := 9223372036854775808

/-- Whether a number is one of the 64-bit signed numbers. -/
def fitsInt64 (n : Int) : Bool := -int64Bound ≤ n ∧ n < int64Bound

/-- Packs a program; fails exactly if some operand does not fit into 64 bits. -/
def Program.pack? (p : Program) : Option Packed :=
  if p.all fun i => fitsInt64 i.operand then
    some
      { operators := p.map Instruction.operator
        operands := p.map fun i => Int64.ofInt i.operand
        aligned := by simp }
  else none

theorem Program.pack?_isSome_iff {p : Program} :
    p.pack?.isSome ↔ ∀ i ∈ p, -int64Bound ≤ i.operand ∧ i.operand < int64Bound := by
  have fits : (p.all fun i => fitsInt64 i.operand) = true ↔
      ∀ i ∈ p, -int64Bound ≤ i.operand ∧ i.operand < int64Bound := by
    rw [Array.all_eq_true_iff_forall_mem]
    simp [fitsInt64]
  rw [← fits]
  simp only [pack?]
  split <;> simp_all

end FoldTape
