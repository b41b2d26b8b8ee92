import FoldTape.Machine.Basic
import FoldTape.Packed

/-!
# The kernel

The kernel runs a packed program for as long as no help from outside is needed. It stops before
an input or output instruction, before a move that would leave the tape, when its budget of
steps is used up, and at the end of the program. A negative budget sets no limit.

Cells are computed in 64-bit arithmetic that wraps around, of which the low eight bits are
kept.
-/

namespace FoldTape

/-- Why the kernel stopped. -/
inductive Stop where
  | halted
  | output
  | input
  | stepLimit
  | underflow
  | overflow
  deriving DecidableEq, Repr

/-- The number of a reason to stop. -/
def Stop.code : Stop → Nat
  | halted => 0
  | output => 1
  | input => 2
  | stepLimit => 3
  | underflow => 4
  | overflow => 5

/-- The low eight bits of a 64-bit number. -/
def lowByte (n : Int64) : UInt8 := UInt8.ofNat (n &&& 255).toNatClampNeg

/-- A cell as a 64-bit number. -/
def wideCell (cell : UInt8) : Int64 := Int64.ofNat cell.toNat

namespace Kernel

/-- Replaces the current cell and goes on to the next instruction. -/
@[inline] def updateCell (f : UInt8 → UInt8) : Registers → Registers
  | ⟨pc, pointer, steps, tape⟩ =>
    ⟨pc + 1, pointer, steps + 1, tape.store pointer (f (tape.cell pointer))⟩

/-- Goes to `target` if `taken`, and on to the next instruction otherwise. -/
@[inline] def jump (taken : Bool) (target : Nat) : Registers → Registers
  | ⟨pc, pointer, steps, tape⟩ => ⟨if taken then target else pc + 1, pointer, steps + 1, tape⟩

/-- Performs one instruction, or stops in front of it. -/
def perform (op : Operator) (n : Int64) (r : Registers) : EStateM.Result Stop Registers Unit :=
  match op with
  | .moveRight =>
    let amount := n.toNatClampNeg
    if r.tape.size ≤ r.pointer + amount then .error .overflow r
    else .ok () { r with pc := r.pc + 1, pointer := r.pointer + amount, steps := r.steps + 1 }
  | .moveLeft =>
    let amount := n.toNatClampNeg
    if r.pointer < amount then .error .underflow r
    else .ok () { r with pc := r.pc + 1, pointer := r.pointer - amount, steps := r.steps + 1 }
  | .increment => .ok () (updateCell (fun cell => lowByte (wideCell cell + n)) r)
  | .decrement => .ok () (updateCell (fun cell => lowByte (wideCell cell - n)) r)
  | .output => .error .output r
  | .input => .error .input r
  | .jumpIfZero => .ok () (jump (r.tape.cell r.pointer == 0) n.toNatClampNeg r)
  | .jumpIfNonzero => .ok () (jump (r.tape.cell r.pointer != 0) n.toNatClampNeg r)

/-- Whether a budget of steps is used up. -/
def exhausted (budget : Int) (steps : Nat) : Bool := 0 ≤ budget ∧ budget ≤ steps

/-- Runs until there is a reason to stop. The steps in the registers are those of this run of
the kernel. There is no result if `fuel` turns are not enough. -/
def run (code : Packed) (budget : Int) : Nat → Registers → Option (Stop × Registers)
  | 0, _ => none
  | fuel + 1, r =>
    match code.fetch? r.pc with
    | none => some (.halted, r)
    | some (op, n) =>
      if exhausted budget r.steps then some (.stepLimit, r)
      else
        match perform op n r with
        | .error stop r => some (stop, r)
        | .ok _ r => run code budget fuel r

/-- **A stop is final**: with more turns allowed the kernel stops in the same way. -/
theorem run_mono {code : Packed} {budget : Int} {fuel more : Nat} {r : Registers}
    {stopped : Stop × Registers} (hle : fuel ≤ more) (h : run code budget fuel r = some stopped) :
    run code budget more r = some stopped := by
  induction fuel generalizing more r with
  | zero => simp [run] at h
  | succ fuel ih =>
    obtain ⟨more, rfl⟩ : ∃ k, more = k + 1 := ⟨more - 1, by omega⟩
    simp only [run] at h ⊢
    split at h
    · exact h
    · split at h
      · rename_i exhausted
        simpa [exhausted] using h
      · rename_i left
        simp only [if_neg left]
        split at h
        · exact h
        · exact ih (by omega) h

end Kernel

end FoldTape
