import FoldTape.Proofs.Packing
import FoldTape.Proofs.Machine.Trampoline

/-!
# Arrays of opcodes

Two arrays of numbers are all that the kernel sees of a program, and any numbers will do. One that
is not the code of an operator is passed over, and counted as a step like every other instruction. A
packed program is the case in which there is no such number.

## Architecture

- **§1 Arrays**: the kernel on numbers (`Kernel.runArrays`), which runs a packed program as
  `Kernel.run` does (`Kernel.runArrays_arrays`).
- **§2 One instruction**: what the kernel can make of it (`Kernel.Performed`).
-/

namespace FoldTape

/-- The numbers of the instructions, and their operands. -/
structure OpcodeArrays where
  opcodes : Array Int32
  operands : Array Int64
  aligned : opcodes.size = operands.size

/-! ## §1 Arrays -/

/-- The number and the operand at an address, if the arrays reach that far. -/
def OpcodeArrays.fetch? (code : OpcodeArrays) (address : Nat) : Option (Int32 × Int64) :=
  if h : address < code.opcodes.size then
    have : address < code.operands.size := code.aligned ▸ h
    some (code.opcodes[address], code.operands[address])
  else none

/-- A packed program as the kernel sees it. -/
def Packed.arrays (code : Packed) : OpcodeArrays where
  opcodes := code.codes
  operands := code.operands
  aligned := by rw [codes, Array.size_map, code.aligned]

theorem Packed.fetch?_arrays (code : Packed) (address : Nat) :
    code.arrays.fetch? address =
      (code.fetch? address).map fun i => (Int32.ofNat i.1.code, i.2) := by
  by_cases h : address < code.operators.size
  · simp [OpcodeArrays.fetch?, fetch?, arrays, codes, h]
  · simp [OpcodeArrays.fetch?, fetch?, arrays, codes, h]

namespace Kernel

/-- Performs the instruction with a number, or stops in front of it. A number that is not the code
of an operator stands for an instruction that does nothing. -/
def performOpcode (opcode : Int32) (n : Int64) (r : Registers) :
    EStateM.Result Stop Registers Unit :=
  match Operator.ofCode? opcode.toInt with
  | some op => perform op n r
  | none => .ok () { r with pc := r.pc + 1, steps := r.steps + 1 }

/-- Runs until there is a reason to stop, as `Kernel.run` does. -/
def runArrays (code : OpcodeArrays) (budget : Int) : Nat → Registers → Option (Stop × Registers)
  | 0, _ => none
  | fuel + 1, r =>
    match code.fetch? r.pc with
    | none => some (.halted, r)
    | some (opcode, n) =>
      if exhausted budget r.steps then some (.stepLimit, r)
      else
        match performOpcode opcode n r with
        | .error stop r => some (stop, r)
        | .ok _ r => runArrays code budget fuel r

theorem performOpcode_code (op : Operator) (n : Int64) (r : Registers) :
    performOpcode (Int32.ofNat op.code) n r = perform op n r := by
  simp only [performOpcode, Operator.ofCode?_toInt]

/-- **A packed program is run by its numbers.** -/
theorem runArrays_arrays (code : Packed) (budget : Int) (fuel : Nat) (r : Registers) :
    runArrays code.arrays budget fuel r = run code budget fuel r := by
  induction fuel generalizing r with
  | zero => rfl
  | succ fuel ih =>
    rw [runArrays, run, code.fetch?_arrays]
    cases code.fetch? r.pc with
    | none => rfl
    | some i =>
      cases hperform : perform i.1 i.2 r with
      | error stop s => simp only [Option.map_some, performOpcode_code, hperform]
      | ok _ s => simp only [Option.map_some, performOpcode_code, hperform, ih]

/-! ## §2 One instruction -/

/-- What the kernel can make of an instruction. How many steps have been done before does not
matter. -/
inductive Performed (act : Registers → EStateM.Result Stop Registers Unit) (r : Registers) :
    EStateM.Result Stop Registers Unit → Prop where
  /-- It performs the instruction, which is one step. -/
  | ok {s : Registers} : s.steps = r.steps + 1 →
      (∀ done, act (r.addSteps done) = .ok () (s.addSteps done)) →
      Performed act r (.ok () s)
  /-- It stops in front of the instruction, and not because of the end or the budget. -/
  | stopped {stop : Stop} : stop ≠ .halted → stop ≠ .stepLimit →
      (∀ done, act (r.addSteps done) = .error stop (r.addSteps done)) →
      Performed act r (.error stop r)

/-- **What the kernel makes of an operator**, with every operand. -/
theorem performed (op : Operator) (n : Int64) (r : Registers) :
    Performed (perform op n) r (perform op n r) := by
  cases op with
  | moveRight =>
    by_cases h : r.tape.size ≤ r.pointer + n.toNatClampNeg
    · have hstop : perform .moveRight n r = .error .overflow r := if_pos h
      rw [hstop]
      exact .stopped (by decide) (by decide) fun _ => if_pos h
    · have hmove : perform .moveRight n r = .ok () { r with
          pc := r.pc + 1, pointer := r.pointer + n.toNatClampNeg, steps := r.steps + 1 } := if_neg h
      rw [hmove]
      exact .ok rfl fun _ => if_neg h
  | moveLeft =>
    by_cases h : r.pointer < n.toNatClampNeg
    · have hstop : perform .moveLeft n r = .error .underflow r := if_pos h
      rw [hstop]
      exact .stopped (by decide) (by decide) fun _ => if_pos h
    · have hmove : perform .moveLeft n r = .ok () { r with
          pc := r.pc + 1, pointer := r.pointer - n.toNatClampNeg, steps := r.steps + 1 } := if_neg h
      rw [hmove]
      exact .ok rfl fun _ => if_neg h
  | increment | decrement | jumpIfZero | jumpIfNonzero => exact .ok rfl fun _ => rfl
  | output | input => exact .stopped (by decide) (by decide) fun _ => rfl

/-- **What the kernel makes of a number**, whichever it is. -/
theorem performed_opcode (opcode : Int32) (n : Int64) (r : Registers) :
    Performed (performOpcode opcode n) r (performOpcode opcode n r) := by
  cases hcode : Operator.ofCode? opcode.toInt with
  | none =>
    have hskip : performOpcode opcode n =
        fun r => .ok () { r with pc := r.pc + 1, steps := r.steps + 1 } := by
      funext r
      simp only [performOpcode, hcode]
    rw [hskip]
    exact .ok rfl fun _ => rfl
  | some op =>
    have hop : performOpcode opcode n = perform op n := by
      funext r
      simp only [performOpcode, hcode]
    rw [hop]
    exact performed op n r

variable {act : Registers → EStateM.Result Stop Registers Unit} {r s : Registers} {stop : Stop}

theorem Performed.steps_eq (h : Performed act r (.ok () s)) : s.steps = r.steps + 1 := by
  cases h
  assumption

theorem Performed.addSteps (h : Performed act r (.ok () s)) (done : Nat) :
    act (r.addSteps done) = .ok () (s.addSteps done) := by
  cases h with
  | ok _ hlater => exact hlater done

/-- In front of an instruction that is not performed everything stays as it is. -/
theorem Performed.eq (h : Performed act r (.error stop s)) : s = r := by
  cases h
  rfl

theorem Performed.ne (h : Performed act r (.error stop s)) :
    stop ≠ .halted ∧ stop ≠ .stepLimit := by
  cases h with
  | stopped hhalted hlimit _ => exact ⟨hhalted, hlimit⟩

theorem Performed.addSteps_error (h : Performed act r (.error stop r)) (done : Nat) :
    act (r.addSteps done) = .error stop (r.addSteps done) := by
  cases h with
  | stopped _ _ hlater => exact hlater done

theorem performed_of_eq {opcode : Int32} {n : Int64}
    {result : EStateM.Result Stop Registers Unit} (h : performOpcode opcode n r = result) :
    Performed (performOpcode opcode n) r result :=
  h ▸ performed_opcode opcode n r

end Kernel

end FoldTape
