import FoldTape.Port.Device
import FoldTape.Text.Decimal

/-!
# The machine and its faults

A machine has a tape of byte cells, a data pointer, a program counter and a count of completed
steps. It is connected to a device for input and output. The settings fix the length of the
tape, what reading at the end of the input does, and how many steps are allowed.
-/

namespace FoldTape

/-! ## §1 Settings -/

/-- What an input instruction does at the end of the input. -/
inductive EndPolicy where
  /-- The run fails. -/
  | error
  /-- The cell becomes zero. -/
  | zero
  deriving DecidableEq, Repr

/-- The number of cells of a tape if nothing else is said. -/
def defaultTapeSize : Nat := 30000

/-- How a machine is set up. -/
structure Settings where
  tapeSize : Nat := defaultTapeSize
  eof : EndPolicy := .error
  /-- The number of steps that are allowed; no number or a negative one sets no limit. -/
  maxSteps : Option Int := none
  deriving DecidableEq, Repr

/-! ## §2 State -/

/-- A tape of byte cells. -/
abbrev Tape := Array UInt8

/-- A tape of zero cells. -/
def Tape.blank (size : Nat) : Tape := Array.replicate size 0

/-- The cell at an address; cells outside the tape count as zero. -/
def Tape.cell (tape : Tape) (address : Nat) : UInt8 := tape.getD address 0

/-- The tape with a new value in the cell at an address. -/
def Tape.store (tape : Tape) (address : Nat) (value : UInt8) : Tape :=
  tape.setIfInBounds address value

/-- What a running program works on, apart from the device. -/
structure Registers where
  /-- The address of the next instruction. -/
  pc : Nat
  /-- The address of the current cell. -/
  pointer : Nat
  /-- How many instructions have been completed. -/
  steps : Nat
  tape : Tape
  deriving DecidableEq, Repr

/-- The registers at the start of a run. -/
def Registers.start (tapeSize : Nat) : Registers := ⟨0, 0, 0, .blank tapeSize⟩

/-- The registers together with the device. -/
structure State (δ : Type) where
  registers : Registers
  device : δ

/-! ## §3 Faults -/

/-- Why a run failed. -/
inductive Fault where
  /-- A move to the left would leave the tape. -/
  | underflow (pc pointer amount : Nat)
  /-- A move to the right would leave the tape. -/
  | overflow (pc pointer amount tapeSize : Nat)
  /-- The input has ended, and the settings make that a fault. -/
  | endOfInput (pc pointer : Nat)
  /-- All allowed steps are done and the program has not ended. -/
  | stepLimit (pc pointer : Nat) (maxSteps : Int)
  /-- The device failed. -/
  | port (e : PortError)
  /-- An operand does not fit into 64 bits. -/
  | operandTooLarge
  deriving DecidableEq, Repr

/-- What is said about a failed run. -/
def Fault.message : Fault → String
  | underflow pc pointer amount =>
    "data pointer underflow: cannot move left " ++ decimalText amount ++ " from cell " ++
      decimalText pointer ++ " (instruction " ++ decimalText pc ++ ")"
  | overflow pc pointer amount tapeSize =>
    "data pointer overflow: cannot move right " ++ decimalText amount ++ " from cell " ++
      decimalText pointer ++ " on a " ++ decimalText tapeSize ++ "-cell tape (instruction " ++
      decimalText pc ++ ")"
  | endOfInput pc _ => "end of input at instruction " ++ decimalText pc
  | stepLimit pc _ maxSteps =>
    "step limit of " ++ decimalText maxSteps ++ " exceeded (instruction " ++ decimalText pc ++ ")"
  | port e => e.message
  | operandTooLarge => "Python int too large to convert to C long"

end FoldTape
