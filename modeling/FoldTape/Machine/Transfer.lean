import FoldTape.Machine.Basic

/-!
# Folded input and output

An output instruction writes the current cell as often as its operand says; an input
instruction reads as often, and every byte it reads replaces the last one. What has been
written or read before a failure stays so.
-/

namespace FoldTape

variable {δ : Type} [Device δ]

/-- Writes a cell a number of times. -/
def writeCell (cell : UInt8) : Nat → δ → EStateM.Result PortError δ Unit
  | 0, device => .ok () device
  | count + 1, device =>
    match Device.write (cell.toNat : Int) device with
    | .ok _ device => writeCell cell count device
    | .error e device => .error e device

/-- Why reading into a cell stopped early. -/
inductive ReadFailure where
  | endOfInput
  | port (e : PortError)
  deriving DecidableEq, Repr

/-- Reads into a cell a number of times. The result holds the cell as the last successful read
left it. -/
def readCell (eof : EndPolicy) (cell : UInt8) :
    Nat → δ → EStateM.Result ReadFailure (UInt8 × δ) Unit
  | 0, device => .ok () (cell, device)
  | count + 1, device =>
    match Device.read device with
    | .error e device => .error (.port e) (cell, device)
    | .ok (some byte) device => readCell eof byte count device
    | .ok none device =>
      match eof with
      | .error => .error .endOfInput (cell, device)
      | .zero => readCell eof 0 count device

/-- The fault that a read failure of the instruction at `pc` amounts to. -/
def ReadFailure.fault (pc pointer : Nat) : ReadFailure → Fault
  | endOfInput => .endOfInput pc pointer
  | port e => .port e

end FoldTape
