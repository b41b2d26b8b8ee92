import FoldTape.Diagnostic
import FoldTape.Machine.Execution
import FoldTape.Port.Ports

/-!
# Compiling and running a text

The whole way from a source text and input bytes to the output bytes and the final machine.
-/

namespace FoldTape

/-- Compiles a text, with a report if its brackets do not match. -/
def compileText (source : List Char) : Except Diagnostic Program :=
  match compile source with
  | .ok p => .ok p
  | .error u => .error (u.diagnostic source)

/-- What a run that ends well gives. -/
structure RunResult where
  output : Array UInt8
  tape : Tape
  pointer : Nat
  steps : Nat
  deriving DecidableEq, Repr

/-- Why a text could not be compiled and run. -/
inductive RunError where
  | unbalanced (d : Diagnostic)
  | fault (f : Fault)
  deriving DecidableEq, Repr

/-- What is said about a text that could not be compiled and run. -/
def RunError.message : RunError → String
  | unbalanced d => d.text
  | fault f => f.message

/-- The result of a finished run whose output went to memory. -/
def Report.result (r : Report Ports) : Except RunError RunResult :=
  match r.fault? with
  | some f => .error (.fault f)
  | none =>
    let ⟨registers, device⟩ := r.machine.state
    .ok
      { output := device.sink.written
        tape := registers.tape
        pointer := registers.pointer
        steps := registers.steps }

/-- Compiles a text and runs it on given input. There is no result if `fuel` does not suffice
for the run. -/
def runText (fuel : Nat) (source : List Char) (input : List UInt8) (settings : Settings) :
    Option (Except RunError RunResult) :=
  match compileText source with
  | .error d => some (.error (.unbalanced d))
  | .ok p => ((Machine.new settings (Ports.inMemory input)).execute fuel p).map Report.result

end FoldTape
