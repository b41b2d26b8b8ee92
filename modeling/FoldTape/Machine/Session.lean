import FoldTape.Machine.Execution
import FoldTape.Port.Ports

/-!
# Sessions

A machine can be used again and again: programs are run on it one after the other, and between
runs it can be reset, connected to another source of input, or given other settings. Only a run
can fail, and a failed run leaves a machine that can be used further.
-/

namespace FoldTape

/-- Something that is done with a machine. -/
inductive Machine.Command where
  /-- Run a program. -/
  | run (p : Program)
  /-- Clear the registers and the tape. -/
  | reset
  /-- Read from another source. -/
  | connect (source : Source)
  /-- Allow another number of steps. -/
  | limit (maxSteps : Option Int)
  /-- Treat the end of the input in another way. -/
  | atEnd (eof : EndPolicy)

namespace Machine

/-- Reads from another source. -/
def connect (source : Source) (m : Machine Ports) : Machine Ports :=
  m.mapDevice fun ports => { ports with source }

/-- Does one thing with a machine: gives the fault, if there is one, and the machine afterwards.
There is no result if `fuel` does not suffice for a run. -/
def obey (fuel : Nat) (m : Machine Ports) : Command → Option (Option Fault × Machine Ports)
  | .run p => (m.execute fuel p).map fun r => (r.fault?, r.machine)
  | .reset => some (none, m.reset)
  | .connect source => some (none, m.connect source)
  | .limit maxSteps => some (none, m.setMaxSteps maxSteps)
  | .atEnd eof => some (none, m.setEof eof)

/-- Does several things in turn, whether or not runs fail: gives the fault of each, if there is
one, with the machine after it. -/
def obeyAll (fuel : Nat) (m : Machine Ports) :
    List Command → Option (List (Option Fault × Machine Ports))
  | [] => some []
  | c :: commands =>
    match m.obey fuel c with
    | none => none
    | some (fault?, m) => (m.obeyAll fuel commands).map ((fault?, m) :: ·)

end Machine

end FoldTape
